import Wlrdp.LogonSemantics
import Wlrdp.SessionIsolation

namespace Wlrdp
set_option autoImplicit true

variable {db : AccountDb} {d d' : Daemon} {identity : Identity} {image : ProcessImage}

/-- The program that a step of the daemon started in a new child. -/
def Daemon.started (d d' : Daemon) : Option ProcessImage :=
  if d.children.length < d'.children.length then d'.children.head?.bind (·.image) else none

/-- The program runs with what the databases assign to the user. -/
structure Assigned (db : AccountDb) (username : CString) (pw : PasswdEntry)
    (image : ProcessImage) : Prop where
  account : getpwnam db username = some pw
  uid : image.uid = pw.uid
  gid : image.gid = pw.gid
  groups : image.supplementary db = initgroups db username pw.gid
  home : image.home = pw.dir
  shell : image.shell = pw.shell
  user : image.user = username

/-- What the daemon owes to a logon for which it starts a program. -/
def Faithful (db : AccountDb) (identity : Identity) (r : LogonTurn) (image : ProcessImage) : Prop :=
  ∃ username pw, identity.user = some username ∧ r.pam.ok = true ∧ Assigned db username pw image

/-- The account found by name is also the first one with its uid, as far as a registry entry
holds the name, and its directory and shell fit into the fields of `struct wlrdp_auth_result`. -/
def AccountDb.Canonical (db : AccountDb) (username : CString) : Prop :=
  ∀ pw, getpwnam db username = some pw →
    (∃ first, getpwuid db pw.uid = some first ∧ first.name.snprintf usernameSize = username) ∧
      pw.dir.length < pathSize ∧ pw.shell.length < pathSize

/-! ### What a logon starts -/

theorem authCheckCredentials_some (h : authCheckCredentials db username r = some auth) :
    r.ok = true ∧ ∃ pw, getpwnam db username = some pw ∧
      auth = ⟨pw.uid, pw.gid, pw.dir.snprintf pathSize, pw.shell.snprintf pathSize⟩ := by
  simp only [authCheckCredentials] at h
  rw [PamTurn.ok]
  cases hs : r.start with
  | false =>
    rw [hs] at h
    cases h
  | true =>
  cases ha : r.authenticate with
  | false =>
    rw [hs, ha] at h
    cases h
  | true =>
  cases hm : r.acctMgmt with
  | false =>
    rw [hs, ha, hm] at h
    cases h
  | true =>
    rw [hs, ha, hm] at h
    cases hpw : getpwnam db username with
    | none =>
      rw [hpw] at h
      cases h
    | some pw =>
      rw [hpw] at h
      cases h
      exact ⟨rfl, pw, rfl, rfl⟩

/-- What `on_peer_logon` can do: refuse before it looks for a session, or take what
`session_mgr_get_session` does for the authenticated user. -/
inductive LogonStep (db : AccountDb) (d : Daemon) (identity : Identity) (r : LogonTurn) :
    Bool × Daemon → Prop
  | refused (h : ∀ username password auth, identity = ⟨some username, some password⟩ →
      authCheckCredentials db username r.pam ≠ some auth) : LogonStep db d identity r (false, d)
  | noSession {d' : Daemon} (hi : identity = ⟨some username, some password⟩)
      (ha : authCheckCredentials db username r.pam = some auth)
      (hs : sessionMgrGetSession db.names d auth r.fork = (none, d')) :
      LogonStep db d identity r (false, d')
  | session {d' : Daemon} {i : Fin maxSessions} (hi : identity = ⟨some username, some password⟩)
      (ha : authCheckCredentials db username r.pam = some auth)
      (hs : sessionMgrGetSession db.names d auth r.fork = (some i, d')) :
      LogonStep db d identity r (true, d')

theorem onPeerLogon_step (db : AccountDb) (d : Daemon) (identity : Identity) (r : LogonTurn) :
    LogonStep db d identity r (onPeerLogon db d identity r) := by
  obtain ⟨user, password⟩ := identity
  simp only [onPeerLogon]
  cases user with
  | none => exact .refused fun _ _ _ hi => by cases hi
  | some username =>
    cases password with
    | none => exact .refused fun _ _ _ hi => by cases hi
    | some password =>
      dsimp only
      cases ha : authCheckCredentials db username r.pam with
      | none =>
        refine .refused fun _ _ _ hi => ?_
        cases hi
        rw [ha]
        nofun
      | some auth =>
        dsimp only
        cases hs : sessionMgrGetSession db.names d auth r.fork with
        | mk entry d' =>
          cases entry with
          | none => exact .noSession rfl ha hs
          | some i => exact .session rfl ha hs

theorem started_same (h : d'.children = d.children) : d.started d' = none := by
  rw [Daemon.started, h]
  exact if_neg (Nat.lt_irrefl _)

theorem started_cons (h : d'.children = c :: d.children) : d.started d' = c.image := by
  have hlt : d.children.length < d'.children.length := by
    rw [h]
    exact Nat.lt_succ_self _
  rw [Daemon.started, if_pos hlt, h]
  rfl

/-- `session_mgr_get_session` starts a program only by forking for a name it has not found. -/
theorem getSession_started (h : sessionMgrGetSession names d auth r = (entry, d'))
    (hs : d.started d' = some image) : ∃ i name sv₀ sv₁, names auth.uid = some name ∧
      sessionChild (d.named i name).mgr ((d.named i name).mgr.sessions i) auth
        ((d.named i name).socketpair sv₀ sv₁).fds sv₀ sv₁ r = some image := by
  have hstep := sessionMgrGetSession_step names d auth r
  rw [h] at hstep
  cases hstep with
  | unknown =>
    rw [started_same rfl] at hs
    cases hs
  | found =>
    rw [started_same rfl] at hs
    cases hs
  | full =>
    rw [started_same rfl] at hs
    cases hs
  | failed _ _ _ hf =>
    rw [@started_same d (Daemon.clear _ _) hf.failed.2] at hs
    cases hs
  | forked hn _ _ hf =>
    rename_i name i _ _
    cases hf with
    | forked sv₀ sv₁ pid =>
      refine ⟨i, name, sv₀, sv₁, hn, ?_⟩
      exact (started_cons rfl).symm.trans hs

theorem sessionChild_credentials
    (h : sessionChild mgr entry auth fds sv₀ sv₁ r = some image) :
    image.uid = auth.uid ∧ image.gid = auth.gid ∧ image.groups = (entry.username, auth.gid) ∧
      image.home = auth.home ∧ image.shell = auth.shell ∧ image.user = entry.username := by
  simp only [sessionChild] at h
  split at h
  · cases h
  split at h
  · cases h
  split at h
  · cases h
  split at h
  · cases h
  · cases h
    exact ⟨rfl, rfl, rfl, rfl, rfl, rfl⟩

/-- The credentials of a program that a logon started: everything comes from the record found by
name, but the user name is the one found for its uid. -/
theorem logon_started (hs : d.started (onPeerLogon db d identity r).2 = some image) :
    ∃ username pw first, identity.user = some username ∧ r.pam.ok = true ∧
      getpwnam db username = some pw ∧ getpwuid db pw.uid = some first ∧
      image.uid = pw.uid ∧ image.gid = pw.gid ∧
      image.groups = (first.name.snprintf usernameSize, pw.gid) ∧
      image.home = pw.dir.snprintf pathSize ∧ image.shell = pw.shell.snprintf pathSize ∧
      image.user = first.name.snprintf usernameSize := by
  have hstep := onPeerLogon_step db d identity r
  generalize onPeerLogon db d identity r = res at hstep hs
  have hget : ∃ username password auth entry, identity = ⟨some username, some password⟩ ∧
      authCheckCredentials db username r.pam = some auth ∧
      sessionMgrGetSession db.names d auth r.fork = (entry, res.2) := by
    cases hstep with
    | refused =>
      rw [started_same rfl] at hs
      cases hs
    | noSession hi ha hget => exact ⟨_, _, _, _, hi, ha, hget⟩
    | session hi ha hget => exact ⟨_, _, _, _, hi, ha, hget⟩
  obtain ⟨username, password, auth, entry, rfl, ha, hget⟩ := hget
  obtain ⟨hpam, pw, hpw, rfl⟩ := authCheckCredentials_some ha
  obtain ⟨i, name, sv₀, sv₁, hn, hchild⟩ := getSession_started hget hs
  obtain ⟨first, hfirst, rfl⟩ := Option.map_eq_some_iff.1 hn
  have hentry : ((d.named i first.name).mgr.sessions i).username =
      first.name.snprintf usernameSize := by
    rw [Daemon.named, SessionMgr.sessions_setEntry_self]
  obtain ⟨huid, hgid, hgroups, hhome, hshell, huser⟩ := sessionChild_credentials hchild
  rw [hentry] at hgroups huser
  exact ⟨username, pw, first, rfl, hpam, hpw, hfirst, huid, hgid, hgroups, hhome, hshell, huser⟩

theorem CString.snprintf_eq_iff {s : CString} (h : 0 < size) :
    s.snprintf size = s ↔ s.length < size := by
  constructor
  · intro heq
    have hlen := s.length_snprintf h
    rwa [heq] at hlen
  · exact CString.snprintf_of_lt

/-- A program that a logon starts has the credentials of the authenticated user exactly if the
databases describe that user canonically. -/
theorem logon_faithful_iff
    (hs : d.started (onPeerLogon db d ⟨some username, password⟩ r).2 = some image) :
    Faithful db ⟨some username, password⟩ r image ↔ db.Canonical username := by
  obtain ⟨_, pw, first, hu, hpam, hpw, hfirst, huid, hgid, hgroups, hhome, hshell, huser⟩ :=
    logon_started hs
  cases hu
  constructor
  · rintro ⟨_, pw', hu, _, hassigned⟩
    cases hu
    cases hpw.symm.trans hassigned.account
    intro pw' hpw'
    cases hpw.symm.trans hpw'
    refine ⟨⟨first, hfirst, huser.symm.trans hassigned.user⟩, ?_, ?_⟩
    · exact (CString.snprintf_eq_iff (by decide)).1 (hhome.symm.trans hassigned.home)
    · exact (CString.snprintf_eq_iff (by decide)).1 (hshell.symm.trans hassigned.shell)
  · intro hcanon
    obtain ⟨⟨first', hfirst', hname⟩, hdir, hsh⟩ := hcanon pw hpw
    cases hfirst.symm.trans hfirst'
    rw [hname] at hgroups huser
    rw [CString.snprintf_of_lt hdir] at hhome
    rw [CString.snprintf_of_lt hsh] at hshell
    refine ⟨username, pw, rfl, hpam, hpw, huid, hgid, ?_, hhome, hshell, huser⟩
    rw [ProcessImage.supplementary, hgroups]

/-! ### Two names for one uid -/

/-- Users `a` and `b` share the uid 1000, and only `b` is in group 27. -/
def sharedUid : AccountDb where
  passwd :=
    [⟨.repeated 1, 1000, 1000, .repeated 2, .repeated 3⟩,
      ⟨.repeated 4, 1000, 1000, .repeated 5, .repeated 3⟩]
  group := [⟨27, [.repeated 4]⟩]

def Identity.of (user password : CString) : Identity := ⟨some user, some password⟩

def LogonTurn.working (sv₀ sv₁ pid : Nat) : LogonTurn := ⟨⟨true, true, true⟩, .working sv₀ sv₁ pid⟩

/-- What the first logon of a user on a fresh daemon starts. -/
def AccountDb.firstLogon (db : AccountDb) (user : CString) : Option ProcessImage :=
  Daemon.fresh.started (onPeerLogon db .fresh (.of user (.repeated 8)) (.working 3 4 1)).2

theorem first_user_faithful :
    ∃ image, sharedUid.firstLogon (.repeated 1) = some image ∧
      Faithful sharedUid (.of (.repeated 1) (.repeated 8)) (.working 3 4 1) image := by
  obtain ⟨image, hs⟩ := Option.isSome_iff_exists.1
    (show (sharedUid.firstLogon (.repeated 1)).isSome = true by decide)
  refine ⟨image, hs, (logon_faithful_iff hs).2 ?_⟩
  intro pw hpw
  cases hpw
  exact ⟨⟨_, rfl, rfl⟩, by decide, by decide⟩

/-- The second user gets the name and the groups of the first. -/
theorem second_user_renamed :
    ∃ image, sharedUid.firstLogon (.repeated 4) = some image ∧
      image.user = .repeated 1 ∧ image.supplementary sharedUid = [1000] ∧
      initgroups sharedUid (.repeated 4) 1000 = [1000, 27] ∧
      ¬ Faithful sharedUid (.of (.repeated 4) (.repeated 8)) (.working 3 4 1) image := by
  obtain ⟨image, hs⟩ := Option.isSome_iff_exists.1
    (show (sharedUid.firstLogon (.repeated 4)).isSome = true by decide)
  obtain ⟨_, pw, first, hu, _, hpw, hfirst, _, _, hgroups, _, _, huser⟩ := logon_started hs
  cases hu
  cases hpw
  cases hfirst
  refine ⟨image, hs, huser, ?_, by decide, ?_⟩
  · rw [ProcessImage.supplementary, hgroups]
    decide
  · rintro ⟨_, pw, hu, _, hassigned⟩
    cases hu
    have hname := huser.symm.trans hassigned.user
    revert hname
    decide

end Wlrdp
