import Wlrdp.RegistrySoundness

namespace Wlrdp
set_option autoImplicit true

variable {db : Passwd} {d d' : Daemon} {i j : Fin maxSessions}

/-- The entry returned for an auth result belongs to a worker forked for its uid. -/
def Daemon.servesOwner (db : Passwd) (d : Daemon) : DaemonEvent → Bool
  | .getSession auth r =>
    let (entry, d') := sessionMgrGetSession db d auth r
    entry.all fun i => d'.owner i = some auth.uid
  | _ => true

/-- No two active entries belong to workers forked for one uid. -/
def Daemon.OneEach (d : Daemon) : Prop :=
  ∀ i j, (d.owner i).isSome = true → d.owner i = d.owner j → i = j

instance : DecidablePred Daemon.OneEach := fun d =>
  inferInstanceAs (Decidable (∀ i j, (d.owner i).isSome = true → d.owner i = d.owner j → i = j))

/-- The run keeps sessions apart and unique. -/
def Daemon.Isolates (db : Passwd) (d : Daemon) (es : List DaemonEvent) : Prop :=
  (daemon db).Along (fun d e => d.servesOwner db e = true) d es ∧ (daemon db).Always Daemon.OneEach d es

instance (db : Passwd) (d : Daemon) (es : List DaemonEvent) : Decidable (d.Isolates db es) :=
  inferInstanceAs (Decidable (_ ∧ _))

/-- Every name fits into the field that identifies its session. -/
def Passwd.Fits (db : Passwd) : Prop := ∀ uid name, db uid = some name → name.length < usernameSize

theorem CString.snprintf_of_lt {s : CString} (h : s.length < size) : s.snprintf size = s := by
  cases s with
  | mk bytes noNul =>
    rw [CString.snprintf, CString.mk.injEq]
    exact List.take_of_length_le (by unfold CString.length at h; omega)

theorem CString.length_snprintf (s : CString) (h : 0 < size) : (s.snprintf size).length < size := by
  change (s.bytes.take (size - 1)).length < size
  rw [List.length_take]
  omega

theorem RegistryInv.oneEach (h : RegistryInv db d) : d.OneEach := by
  intro i j hi hij
  obtain ⟨uid, hu⟩ := Option.isSome_iff_exists.1 hi
  exact h.owner_inj hu (hij ▸ hu)

theorem RegistryInv.found (h : RegistryInv db d) (hdb : db.Distinct) (hfit : db.Fits)
    (hn : db uid = some username) (hs : findSession d.mgr username = some i) :
    d.owner i = some uid := by
  obtain ⟨ha, hname⟩ := findSession_some hs
  obtain ⟨u, n, hu, hdbu, hun⟩ := h.owned i ha
  rw [CString.snprintf_of_lt (hfit u n hdbu), hname] at hun
  rw [hu, hdb u uid username (hun ▸ hdbu) hn]

theorem names_new (hs : findSession d.mgr username = none) (hfit : username.length < usernameSize) :
    ∀ j, (d.mgr.sessions j).active = true →
      (d.mgr.sessions j).username ≠ username.snprintf usernameSize := by
  intro j hj
  rw [CString.snprintf_of_lt hfit]
  exact findSession_none hs hj

theorem getSession_isolated (h : RegistryInv db d) (hdb : db.Distinct) (hfit : db.Fits)
    (he : d.admits (.getSession auth r) = true) :
    RegistryInv db (sessionMgrGetSession db d auth r).2 ∧
      ∀ i, (sessionMgrGetSession db d auth r).1 = some i →
        (sessionMgrGetSession db d auth r).2.owner i = some auth.uid := by
  have hstep := sessionMgrGetSession_step db d auth r
  generalize sessionMgrGetSession db d auth r = res at hstep
  cases hstep with
  | unknown => exact ⟨h, fun _ hi => by cases hi⟩
  | found hn hs =>
    refine ⟨h, fun i hi => ?_⟩
    cases hi
    exact h.found hdb hfit hn hs
  | full => exact ⟨h, fun _ hi => by cases hi⟩
  | failed _ _ ha hf => exact ⟨h.failed ha hf, fun _ hi => by cases hi⟩
  | forked hn hs ha hf =>
    cases hf with
    | forked sv₀ sv₁ pid _ hpid =>
      have hnew := names_new hs (hfit _ _ hn)
      have hfresh := admits_fork he hpid
      refine ⟨(h.forked hn hfresh hnew rfl).1, fun i hi => ?_⟩
      cases hi
      exact (h.forked hn hfresh hnew rfl).2

theorem registryInv_step (h : RegistryInv db d) (hdb : db.Distinct) (hfit : db.Fits)
    (he : d.admits e = true) : RegistryInv db (d.step db e) := by
  cases e with
  | getSession auth r => exact (getSession_isolated h hdb hfit he).1
  | workerExited pid => exact h.exited pid
  | reap pids => exact sessionMgrReap_inv h pids

theorem servesOwner_of_inv (h : RegistryInv db d) (hdb : db.Distinct) (hfit : db.Fits)
    (he : d.admits e = true) : d.servesOwner db e = true := by
  cases e with
  | getSession auth r =>
    have hiso := (getSession_isolated h hdb hfit he).2
    simp only [Daemon.servesOwner]
    cases hi : (sessionMgrGetSession db d auth r).1 with
    | none => rfl
    | some i => exact decide_eq_true (hiso i hi)
  | workerExited => rfl
  | reap => rfl

theorem isolates_of_fits (hdb : db.Distinct) (hfit : db.Fits) (h : RegistryInv db d)
    (hl : (daemon db).Legal d es) : d.Isolates db es := by
  constructor
  · induction es generalizing d with
    | nil => trivial
    | cons e es ih =>
      exact ⟨servesOwner_of_inv h hdb hfit hl.1, ih (registryInv_step h hdb hfit hl.1) hl.2⟩
  · have halways : (daemon db).Always (RegistryInv db) d es :=
      System.always_of_legal (fun _ _ h he => registryInv_step h hdb hfit he) h hl
    exact halways.mono fun _ h => h.oneEach

/-! ### Names that do not fit -/

/-- The same user logs on twice. -/
def twoLogons (uid : UInt32) : List DaemonEvent :=
  [.getSession (.basic uid) (.working 3 4 1), .getSession (.basic uid) (.working 5 6 2)]

theorem sessionMgrGetSession_forked (hn : db auth.uid = some username)
    (hs : findSession d.mgr username = none) (ha : allocSlot d.mgr = some i) :
    sessionMgrGetSession db d auth (.working sv₀ sv₁ pid) =
      (some i, ((d.named i username).socketpair sv₀ sv₁).adopt i sv₀ sv₁
        ((d.named i username).newChild i auth sv₀ sv₁ pid (.working sv₀ sv₁ pid))) := by
  rw [sessionMgrGetSession, hn]
  dsimp only
  rw [hs, ha]
  rfl

/-- The daemon after the first of two logons. -/
def Daemon.once (uid : UInt32) (name : CString) : Daemon :=
  ((Daemon.fresh.named firstSlot name).socketpair 3 4).adopt firstSlot 3 4
    ((Daemon.fresh.named firstSlot name).newChild firstSlot (.basic uid) 3 4 1 (.working 3 4 1))

def Daemon.twice (uid : UInt32) (name : CString) : Daemon :=
  (((Daemon.once uid name).named secondSlot name).socketpair 5 6).adopt secondSlot 5 6
    (((Daemon.once uid name).named secondSlot name).newChild secondSlot (.basic uid) 5 6 2
      (.working 5 6 2))

/-- A name that does not fit is not found again, so that its user gets another session. -/
theorem run_twoLogons (hn : db uid = some name) (hlong : usernameSize ≤ name.length) :
    (daemon db).Legal .fresh (twoLogons uid) ∧
      (daemon db).run .fresh (twoLogons uid) = Daemon.twice uid name := by
  have hfirst : (daemon db).step .fresh (.getSession (.basic uid) (.working 3 4 1)) =
      Daemon.once uid name := by
    change (sessionMgrGetSession db _ (AuthResult.basic uid) _).2 = _
    rw [sessionMgrGetSession_forked (i := firstSlot) hn
      (findSession_eq_none fun _ ha => by cases ha) rfl]
    rfl
  have hmissed : findSession (Daemon.once uid name).mgr name = none := by
    apply findSession_eq_none
    intro i ha
    rw [Daemon.once, adopt_entries] at ha ⊢
    split at ha
    · next hi =>
      rw [if_pos hi]
      intro hname
      have hshort : (name.snprintf usernameSize).length < usernameSize :=
        name.length_snprintf (by decide)
      change name.snprintf usernameSize = name at hname
      rw [hname] at hshort
      omega
    · cases ha
  have hsecond : (daemon db).step (Daemon.once uid name)
      (.getSession (.basic uid) (.working 5 6 2)) = Daemon.twice uid name := by
    change (sessionMgrGetSession db _ (AuthResult.basic uid) _).2 = _
    rw [sessionMgrGetSession_forked (i := secondSlot) hn hmissed rfl]
    rfl
  refine ⟨⟨rfl, ?_, trivial⟩, ?_⟩
  · rw [hfirst]
    rfl
  · change (daemon db).step ((daemon db).step _ _) _ = _
    rw [hfirst, hsecond]

theorem twice_shares (uid : UInt32) (name : CString) : ¬ (Daemon.twice uid name).OneEach := by
  intro h
  have hij : firstSlot = secondSlot := h firstSlot secondSlot rfl rfl
  cases hij

/-- With distinct names, every run from `session_mgr_init` keeps sessions isolated and unique
exactly if every name fits into the entry. -/
theorem isolates_iff_fits (hdb : db.Distinct) :
    (∀ desktop cert key width height fds es,
      (daemon db).Legal (.start (sessionMgrInit desktop cert key width height) fds) es →
        (Daemon.start (sessionMgrInit desktop cert key width height) fds).Isolates db es) ↔
      db.Fits := by
  constructor
  · intro h uid name hn
    by_contra hlong
    obtain ⟨hl, hrun⟩ := run_twoLogons hn (Nat.le_of_not_lt hlong)
    have hlast := (h _ _ _ _ _ _ _ hl).2.last
    change Daemon.OneEach ((daemon db).run .fresh (twoLogons uid)) at hlast
    rw [hrun] at hlast
    exact twice_shares uid name hlast
  · intro hfit _ _ _ _ _ _ _ hl
    exact isolates_of_fits hdb hfit .start hl

def CString.repeated (n : Nat) : CString :=
  ⟨List.replicate n 97, fun b h => by rw [List.eq_of_mem_replicate h]; decide⟩

/-- The users 1000 and 1001, whose names are made of `n` and `m` letters. -/
def twoUsers (n m : Nat) : Passwd := fun uid =>
  if uid = 1000 then some (.repeated n) else
  if uid = 1001 then some (.repeated m) else none

theorem CString.length_repeated (n : Nat) : (CString.repeated n).length = n :=
  List.length_replicate ..

theorem twoUsers_some (h : twoUsers n m uid = some name) :
    uid = 1000 ∧ name = .repeated n ∨ uid = 1001 ∧ name = .repeated m := by
  simp only [twoUsers] at h
  split at h
  · next hu =>
    cases h
    exact .inl ⟨hu, rfl⟩
  split at h
  · next hu =>
    cases h
    exact .inr ⟨hu, rfl⟩
  · cases h

theorem twoUsers_distinct (h : n ≠ m) : (twoUsers n m).Distinct := by
  have hne : CString.repeated n ≠ CString.repeated m := by
    intro heq
    have hlen := congrArg CString.length heq
    rw [CString.length_repeated, CString.length_repeated] at hlen
    exact h hlen
  intro u v name hu hv
  rcases twoUsers_some hu with ⟨rfl, hn⟩ | ⟨rfl, hn⟩ <;>
    rcases twoUsers_some hv with ⟨rfl, hm⟩ | ⟨rfl, hm⟩
  · rfl
  · exact absurd (hn.symm.trans hm) hne
  · exact absurd (hm.symm.trans hn) hne
  · rfl

theorem twoUsers_fits (hn : n < usernameSize) (hm : m < usernameSize) : (twoUsers n m).Fits := by
  intro uid name h
  rcases twoUsers_some h with ⟨_, rfl⟩ | ⟨_, rfl⟩ <;> rwa [CString.length_repeated]

theorem isolates_iff_fits_short :
    (twoUsers 3 4).Distinct ∧ Daemon.fresh.Isolates (twoUsers 3 4) (twoLogons 1000) :=
  ⟨twoUsers_distinct (by decide), (isolates_iff_fits (twoUsers_distinct (by decide))).2
    (twoUsers_fits (by decide) (by decide)) _ _ _ _ _ _ _ (by decide +kernel)⟩

/-- A name of 64 letters and the name of its first 63: the second user is given the session of
the first one. -/
theorem truncated_name_shares :
    (twoUsers 64 63).Distinct ∧
      (daemon (twoUsers 64 63)).Legal .fresh
        [.getSession (.basic 1000) (.working 3 4 1),
          .getSession (.basic 1001) (.working 5 6 2)] ∧
      ¬ Daemon.fresh.Isolates (twoUsers 64 63)
        [.getSession (.basic 1000) (.working 3 4 1),
          .getSession (.basic 1001) (.working 5 6 2)] :=
  ⟨twoUsers_distinct (by decide), by decide +kernel, by decide +kernel⟩

end Wlrdp
