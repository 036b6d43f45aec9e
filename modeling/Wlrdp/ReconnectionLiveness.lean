import Wlrdp.DaemonSoundness
import Wlrdp.Histories

namespace Wlrdp
set_option autoImplicit true

variable {db : AccountDb} {d : Daemon} {s : DaemonProcess} {i j : Fin maxSessions}

/-- A child of that pid is running. -/
def Daemon.live (d : Daemon) (pid : Nat) : Bool :=
  d.children.any (·.pid = pid) && pid ∉ d.zombies

/-- The entry that a logon returns is that of a running worker. -/
def DaemonProcess.returnsLive (db : AccountDb) (s : DaemonProcess) : DaemonInput → Bool
  | .peerLogon identity r =>
    let d := (onPeerLogon db s.daemon identity r).2
    (logonSession db s.daemon identity r).all fun i => d.live (d.mgr.sessions i).pid
  | _ => true

/-! ### Exits, reaps and logons -/

/-- What happens to the worker of a user, who goes by the name in the registry. -/
inductive WorkerEvent
  | forked (username : CString) (pid : Nat)
  | exited (pid : Nat)
  | reaped (pid : Nat)
deriving DecidableEq

/-- The pids of the children that `d'` has and `d` has not. -/
def Daemon.newborn (d d' : Daemon) : List Nat :=
  (d'.children.map (·.pid)).filter fun pid => d.children.all (·.pid ≠ pid)

/-- What an event does to the workers. A logon forks one for the name of its account. -/
def DaemonProcess.happens (db : AccountDb) (s : DaemonProcess) : DaemonInput → List WorkerEvent
  | .workerExits pid => [.exited pid]
  | .waitpid (some pid) => [.reaped pid]
  | .peerLogon identity r =>
    match logonName db identity r with
    | none => []
    | some name =>
      (s.daemon.newborn (s.step db (.peerLogon identity r)).daemon).map
        (.forked (name.snprintf usernameSize))
  | _ => []

/-- The worker was forked for the user, and has neither exited nor been reaped since. -/
def Running (past : List WorkerEvent) (username : CString) (pid : Nat) : Prop :=
  Since (fun e => e ≠ .exited pid ∧ e ≠ .reaped pid) (fun _ e => e = .forked username pid) past

/-- The worker of the user has exited, and has not been reaped since. -/
def Uncollected (past : List WorkerEvent) (username : CString) (pid : Nat) : Prop :=
  Since (fun e => e ≠ .reaped pid)
    (fun before e => e = .exited pid ∧ Running before username pid) past

/-- No logon comes between the exit of a worker of its user and the reaping of that worker. -/
def CollectedInTime (db : AccountDb) (past : List WorkerEvent) : DaemonInput → Prop
  | .peerLogon identity r => ∀ name, logonName db identity r = some name →
      ∀ pid, ¬ Uncollected past name pid
  | _ => True

/-! ### The registry at a logon -/

/-- The first active entry under a name. -/
structure Daemon.FirstUnder (d : Daemon) (name : CString) (i : Fin maxSessions) : Prop where
  active : (d.mgr.sessions i).active = true
  username : (d.mgr.sessions i).username = name
  first : ∀ j < i, (d.mgr.sessions j).active = true → (d.mgr.sessions j).username ≠ name

/-- The registry entry under the name of a logon does not belong to a worker that has exited and
has not been reaped. -/
def DaemonProcess.NoStaleEntry (db : AccountDb) (s : DaemonProcess) : DaemonInput → Prop
  | .peerLogon identity r => ∀ name i, logonName db identity r = some name →
      s.daemon.FirstUnder name i → (s.daemon.mgr.sessions i).pid ∉ s.daemon.zombies
  | _ => True

theorem findSession_iff : findSession d.mgr name = some i ↔ d.FirstUnder name i := by
  rw [findSession, Fin.find?_eq_some_iff]
  constructor
  · rintro ⟨hi, hfirst⟩
    rw [Bool.and_eq_true, decide_eq_true_eq] at hi
    refine ⟨hi.1, hi.2, fun j hj hactive => ?_⟩
    have hfalse := hfirst j hj
    rw [hactive, Bool.true_and] at hfalse
    exact of_decide_eq_false hfalse
  · rintro ⟨hactive, hname, hfirst⟩
    constructor
    · rw [hactive, Bool.true_and]
      exact decide_eq_true hname
    · intro j hj
      cases ha : (d.mgr.sessions j).active with
      | false => rfl
      | true =>
        rw [Bool.true_and]
        exact decide_eq_false (hfirst j hj ha)

theorem WorkersInv.live_iff (h : WorkersInv d) (hi : (d.mgr.sessions i).active = true) :
    d.live (d.mgr.sessions i).pid = true ↔ (d.mgr.sessions i).pid ∉ d.zombies := by
  obtain ⟨c, hmem, hpid⟩ := h.owned i hi
  have hchild : d.children.any (·.pid = (d.mgr.sessions i).pid) = true :=
    List.any_eq_true.2 ⟨c, hmem, decide_eq_true hpid⟩
  rw [Daemon.live, hchild, Bool.true_and, decide_eq_true_eq]

theorem fresh_not_zombie (hfresh : ∀ c ∈ d.children, c.pid ≠ pid) : pid ∉ d.zombies := by
  intro hmem
  obtain ⟨c, hc, hpid⟩ := List.mem_map.1 hmem
  exact hfresh c (List.mem_of_mem_filter hc) hpid

/-- A worker that was just forked is running. -/
theorem forked_live (hfresh : ∀ c ∈ d.children, c.pid ≠ pid) :
    let d' := ((d.named i username).socketpair sv₀ sv₁).adopt i sv₀ sv₁
      ((d.named i username).newChild i auth sv₀ sv₁ pid r)
    d'.live (d'.mgr.sessions i).pid = true := by
  intro d'
  have hpid : (d'.mgr.sessions i).pid = pid := by
    have hentry := adopt_entries d i username auth sv₀ sv₁ pid r i
    rw [if_pos rfl] at hentry
    rw [hentry]
  have hzombies : d'.zombies = d.zombies := rfl
  have hchild : d'.children.any (·.pid = pid) = true :=
    List.any_eq_true.2 ⟨_, List.mem_cons_self, decide_eq_true rfl⟩
  rw [hpid, Daemon.live, hchild, hzombies, Bool.true_and]
  exact decide_eq_true (fresh_not_zombie hfresh)

/-- One logon reaches a running worker exactly if it meets no stale entry. -/
theorem returnsLive_iff (h : s.Inv) (he : s.admits e = true) :
    s.returnsLive db e = true ↔ s.NoStaleEntry db e := by
  cases e with
  | peerLogon identity r =>
    have hpump : ∃ nfds peerFd, s.pc = .pumping nfds peerFd ∧
        s.daemon.admits (.getSession (.basic 0) r.fork) = true := by
      simp only [DaemonProcess.admits] at he
      split at he
      · next hpc => exact ⟨_, _, hpc, he⟩
      · cases he
    obtain ⟨nfds, peerFd, hpc, hadmits⟩ := hpump
    have hworkers : WorkersInv s.daemon := h (by rw [hpc]; rfl)
    simp only [DaemonProcess.returnsLive, DaemonProcess.NoStaleEntry]
    rcases logon_registry db s.daemon identity r with
      ⟨hname, hentry, _⟩ | ⟨_, _, auth, _, _, hname, hget, _⟩
    · rw [hentry, hname]
      refine ⟨fun _ _ _ hn => ?_, fun _ => rfl⟩
      cases hn
    · have hstep := sessionMgrGetSession_step db.names s.daemon auth r.fork
      rw [hget] at hstep
      rw [hname]
      generalize logonSession db s.daemon identity r = entry at hstep
      generalize (onPeerLogon db s.daemon identity r).2 = d' at hstep
      cases hstep with
      | unknown hn =>
        rw [hn]
        refine ⟨fun _ _ _ hn => ?_, fun _ => rfl⟩
        cases hn
      | found hn hs =>
        have hfirst := findSession_iff.1 hs
        rw [hn, Option.all_some, hworkers.live_iff hfirst.active]
        constructor
        · intro hlive name j hname hj
          cases hname
          cases hs.symm.trans (findSession_iff.2 hj)
          exact hlive
        · exact fun hstale => hstale _ _ rfl hfirst
      | full hn hs =>
        refine ⟨fun _ name j hname hj => ?_, fun _ => rfl⟩
        cases hn.symm.trans hname
        cases hs.symm.trans (findSession_iff.2 hj)
      | failed hn hs =>
        refine ⟨fun _ name j hname hj => ?_, fun _ => rfl⟩
        cases hn.symm.trans hname
        cases hs.symm.trans (findSession_iff.2 hj)
      | forked hn hs _ hf =>
        constructor
        · intro _ name j hname hj
          cases hn.symm.trans hname
          cases hs.symm.trans (findSession_iff.2 hj)
        · intro _
          cases hf with
          | forked sv₀ sv₁ pid _ hpid => exact forked_live (admits_fork hadmits hpid)
  | _ => exact ⟨fun _ => trivial, fun _ => rfl⟩

/-! ### The registry and the past -/

/-- An active entry has the name and the pid. -/
def Daemon.Serves (d : Daemon) (username : CString) (pid : Nat) : Prop :=
  ∃ i, (d.mgr.sessions i).active = true ∧ (d.mgr.sessions i).username = username ∧
    (d.mgr.sessions i).pid = pid

/-- The registry and the children are as the past has left them. With names that fit, every user
has one entry at most. -/
structure Tracks (db : AccountDb) (d : Daemon) (past : List WorkerEvent) : Prop where
  workers : WorkersInv d
  running : ∀ n p, Running past n p ↔ d.Serves n p ∧ p ∉ d.zombies
  uncollected : ∀ n p, Uncollected past n p ↔ d.Serves n p ∧ p ∈ d.zombies
  named : db.names.Fits → ∀ i j, (d.mgr.sessions i).active = true →
    (d.mgr.sessions j).active = true →
    (d.mgr.sessions i).username = (d.mgr.sessions j).username → i = j

variable {d' : Daemon} {past : List WorkerEvent}

theorem running_concat : Running (past ++ [e]) n p ↔
    e = .forked n p ∨ Running past n p ∧ e ≠ .exited p ∧ e ≠ .reaped p := since_concat

theorem uncollected_concat : Uncollected (past ++ [e]) n p ↔
    e = .exited p ∧ Running past n p ∨ Uncollected past n p ∧ e ≠ .reaped p := since_concat

theorem Tracks.start (fds : DescriptorTable FileObject) :
    Tracks db (.start (sessionMgrInit desktop cert key width height) fds) [] := by
  have hserves (n : CString) (p : Nat) :
      ¬ (Daemon.start (sessionMgrInit desktop cert key width height) fds).Serves n p := by
    rintro ⟨i, ha, _⟩
    cases ha
  refine ⟨.start fds, fun n p => ?_, fun n p => ?_, fun _ i j ha => ?_⟩
  · exact iff_of_false (not_since_nil _ _) fun h => hserves n p h.1
  · exact iff_of_false (not_since_nil _ _) fun h => hserves n p h.1
  · cases ha

/-- The entries and the children that have exited are all that counts. -/
theorem Tracks.congr (h : Tracks db d past) (hw : WorkersInv d')
    (hs : ∀ i, (d'.mgr.sessions i).active = true ∨ (d.mgr.sessions i).active = true →
      d'.mgr.sessions i = d.mgr.sessions i)
    (hz : d'.zombies = d.zombies) : Tracks db d' past := by
  have hserves (n : CString) (p : Nat) : d'.Serves n p ↔ d.Serves n p := by
    apply exists_congr
    intro i
    constructor
    · intro hi
      rw [hs i (.inl hi.1)] at hi
      exact hi
    · intro hi
      rw [hs i (.inr hi.1)]
      exact hi
  refine ⟨hw, fun n p => ?_, fun n p => ?_, fun hfit i j hi hj hij => ?_⟩
  · rw [hserves, hz]
    exact h.running n p
  · rw [hserves, hz]
    exact h.uncollected n p
  · rw [hs i (.inl hi), hs j (.inl hj)] at hij
    rw [hs i (.inl hi)] at hi
    rw [hs j (.inl hj)] at hj
    exact h.named hfit i j hi hj hij

theorem Tracks.exited (h : Tracks db d past) (he : d.admits (.workerExited pid) = true) :
    Tracks db (d.step db.names (.workerExited pid)) (past ++ [.exited pid]) := by
  refine ⟨h.workers.exited db.names pid, fun n p => ?_, fun n p => ?_, h.named⟩
  · change _ ↔ d.Serves n p ∧ _
    rw [running_concat, h.running, mem_zombies_exited db.names he]
    constructor
    · rintro (hf | ⟨⟨hserves, hz⟩, hne, _⟩)
      · cases hf
      · refine ⟨hserves, ?_⟩
        rintro (rfl | hp)
        · exact hne rfl
        · exact hz hp
    · rintro ⟨hserves, hz⟩
      refine .inr ⟨⟨hserves, fun hp => hz (.inr hp)⟩, ?_, WorkerEvent.noConfusion⟩
      intro heq
      cases heq
      exact hz (.inl rfl)
  · change _ ↔ d.Serves n p ∧ _
    rw [uncollected_concat, h.running, h.uncollected, mem_zombies_exited db.names he]
    constructor
    · rintro (⟨heq, hserves, _⟩ | ⟨⟨hserves, hz⟩, _⟩)
      · cases heq
        exact ⟨hserves, .inl rfl⟩
      · exact ⟨hserves, .inr hz⟩
    · rintro ⟨hserves, hp⟩
      by_cases hz : p ∈ d.zombies
      · exact .inr ⟨⟨hserves, hz⟩, WorkerEvent.noConfusion⟩
      · rcases hp with rfl | hp
        · exact .inl ⟨rfl, hserves, hz⟩
        · exact absurd hp hz

/-- A worker that is reaped takes its entry along. -/
theorem serves_reaped (h : WorkersInv d) (pid : Nat) (n : CString) (p : Nat) :
    (reapChild d pid).Serves n p ↔ d.Serves n p ∧ p ≠ pid := by
  have hstep := reapChild_step d pid
  generalize reapChild d pid = d' at hstep
  cases hstep with
  | stranger hn =>
    constructor
    · rintro ⟨i, ha, hname, rfl⟩
      exact ⟨⟨i, ha, hname, rfl⟩, hn i ha⟩
    · rintro ⟨⟨i, ha, hname, hp⟩, _⟩
      exact ⟨i, ha, hname, hp⟩
  | worker i ha hp =>
    constructor
    · rintro ⟨j, hj, hname, hpid⟩
      obtain ⟨hij, hsame⟩ := sessions_left hj
      change ((d.mgr.setEntry i .zero).sessions j).active = true at hj
      change ((d.mgr.setEntry i .zero).sessions j).username = n at hname
      change ((d.mgr.setEntry i .zero).sessions j).pid = p at hpid
      rw [hsame] at hj hname hpid
      refine ⟨⟨j, hj, hname, hpid⟩, ?_⟩
      rintro rfl
      exact hij (h.distinct j i hj ha (hpid.trans hp.symm))
    · rintro ⟨⟨j, hj, hname, rfl⟩, hne⟩
      have hij : j ≠ i := by
        rintro rfl
        exact hne hp
      have hsame : (d.mgr.setEntry i .zero).sessions j = d.mgr.sessions j :=
        SessionMgr.sessions_setEntry_of_ne hij
      refine ⟨j, ?_, ?_, ?_⟩
      · exact hsame ▸ hj
      · exact hsame ▸ hname
      · exact congrArg SessionEntry.pid hsame

theorem Tracks.reaped (h : Tracks db d past) (pid : Nat) :
    Tracks db (reapChild d pid) (past ++ [.reaped pid]) := by
  have hzombies (p : Nat) : p ∈ (reapChild d pid).zombies ↔ p ∈ d.zombies ∧ p ≠ pid :=
    mem_zombies_filter (reapChild_children d pid)
  have hother (p : Nat) : WorkerEvent.reaped pid ≠ .reaped p ↔ p ≠ pid := by
    rw [ne_eq, ne_eq, WorkerEvent.reaped.injEq, eq_comm]
  refine ⟨h.workers.reaped pid, fun n p => ?_, fun n p => ?_, fun hfit i j hi hj hij => ?_⟩
  · rw [running_concat, h.running, serves_reaped h.workers, hzombies, hother]
    constructor
    · rintro (hf | ⟨⟨hserves, hz⟩, _, hne⟩)
      · cases hf
      · exact ⟨⟨hserves, hne⟩, fun hp => hz hp.1⟩
    · rintro ⟨⟨hserves, hne⟩, hz⟩
      exact .inr ⟨⟨hserves, fun hp => hz ⟨hp, hne⟩⟩, WorkerEvent.noConfusion, hne⟩
  · rw [uncollected_concat, h.running, h.uncollected, serves_reaped h.workers, hzombies, hother]
    constructor
    · rintro (⟨hf, _⟩ | ⟨⟨hserves, hz⟩, hne⟩)
      · cases hf
      · exact ⟨⟨hserves, hne⟩, hz, hne⟩
    · rintro ⟨⟨hserves, hne⟩, hz, _⟩
      exact .inr ⟨⟨hserves, hz⟩, hne⟩
  · have hkept (k : Fin maxSessions) (hk : ((reapChild d pid).mgr.sessions k).active = true) :
        (reapChild d pid).mgr.sessions k = d.mgr.sessions k := by
      have hstep := reapChild_step d pid
      generalize reapChild d pid = d' at hstep hk ⊢
      cases hstep with
      | stranger => rfl
      | worker => exact (sessions_left hk).2
    have hsi := hkept i hi
    have hsj := hkept j hj
    rw [hsi] at hi hij
    rw [hsj] at hj hij
    exact h.named hfit i j hi hj hij

theorem newborn_same (hc : d'.children = d.children) : d.newborn d' = [] := by
  rw [Daemon.newborn, hc, List.filter_eq_nil_iff]
  intro pid hpid hfresh
  obtain ⟨c, hmem, rfl⟩ := List.mem_map.1 hpid
  have hne := List.all_eq_true.1 hfresh c hmem
  exact of_decide_eq_true hne rfl

theorem newborn_forked (hfresh : ∀ c ∈ d.children, c.pid ≠ child.pid)
    (hc : d'.children = child :: d.children) : d.newborn d' = [child.pid] := by
  have hnew : (d.children.all (·.pid ≠ child.pid)) = true :=
    List.all_eq_true.2 fun c hmem => decide_eq_true (hfresh c hmem)
  have hrest : d.newborn d = [] := newborn_same rfl
  rw [Daemon.newborn] at hrest
  rw [Daemon.newborn, hc, List.map_cons, List.filter_cons, if_pos hnew, hrest]

/-- A fork fills an entry that was not in use. -/
theorem serves_forked (ha : (d.mgr.sessions i).active = false)
    (hentry : ∀ j, d'.mgr.sessions j =
      if j = i then ⟨true, username, pid, ipcFd, status⟩ else d.mgr.sessions j)
    (n : CString) (p : Nat) :
    d'.Serves n p ↔ d.Serves n p ∨ n = username ∧ p = pid := by
  constructor
  · rintro ⟨j, hj, hname, hpid⟩
    rw [hentry] at hj hname hpid
    split at hname
    · next hij =>
      rw [if_pos hij] at hpid
      exact .inr ⟨hname.symm, hpid.symm⟩
    · next hij =>
      rw [if_neg hij] at hj hpid
      exact .inl ⟨j, hj, hname, hpid⟩
  · rintro (⟨j, hj, hname, hpid⟩ | ⟨rfl, rfl⟩)
    · have hij : j ≠ i := by
        rintro rfl
        cases ha.symm.trans hj
      have hsame : d'.mgr.sessions j = d.mgr.sessions j := by rw [hentry, if_neg hij]
      rw [← hsame] at hj hname hpid
      exact ⟨j, hj, hname, hpid⟩
    · have hnew := hentry i
      rw [if_pos rfl] at hnew
      refine ⟨i, ?_, ?_, ?_⟩
      · rw [hnew]
      · rw [hnew]
      · rw [hnew]

theorem Tracks.forked (h : Tracks db d past) (hn : db.names uid = some name)
    (hs : findSession d.mgr name = none) (ha : (d.mgr.sessions i).active = false)
    (hfresh : ∀ c ∈ d.children, c.pid ≠ pid)
    (hd' : d' = ((d.named i name).socketpair sv₀ sv₁).adopt i sv₀ sv₁
      ((d.named i name).newChild i auth sv₀ sv₁ pid r)) :
    Tracks db d' (past ++ [.forked (name.snprintf usernameSize) pid]) := by
  have hentry (j : Fin maxSessions) : d'.mgr.sessions j = if j = i then
      ⟨true, name.snprintf usernameSize, pid, sv₀, .ready⟩ else d.mgr.sessions j := by
    rw [hd']
    exact adopt_entries d i name auth sv₀ sv₁ pid r j
  have hzombies : d'.zombies = d.zombies := by
    rw [hd']
    rfl
  have hrunning := fresh_not_zombie hfresh
  have hserves := serves_forked ha hentry
  refine ⟨h.workers.forked hfresh hd', fun n p => ?_, fun n p => ?_, fun hfit j k hj hk hjk => ?_⟩
  · rw [running_concat, h.running, hserves, hzombies]
    constructor
    · rintro (heq | ⟨⟨hold, hz⟩, _⟩)
      · cases heq
        exact ⟨.inr ⟨rfl, rfl⟩, hrunning⟩
      · exact ⟨.inl hold, hz⟩
    · rintro ⟨hold | ⟨rfl, rfl⟩, hz⟩
      · exact .inr ⟨⟨hold, hz⟩, WorkerEvent.noConfusion, WorkerEvent.noConfusion⟩
      · exact .inl rfl
  · rw [uncollected_concat, h.uncollected, hserves, hzombies]
    constructor
    · rintro (⟨heq, _⟩ | ⟨⟨hold, hz⟩, _⟩)
      · cases heq
      · exact ⟨.inl hold, hz⟩
    · rintro ⟨hold | ⟨rfl, rfl⟩, hz⟩
      · exact .inr ⟨⟨hold, hz⟩, WorkerEvent.noConfusion⟩
      · exact absurd hz hrunning
  · have hnew := names_new hs (hfit uid name hn)
    rw [hentry] at hj hjk
    rw [hentry] at hk hjk
    by_cases hij : j = i
    · by_cases hik : k = i
      · exact hij.trans hik.symm
      · rw [if_pos hij, if_neg hik] at hjk
        rw [if_neg hik] at hk
        exact absurd hjk.symm (hnew k hk)
    · rw [if_neg hij] at hj hjk
      by_cases hik : k = i
      · rw [if_pos hik] at hjk
        exact absurd hjk (hnew j hj)
      · rw [if_neg hik] at hk hjk
        exact h.named hfit j k hj hk hjk

/-- A logon whose fork fails leaves every entry in use as it was. -/
theorem Tracks.failed (h : Tracks db d past) (ha : allocSlot d.mgr = some i)
    (hf : ForkStep (d.named i name) i auth r (false, d')) : Tracks db (d'.clear i) past := by
  obtain ⟨hm, hc⟩ := hf.failed
  refine h.congr (h.workers.failed ha hf) ?_ (@zombies_congr d (d'.clear i) hc)
  rintro j (hj | hj)
  · exact clear_same (allocSlot_some ha) hm hj
  · have hij : j ≠ i := by
      rintro rfl
      cases (allocSlot_some ha).symm.trans hj
    have hnamed : (d.named i name).mgr.sessions j = d.mgr.sessions j :=
      SessionMgr.sessions_setEntry_of_ne hij
    have hcleared : (d'.clear i).mgr.sessions j = d'.mgr.sessions j :=
      SessionMgr.sessions_setEntry_of_ne hij
    rw [hcleared, hm, hnamed]

theorem Tracks.logon (h : Tracks db d past)
    (he : d.admits (.getSession (.basic 0) r.fork) = true) :
    Tracks db (onPeerLogon db d identity r).2
      (past ++ match logonName db identity r with
        | none => []
        | some name => (d.newborn (onPeerLogon db d identity r).2).map
            (.forked (name.snprintf usernameSize))) := by
  rcases logon_registry db d identity r with
    ⟨hname, _, hsame⟩ | ⟨_, _, auth, _, _, hname, hget, _⟩
  · rw [hname, hsame, List.append_nil]
    exact h
  · have hquiet : d.newborn d = [] := newborn_same rfl
    have hstep := sessionMgrGetSession_step db.names d auth r.fork
    rw [hget] at hstep
    rw [hname]
    generalize logonSession db d identity r = entry at hstep
    generalize (onPeerLogon db d identity r).2 = d' at hstep ⊢
    cases hstep with
    | unknown hn =>
      simp only [hn, List.append_nil]
      exact h
    | found hn =>
      simp only [hn, hquiet, List.map_nil, List.append_nil]
      exact h
    | full hn =>
      simp only [hn, hquiet, List.map_nil, List.append_nil]
      exact h
    | @failed _ i d' hn _ ha hf =>
      have hc : d.newborn (d'.clear i) = [] := newborn_same hf.failed.2
      simp only [hn, hc, List.map_nil, List.append_nil]
      exact h.failed ha hf
    | @forked _ i _ hn hs ha hf =>
      rw [hn]
      cases hf with
      | forked sv₀ sv₁ pid _ hpid =>
        have hfresh := admits_fork he hpid
        dsimp only
        rw [newborn_forked hfresh rfl, List.map_singleton]
        exact h.forked hn hs (allocSlot_some ha) hfresh rfl

/-- While the daemon serves, its registry is as the past has left it. -/
theorem tracks_step (h : s.pc.serving = true → Tracks db s.daemon past) (he : s.admits e = true)
    (hs : (s.step db e).pc.serving = true) :
    Tracks db (s.step db e).daemon (past ++ s.happens db e) := by
  have hquiet (hq : e.quiet = true) : s.happens db e = [] := by
    cases e with
    | waitpid pid =>
      cases pid with
      | none => rfl
      | some pid => cases hq
    | workerExits => cases hq
    | peerLogon => cases hq
    | _ => rfl
  have hmove : DaemonMove db s e (s.step db e) := daemonMove_step he
  generalize hs' : s.step db e = s' at hmove hs ⊢
  cases hmove with
  | kept hq hp hm hc =>
    have ht := h (hp hs)
    rw [hquiet hq, List.append_nil]
    exact ht.congr (ht.workers.congr hm hc) (fun _ _ => by rw [hm]) (zombies_congr hc)
  | joined _ hp => cases hp.symm.trans hs
  | exited pid hexit hp hd =>
    rw [hp] at hs
    rw [hd]
    exact (h hs).exited hexit
  | reaped pid hp hd =>
    rw [hp] at hs
    rw [hd]
    exact (h hs).reaped pid
  | logon identity r hp hlogon hd =>
    rw [hp] at hs
    rw [DaemonProcess.happens, hs', hd]
    exact (h hs).logon hlogon

theorem serving_of_logon (he : s.admits (.peerLogon identity r) = true) :
    s.pc.serving = true := by
  simp only [DaemonProcess.admits] at he
  split at he
  · next hpc =>
    rw [hpc]
    rfl
  · cases he

/-- A stale entry is one of an exit that was not collected. -/
theorem noStaleEntry_of_collected (h : s.pc.serving = true → Tracks db s.daemon past)
    (he : s.admits e = true) (hc : CollectedInTime db past e) : s.NoStaleEntry db e := by
  cases e with
  | peerLogon identity r =>
    have ht := h (serving_of_logon he)
    intro name i hname hfirst hz
    apply hc name hname (s.daemon.mgr.sessions i).pid
    exact (ht.uncollected ..).2 ⟨⟨i, hfirst.active, hfirst.username, rfl⟩, hz⟩
  | _ => trivial

/-- With names that fit, an exit that was not collected leaves the entry that a logon finds. -/
theorem collected_of_noStaleEntry (hfit : db.names.Fits)
    (h : s.pc.serving = true → Tracks db s.daemon past) (he : s.admits e = true)
    (hn : s.NoStaleEntry db e) : CollectedInTime db past e := by
  cases e with
  | peerLogon identity r =>
    have ht := h (serving_of_logon he)
    intro name hname pid hun
    obtain ⟨⟨i, ha, hi, rfl⟩, hz⟩ := (ht.uncollected ..).1 hun
    refine hn name i hname ⟨ha, hi, fun j hji hj hnj => ?_⟩ hz
    exact absurd (ht.named hfit j i hj ha (hnj.trans hi.symm)) (Fin.ne_of_lt hji)
  | _ => trivial

/-- Every logon of a run reaches a running worker if none comes between the exit of a worker of
its user and the reaping of that worker. With names that fit into the registry, that is also
necessary. -/
theorem reconnection_live (hl : (daemonProcess db).Legal
      (.start (sessionMgrInit desktop cert key width height) fds) es) :
    ((daemonProcess db).AlongPast (DaemonProcess.happens db) (CollectedInTime db) []
        (.start (sessionMgrInit desktop cert key width height) fds) es →
      (daemonProcess db).Along (fun s e => s.returnsLive db e = true)
        (.start (sessionMgrInit desktop cert key width height) fds) es) ∧
    (db.names.Fits →
      (daemonProcess db).Along (fun s e => s.returnsLive db e = true)
        (.start (sessionMgrInit desktop cert key width height) fds) es →
      (daemonProcess db).AlongPast (DaemonProcess.happens db) (CollectedInTime db) []
        (.start (sessionMgrInit desktop cert key width height) fds) es) := by
  have hstep : ∀ s past e, s.Inv ∧ (s.pc.serving = true → Tracks db s.daemon past) →
      (daemonProcess db).enabled s e → (s.step db e).Inv ∧ ((s.step db e).pc.serving = true →
        Tracks db (s.step db e).daemon (past ++ s.happens db e)) :=
    fun s past e h he => ⟨h.1.step he, tracks_step h.2 he⟩
  constructor
  · apply System.AlongPast.along hstep ?_ ⟨.start, fun _ => .start fds⟩ hl
    intro s past e h he hc
    exact (returnsLive_iff h.1 he).2 (noStaleEntry_of_collected h.2 he hc)
  · intro hfit
    apply System.Along.alongPast hstep ?_ ⟨.start, fun _ => .start fds⟩ hl
    intro s past e h he hlive
    exact collected_of_noStaleEntry hfit h.2 he ((returnsLive_iff h.1 he).1 hlive)

/-! ### A worker that exits while a peer is being served -/

def DaemonProcess.fresh : DaemonProcess :=
  .start (sessionMgrInit .empty .empty .empty 0 0) .empty

/-- One user, whose name is of length 1. -/
def singleUser : AccountDb := ⟨[⟨.repeated 1, 1000, 1000, .repeated 2, .repeated 3⟩], []⟩

/-- A peer connects, its user logs on, and the peer leaves. -/
def visit (peerFd sv₀ sv₁ pid : Nat) (exits : List DaemonInput) : List DaemonInput :=
  [.loopTest, .epollWait (.ready 1), .peerAccepted peerFd] ++ exits ++
    [.peerLogon (.of (.repeated 1) (.repeated 8)) (.working sv₀ sv₁ pid), .peerChecked false,
      .listenerChecked true]

/-- The worker of a visit exits and is reaped, and its user connects again. -/
def collectedVisit : List DaemonInput :=
  visit 10 3 4 1 [] ++ [.workerExits 1, .loopTest, .waitpid (some 1), .waitpid none, .clearFlag,
    .epollWait (.ready 1), .peerAccepted 11]

theorem not_uncollected_reaped (name : CString) (pid : Nat) :
    ¬ Uncollected [.forked (.repeated 1) 1, .exited 1, .reaped 1] name pid := by
  rintro ⟨before, e, after, hpast, ⟨rfl, _⟩, hnot⟩
  rcases before with _ | ⟨_, _ | ⟨_, _ | ⟨_, before⟩⟩⟩
  · cases hpast
  · cases hpast
    exact hnot _ List.mem_cons_self rfl
  · cases hpast
  · exact List.append_ne_nil_of_right_ne_nil before (List.cons_ne_nil _ _)
      (List.tail_eq_of_cons_eq (List.tail_eq_of_cons_eq (List.tail_eq_of_cons_eq hpast))).symm

theorem returning_visit_live :
    (daemonProcess singleUser).Along (fun s e => s.returnsLive singleUser e = true) .fresh
      (collectedVisit ++ [.peerLogon (.of (.repeated 1) (.repeated 8)) (.working 5 6 2)]) := by
  apply (reconnection_live (by decide +kernel)).1
  refine ⟨trivial, trivial, trivial, ?_, trivial, trivial, trivial, trivial, trivial, trivial,
    trivial, trivial, trivial, ?_, trivial⟩
  · intro name _ pid
    exact not_since_nil _ _
  · intro name _ pid
    exact not_uncollected_reaped name pid

/-- The worker exits after `epoll_wait` has returned, and the next logon gets its entry. -/
theorem second_visit_stale :
    (daemonProcess singleUser).Legal .fresh
        (visit 10 3 4 1 [] ++ visit 11 5 6 2 [.workerExits 1]) ∧
      ¬ (daemonProcess singleUser).Along (fun s e => s.returnsLive singleUser e = true) .fresh
        (visit 10 3 4 1 [] ++ visit 11 5 6 2 [.workerExits 1]) := by
  decide +kernel

end Wlrdp
