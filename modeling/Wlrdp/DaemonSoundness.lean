import Wlrdp.DaemonSemantics
import Wlrdp.LogonCredentials
import Wlrdp.ReapingLoops

namespace Wlrdp
set_option autoImplicit true

variable {d d' : Daemon} {i j : Fin maxSessions}

/-! ### Entries and their workers -/

/-- Every active entry has an unreaped worker of its own. -/
structure WorkersInv (d : Daemon) : Prop where
  owned : ∀ i, (d.mgr.sessions i).active = true →
    ∃ c ∈ d.children, c.pid = (d.mgr.sessions i).pid
  distinct : ∀ i j, (d.mgr.sessions i).active = true → (d.mgr.sessions j).active = true →
    (d.mgr.sessions i).pid = (d.mgr.sessions j).pid → i = j

theorem WorkersInv.start (fds : DescriptorTable FileObject) :
    WorkersInv (.start (sessionMgrInit desktop cert key width height) fds) :=
  ⟨fun _ ha => (by cases ha), fun _ _ ha => (by cases ha)⟩

/-- Entries only go away, and the workers of those that stay do not. -/
theorem WorkersInv.shrink (h : WorkersInv d)
    (hs : ∀ i, (d'.mgr.sessions i).active = true → d'.mgr.sessions i = d.mgr.sessions i)
    (hc : ∀ i, (d'.mgr.sessions i).active = true → ∀ c ∈ d.children,
      c.pid = (d.mgr.sessions i).pid → ∃ c' ∈ d'.children, c'.pid = c.pid) : WorkersInv d' := by
  constructor
  · intro i hi
    have hsame := hs i hi
    obtain ⟨c, hmem, hpid⟩ := h.owned i (by rwa [hsame] at hi)
    obtain ⟨c', hmem', hpid'⟩ := hc i hi c hmem hpid
    exact ⟨c', hmem', by rw [hpid', hpid, hsame]⟩
  · intro i j hi hj hij
    have hsi := hs i hi
    have hsj := hs j hj
    rw [hsi] at hi hij
    rw [hsj] at hj hij
    exact h.distinct i j hi hj hij

/-- Descriptors do not matter. -/
theorem WorkersInv.congr (h : WorkersInv d) (hm : d'.mgr = d.mgr)
    (hc : d'.children = d.children) : WorkersInv d' :=
  h.shrink (fun _ _ => by rw [hm]) fun _ _ c hmem _ => ⟨c, by rwa [hc], rfl⟩

theorem WorkersInv.exited (h : WorkersInv d) (names : Passwd) (pid : Nat) :
    WorkersInv (d.step names (.workerExited pid)) := by
  refine h.shrink (fun _ _ => rfl) fun _ _ c hmem _ => ?_
  refine ⟨_, List.mem_map_of_mem hmem, ?_⟩
  split <;> rfl

/-- What `session_mgr_reap` can do for one pid. -/
inductive ReapStep (d : Daemon) (pid : Nat) : Daemon → Prop
  | stranger (hn : ∀ i, (d.mgr.sessions i).active = true → (d.mgr.sessions i).pid ≠ pid) :
      ReapStep d pid { d with children := d.children.filter (·.pid ≠ pid) }
  | worker (i : Fin maxSessions) (ha : (d.mgr.sessions i).active = true)
      (hp : (d.mgr.sessions i).pid = pid) :
      ReapStep d pid { d with
        children := d.children.filter (·.pid ≠ pid)
        fds := d.fds.close (d.mgr.sessions i).ipcFd
        mgr := { d.mgr.setEntry i .zero with count := d.mgr.count - 1 } }

theorem reapChild_step (d : Daemon) (pid : Nat) : ReapStep d pid (reapChild d pid) := by
  unfold reapChild
  dsimp only
  split
  · next hnone =>
    apply ReapStep.stranger
    intro i hi hpid
    have hp := Fin.eq_false_of_find?_eq_none hnone i
    change (d.mgr.sessions i).active = true at hi
    rw [hi, Bool.true_and] at hp
    exact of_decide_eq_false hp hpid
  · next i hsome =>
    obtain ⟨ha, hp⟩ := Bool.and_eq_true_iff.1 (Fin.eq_true_of_find?_eq_some hsome)
    exact .worker i ha (of_decide_eq_true hp)

theorem sessions_left {mgr : SessionMgr} (hj : ((mgr.setEntry i .zero).sessions j).active = true) :
    j ≠ i ∧ (mgr.setEntry i .zero).sessions j = mgr.sessions j := by
  have hij : j ≠ i := by
    rintro rfl
    rw [SessionMgr.sessions_setEntry_self] at hj
    cases hj
  exact ⟨hij, SessionMgr.sessions_setEntry_of_ne hij⟩

theorem WorkersInv.reaped (h : WorkersInv d) (pid : Nat) : WorkersInv (reapChild d pid) := by
  have hkeep {c : ChildProcess} (hmem : c ∈ d.children) (hne : c.pid ≠ pid) :
      c ∈ d.children.filter (·.pid ≠ pid) :=
    List.mem_filter.2 ⟨hmem, decide_eq_true hne⟩
  have hstep := reapChild_step d pid
  generalize reapChild d pid = d' at hstep
  cases hstep with
  | stranger hn =>
    refine h.shrink (fun _ _ => rfl) fun i hi c hmem hpid => ⟨c, hkeep hmem fun heq => ?_, rfl⟩
    exact hn i hi (hpid.symm.trans heq)
  | worker i ha hp =>
    refine h.shrink (fun j hj => (sessions_left hj).2) fun j hj c hmem hcpid =>
      ⟨c, hkeep hmem fun heq => ?_, rfl⟩
    obtain ⟨hij, hsame⟩ := sessions_left hj
    have haj : (d.mgr.sessions j).active = true := hsame ▸ hj
    exact hij (h.distinct j i haj ha ((hcpid.symm.trans heq).trans hp.symm))

theorem WorkersInv.failed (h : WorkersInv d) (ha : allocSlot d.mgr = some i)
    (hf : ForkStep (d.named i username) i auth r (false, d')) : WorkersInv (d'.clear i) := by
  obtain ⟨hm, hc⟩ := hf.failed
  have hc' : (d'.clear i).children = d.children := hc
  apply h.shrink (fun j hj => clear_same (allocSlot_some ha) hm hj)
  intro _ _ c hmem _
  exact ⟨c, by rwa [hc'], rfl⟩

theorem WorkersInv.forked (h : WorkersInv d) (hfresh : ∀ c ∈ d.children, c.pid ≠ pid)
    (hd' : d' = ((d.named i username).socketpair sv₀ sv₁).adopt i sv₀ sv₁
      ((d.named i username).newChild i auth sv₀ sv₁ pid r)) : WorkersInv d' := by
  have hs : ∀ j, d'.mgr.sessions j = if j = i then
      ⟨true, username.snprintf usernameSize, pid, sv₀, .ready⟩ else d.mgr.sessions j := by
    intro j
    rw [hd']
    exact adopt_entries d i username auth sv₀ sv₁ pid r j
  have hc : d'.children = (d.named i username).newChild i auth sv₀ sv₁ pid r :: d.children := by
    rw [hd']
    rfl
  have hold (j : Fin maxSessions) (hj : (d.mgr.sessions j).active = true) :
      (d.mgr.sessions j).pid ≠ pid := by
    obtain ⟨c, hmem, hpid⟩ := h.owned j hj
    rw [← hpid]
    exact hfresh c hmem
  constructor
  · intro j hj
    rw [hs] at hj ⊢
    rw [hc]
    by_cases hij : j = i
    · rw [if_pos hij]
      exact ⟨_, List.mem_cons_self, rfl⟩
    · rw [if_neg hij] at hj ⊢
      obtain ⟨c, hmem, hpid⟩ := h.owned j hj
      exact ⟨c, List.mem_cons_of_mem _ hmem, hpid⟩
  · intro j k hj hk hjk
    rw [hs] at hj hk
    rw [hs j, hs k] at hjk
    by_cases hij : j = i <;> by_cases hik : k = i
    · exact hij.trans hik.symm
    · rw [if_neg hik] at hk
      rw [if_pos hij, if_neg hik] at hjk
      exact absurd hjk.symm (hold k hk)
    · rw [if_neg hij] at hj
      rw [if_neg hij, if_pos hik] at hjk
      exact absurd hjk (hold j hj)
    · rw [if_neg hij] at hj
      rw [if_neg hik] at hk
      rw [if_neg hij, if_neg hik] at hjk
      exact h.distinct j k hj hk hjk

theorem WorkersInv.getSession (h : WorkersInv d) (names : Passwd) (auth : AuthResult)
    (he : d.admits (.getSession auth r) = true) :
    WorkersInv (sessionMgrGetSession names d auth r).2 := by
  have hstep := sessionMgrGetSession_step names d auth r
  generalize sessionMgrGetSession names d auth r = res at hstep
  cases hstep with
  | unknown => exact h
  | found => exact h
  | full => exact h
  | failed _ _ ha hf => exact h.failed ha hf
  | forked _ _ _ hf =>
    cases hf with
    | forked sv₀ sv₁ pid _ hpid => exact h.forked (admits_fork he hpid) rfl

/-! ### Logons -/

variable {db : AccountDb} {identity : Identity}

/-- The name under which a logon looks for a session: the first one with the uid of the
authenticated user. -/
def logonName (db : AccountDb) (identity : Identity) (r : LogonTurn) : Option CString :=
  match identity.user, identity.password with
  | some username, some _ =>
    (authCheckCredentials db username r.pam).bind fun auth => db.names auth.uid
  | _, _ => none

/-- Either a logon is refused before the registry is consulted, or its registry and its entry
are those of `session_mgr_get_session`. -/
theorem logon_registry (db : AccountDb) (d : Daemon) (identity : Identity) (r : LogonTurn) :
    (logonName db identity r = none ∧ logonSession db d identity r = none ∧
        onPeerLogon db d identity r = (false, d)) ∨
      ∃ username password auth, identity = ⟨some username, some password⟩ ∧
        authCheckCredentials db username r.pam = some auth ∧
        logonName db identity r = db.names auth.uid ∧
        sessionMgrGetSession db.names d auth r.fork =
          (logonSession db d identity r, (onPeerLogon db d identity r).2) ∧
        (onPeerLogon db d identity r).1 = (logonSession db d identity r).isSome := by
  obtain ⟨user, password⟩ := identity
  simp only [logonSession, onPeerLogon, logonName]
  cases user with
  | none => exact .inl ⟨rfl, rfl, rfl⟩
  | some username =>
    cases password with
    | none => exact .inl ⟨rfl, rfl, rfl⟩
    | some password =>
      dsimp only
      cases ha : authCheckCredentials db username r.pam with
      | none => exact .inl ⟨rfl, rfl, rfl⟩
      | some auth =>
        refine .inr ⟨username, password, auth, rfl, ha, rfl, ?_⟩
        dsimp only
        cases sessionMgrGetSession db.names d auth r.fork with
        | mk entry d' => cases entry <;> exact ⟨rfl, rfl⟩

theorem WorkersInv.logon (h : WorkersInv d) (he : d.admits (.getSession auth r.fork) = true) :
    WorkersInv (onPeerLogon db d identity r).2 := by
  rcases logon_registry db d identity r with
    ⟨_, _, hsame⟩ | ⟨_, _, auth', _, _, _, hget, _⟩
  · rw [hsame]
    exact h
  · have hworkers := h.getSession db.names auth' he
    rw [hget] at hworkers
    exact hworkers

/-! ### Children that have exited -/

theorem zombies_congr {d' : Daemon} (hc : d'.children = d.children) : d'.zombies = d.zombies := by
  rw [Daemon.zombies, hc]
  rfl

/-- A child that exits is one that the process has. -/
theorem exists_pid {children : List γ} {pidOf : γ → Nat} {exited : γ → Bool}
    (he : (children.any fun c => pidOf c = pid && !exited c) = true) :
    ∃ c ∈ children, pidOf c = pid := by
  obtain ⟨c, hmem, hc⟩ := List.any_eq_true.1 he
  exact ⟨c, hmem, of_decide_eq_true (Bool.and_eq_true_iff.1 hc).1⟩

theorem mem_zombies_exited (names : Passwd) (he : d.admits (.workerExited pid) = true) :
    q ∈ (d.step names (.workerExited pid)).zombies ↔ q = pid ∨ q ∈ d.zombies := by
  simp only [Daemon.zombies, Daemon.step, mem_zombie_pids]
  exact zombie_map_exit (fun _ => rfl) (fun _ => rfl) (exists_pid he)

theorem mem_zombies_filter {d' : Daemon} (hc : d'.children = d.children.filter (·.pid ≠ pid)) :
    q ∈ d'.zombies ↔ q ∈ d.zombies ∧ q ≠ pid := by
  simp only [Daemon.zombies, mem_zombie_pids, hc]
  exact zombie_filter_ne

theorem reapChild_children (d : Daemon) (pid : Nat) :
    (reapChild d pid).children = d.children.filter (·.pid ≠ pid) := by
  unfold reapChild
  dsimp only
  split <;> rfl

/-- A logon leaves the zombies alone. -/
theorem logon_zombies (db : AccountDb) (d : Daemon) (identity : Identity) (r : LogonTurn) :
    (onPeerLogon db d identity r).2.zombies = d.zombies := by
  rcases logon_registry db d identity r with ⟨_, _, hsame⟩ | ⟨_, _, auth, _, _, _, hget, _⟩
  · rw [hsame]
  · have hstep := sessionMgrGetSession_step db.names d auth r.fork
    rw [hget] at hstep
    generalize logonSession db d identity r = entry at hstep
    generalize (onPeerLogon db d identity r).2 = d' at hstep
    cases hstep with
    | unknown => rfl
    | found => rfl
    | full => rfl
    | failed _ _ _ hf => exact @zombies_congr d (Daemon.clear _ _) hf.failed.2
    | forked _ _ _ hf =>
      cases hf with
      | forked => rfl

/-! ### Whole runs -/

/-- The daemon has not begun to wait for its workers to go. -/
def DaemonPc.serving : DaemonPc → Bool
  | .joining _ | .done => false
  | _ => true

/-- While the daemon serves, its entries have their workers. -/
def DaemonProcess.Inv (s : DaemonProcess) : Prop := s.pc.serving = true → WorkersInv s.daemon

theorem DaemonProcess.Inv.start :
    (DaemonProcess.start (sessionMgrInit desktop cert key width height) fds).Inv :=
  fun _ => .start fds

/-- The events that leave the workers alone. -/
def DaemonInput.quiet : DaemonInput → Bool
  | .workerExits _ | .waitpid (some _) | .peerLogon _ _ => false
  | _ => true

/-- What a step does to the registry and to the children. -/
inductive DaemonMove (db : AccountDb) (s : DaemonProcess) : DaemonInput → DaemonProcess → Prop
  | kept (hq : e.quiet = true) (hp : s'.pc.serving = true → s.pc.serving = true)
      (hm : s'.daemon.mgr = s.daemon.mgr) (hc : s'.daemon.children = s.daemon.children) :
      DaemonMove db s e s'
  | joined (hq : e.quiet = true) (hp : s'.pc.serving = false) : DaemonMove db s e s'
  | exited (pid : Nat) (he : s.daemon.admits (.workerExited pid) = true) (hp : s'.pc = s.pc)
      (hd : s'.daemon = s.daemon.step db.names (.workerExited pid)) :
      DaemonMove db s (.workerExits pid) s'
  | reaped (pid : Nat) (hp : s'.pc = s.pc) (hd : s'.daemon = reapChild s.daemon pid) :
      DaemonMove db s (.waitpid (some pid)) s'
  | logon (identity : Identity) (r : LogonTurn) (hp : s'.pc = s.pc)
      (he : s.daemon.admits (.getSession (.basic 0) r.fork) = true)
      (hd : s'.daemon = (onPeerLogon db s.daemon identity r).2) :
      DaemonMove db s (.peerLogon identity r) s'

/-- The children are waited for one by one only when the daemon has stopped serving. -/
theorem daemonMove_step {s : DaemonProcess} (he : s.admits e = true) :
    DaemonMove db s e (s.step db e) := by
  cases e with
  | workerExits pid => exact .exited pid he rfl rfl
  | sigchld => exact .kept rfl id rfl rfl
  | sigterm => exact .kept rfl id rfl rfl
  | loopTest =>
    have hserving : s.pc.serving = true := by
      rw [of_decide_eq_true he]
      rfl
    simp only [DaemonProcess.step]
    split
    · exact .kept rfl (fun _ => hserving) rfl rfl
    · split <;> exact .kept rfl (fun _ => hserving) rfl rfl
  | waitpid pid =>
    cases pid with
    | none =>
      have hpc : s.pc = .reaping := of_decide_eq_true (Bool.and_eq_true_iff.1 he).1
      exact .kept rfl (fun _ => congrArg DaemonPc.serving hpc) rfl rfl
    | some pid => exact .reaped pid rfl rfl
  | clearFlag =>
    have hserving : s.pc.serving = true := by
      rw [of_decide_eq_true he]
      rfl
    exact .kept rfl (fun _ => hserving) rfl rfl
  | epollWait r =>
    have hserving : s.pc.serving = true := by
      rw [of_decide_eq_true he]
      rfl
    cases r <;> exact .kept rfl (fun _ => hserving) rfl rfl
  | peerAccepted peerFd =>
    simp only [DaemonProcess.step]
    split
    · next hpc => exact .kept rfl (fun _ => by rw [hpc]; rfl) rfl rfl
    · exact .kept rfl id rfl rfl
  | listenerChecked ok =>
    simp only [DaemonProcess.step]
    split
    · next hpc => exact .kept rfl (fun _ => by rw [hpc]; rfl) rfl rfl
    · exact .kept rfl id rfl rfl
  | peerLogon identity r =>
    simp only [DaemonProcess.admits] at he
    split at he
    · next hpc =>
      simp only [DaemonProcess.step, hpc]
      exact .logon identity r rfl he rfl
    · cases he
  | peerChecked connected =>
    simp only [DaemonProcess.step]
    split
    · next hpc =>
      split
      · exact .kept rfl id rfl rfl
      · exact .kept rfl (fun _ => by rw [hpc]; rfl) rfl rfl
    · exact .kept rfl id rfl rfl
  | stopSession =>
    simp only [DaemonProcess.step]
    split
    · next hpc =>
      simp only [DaemonProcess.stop]
      split <;> exact .kept rfl (fun _ => by rw [hpc]; rfl) rfl rfl
    · exact .joined rfl rfl
    · exact .kept rfl id rfl rfl
  | joinSession interrupted =>
    simp only [DaemonProcess.step]
    split
    · simp only [DaemonProcess.join]
      split <;> exact .joined rfl rfl
    · exact .joined rfl rfl
    · exact .kept rfl id rfl rfl

theorem DaemonProcess.Inv.step {s : DaemonProcess} (h : s.Inv) (he : s.admits e = true) :
    (s.step db e).Inv := by
  intro hs
  have hmove : DaemonMove db s e (s.step db e) := daemonMove_step he
  generalize s.step db e = s' at hmove hs ⊢
  cases hmove with
  | kept _ hp hm hc => exact (h (hp hs)).congr hm hc
  | joined _ hp => cases hp.symm.trans hs
  | exited pid _ hp hd =>
    rw [hp] at hs
    rw [hd]
    exact (h hs).exited db.names pid
  | reaped pid hp hd =>
    rw [hp] at hs
    rw [hd]
    exact (h hs).reaped pid
  | logon identity r hp hlogon hd =>
    rw [hp] at hs
    rw [hd]
    exact (h hs).logon hlogon

end Wlrdp
