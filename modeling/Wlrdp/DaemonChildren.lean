import Wlrdp.ChildExits
import Wlrdp.ProcessTrees
import Wlrdp.RegistryInvariants

namespace Wlrdp
set_option autoImplicit true

/-! ### The children of the daemon -/

variable {db : AccountDb} {d d' : Daemon} {s : DaemonProcess} {e : DaemonInput}

/-- What a step of the daemon does to its children: nothing, or it reaps what has exited, or it
forks one. -/
inductive ChildrenStep (children : List ChildProcess) : List ChildProcess → Prop
  | same : ChildrenStep children children
  | reaped (pid : Nat) (hexited : ∀ c ∈ children, c.pid = pid → c.exited = true) :
      ChildrenStep children (children.filter (·.pid ≠ pid))
  | forked (c : ChildProcess) (hfresh : ∀ c' ∈ children, c'.pid ≠ c.pid)
      (halive : c.exited = false) : ChildrenStep children (c :: children)

/-- Every child is the worker of an active entry. -/
def Daemon.Registered (d : Daemon) : Prop :=
  ∀ c ∈ d.children, ∃ i, (d.mgr.sessions i).active = true ∧ (d.mgr.sessions i).pid = c.pid

theorem ChildrenStep.of_eq {children children' : List ChildProcess} (h : children' = children) :
    ChildrenStep children children' := h ▸ .same

theorem ChildrenStep.nodup {cs cs' : List ChildProcess} (h : ChildrenStep cs cs')
    (hn : (cs.map (·.pid)).Nodup) : (cs'.map (·.pid)).Nodup := by
  cases h with
  | same => exact hn
  | reaped pid => exact hn.sublist (List.filter_sublist.map _)
  | forked c hfresh =>
    rw [List.map_cons, List.nodup_cons]
    refine ⟨fun hmem => ?_, hn⟩
    obtain ⟨c', hmem', hpid⟩ := List.mem_map.1 hmem
    exact hfresh c' hmem' hpid

theorem getSession_children (names : Passwd) (auth : AuthResult)
    (he : d.admits (.getSession auth r) = true) :
    ChildrenStep d.children (sessionMgrGetSession names d auth r).2.children := by
  have hstep := sessionMgrGetSession_step names d auth r
  generalize sessionMgrGetSession names d auth r = res at hstep
  cases hstep with
  | unknown | found | full => exact .same
  | failed _ _ _ hf => exact .of_eq hf.failed.2
  | forked _ _ _ hf =>
    cases hf with
    | forked _ _ _ _ hpid => exact .forked _ (admits_fork he hpid) rfl

/-- The entries of the children that stay do not change. -/
theorem Daemon.Registered.keep (h : d.Registered)
    (hc : ∀ c ∈ d'.children, ∃ c₀ ∈ d.children, c₀.pid = c.pid)
    (hs : ∀ c ∈ d'.children, ∀ i, (d.mgr.sessions i).active = true →
      (d.mgr.sessions i).pid = c.pid → d'.mgr.sessions i = d.mgr.sessions i) :
    d'.Registered := by
  intro c hmem
  obtain ⟨c₀, hmem₀, hpid₀⟩ := hc c hmem
  obtain ⟨i, hi, hpid⟩ := h c₀ hmem₀
  have hsame := hs c hmem i hi (hpid.trans hpid₀)
  exact ⟨i, hsame ▸ hi, hsame ▸ hpid.trans hpid₀⟩

theorem Daemon.Registered.congr (h : d.Registered) (hm : d'.mgr = d.mgr)
    (hc : d'.children = d.children) : d'.Registered :=
  h.keep (fun c hmem => ⟨c, hc ▸ hmem, rfl⟩) fun _ _ _ _ _ => by rw [hm]

theorem Daemon.Registered.exited (h : d.Registered) (names : Passwd) (pid : Nat) :
    (d.step names (.workerExited pid)).Registered := by
  apply h.keep
  · intro c hmem
    obtain ⟨c₀, hmem₀, rfl⟩ := List.mem_map.1 hmem
    refine ⟨c₀, hmem₀, ?_⟩
    split <;> rfl
  · intro _ _ _ _ _
    rfl

theorem Daemon.Registered.reaped (h : d.Registered) (pid : Nat) :
    (reapChild d pid).Registered := by
  have hstep := reapChild_step d pid
  generalize reapChild d pid = d' at hstep
  cases hstep with
  | stranger =>
    apply h.keep
    · intro c hmem
      exact ⟨c, List.mem_of_mem_filter hmem, rfl⟩
    · intro _ _ _ _ _
      rfl
  | worker i hi hpid =>
    apply h.keep
    · intro c hmem
      exact ⟨c, List.mem_of_mem_filter hmem, rfl⟩
    · intro c hmem j _ hj
      have hne : c.pid ≠ pid := of_decide_eq_true (List.mem_filter.1 hmem).2
      apply SessionMgr.sessions_setEntry_of_ne
      rintro rfl
      exact hne (hj.symm.trans hpid)

theorem Daemon.Registered.getSession (h : d.Registered) (names : Passwd) (auth : AuthResult) :
    (sessionMgrGetSession names d auth r).2.Registered := by
  have hstep := sessionMgrGetSession_step names d auth r
  generalize sessionMgrGetSession names d auth r = res at hstep
  cases hstep with
  | unknown | found | full => exact h
  | @failed _ i d' _ _ ha hf =>
    obtain ⟨hm, hc⟩ := hf.failed
    apply h.keep
    · intro c hmem
      have hmem : c ∈ d'.children := hmem
      exact ⟨c, hc ▸ hmem, rfl⟩
    · intro c _ j hj _
      have hji : j ≠ i := by
        rintro rfl
        rw [allocSlot_some ha] at hj
        cases hj
      change (d'.mgr.setEntry i .zero).sessions j = _
      rw [SessionMgr.sessions_setEntry_of_ne hji, hm]
      exact SessionMgr.sessions_setEntry_of_ne hji
  | @forked username i _ _ _ ha hf =>
    cases hf with
    | forked sv₀ sv₁ pid _ hpid =>
      have hentry := adopt_entries d i username auth sv₀ sv₁ pid r
      intro c hmem
      rcases List.mem_cons.1 hmem with rfl | hmem
      · refine ⟨i, ?_, ?_⟩
        · rw [hentry, if_pos rfl]
        · rw [hentry, if_pos rfl]
          rfl
      · obtain ⟨j, hj, hjpid⟩ := h c hmem
        have hji : j ≠ i := by
          rintro rfl
          rw [allocSlot_some ha] at hj
          cases hj
        refine ⟨j, ?_, ?_⟩
        · rw [hentry, if_neg hji]
          exact hj
        · rw [hentry, if_neg hji]
          exact hjpid

/-! ### The steps of the daemon -/

/-- The daemon is in `session_mgr_destroy`, or behind it. -/
def DaemonPc.closing : DaemonPc → Bool
  | .stopping _ | .joining _ | .done => true
  | _ => false

theorem logon_children (he : d.admits (.getSession auth r.fork) = true) (identity : Identity) :
    ChildrenStep d.children (onPeerLogon db d identity r).2.children := by
  rcases logon_registry db d identity r with ⟨_, _, hsame⟩ | ⟨_, _, auth', _, _, _, hget, _⟩
  · rw [hsame]
    exact .same
  · have hchildren := getSession_children db.names auth' he
    rw [hget] at hchildren
    exact hchildren

theorem Daemon.Registered.logon (h : d.Registered) (identity : Identity) (r : LogonTurn) :
    (onPeerLogon db d identity r).2.Registered := by
  rcases logon_registry db d identity r with ⟨_, _, hsame⟩ | ⟨_, _, auth, _, _, _, hget, _⟩
  · rw [hsame]
    exact h
  · have hregistered := h.getSession (r := r.fork) db.names auth
    rw [hget] at hregistered
    exact hregistered

/-- The steps that the daemon makes in `session_mgr_destroy`. -/
theorem closing_cases (h : s.pc.closing = true) (he : s.admits e = true) (hx : e.isExit = false) :
    e = .sigchld ∨ e = .sigterm ∨ (∃ slots, s.pc = .stopping slots) ∧ e = .stopSession ∨
      ∃ interrupted, e = .joinSession interrupted := by
  cases e with
  | sigchld => exact .inl rfl
  | sigterm => exact .inr (.inl rfl)
  | stopSession =>
    simp only [DaemonProcess.admits] at he
    split at he
    · next slots hpc => exact .inr (.inr (.inl ⟨⟨slots, hpc⟩, rfl⟩))
    · cases he
  | joinSession interrupted => exact .inr (.inr (.inr ⟨interrupted, rfl⟩))
  | workerExits => cases hx
  | waitpid pid =>
    cases pid <;>
    · have hpc := of_decide_eq_true (Bool.and_eq_true_iff.1 he).1
      rw [hpc] at h
      cases h
  | loopTest | clearFlag | epollWait =>
    have hpc := of_decide_eq_true he
    rw [hpc] at h
    cases h
  | _ =>
    simp only [DaemonProcess.admits] at he
    split at he
    · next hpc =>
      rw [hpc] at h
      cases h
    · cases he

theorem mem_zombies_of_pid (hn : (d.children.map (·.pid)).Nodup) (hz : pid ∈ d.zombies) :
    ∀ c ∈ d.children, c.pid = pid → c.exited = true := by
  intro c hmem hpid
  obtain ⟨c', hmem', hpid'⟩ := List.mem_map.1 hz
  obtain ⟨hmem', hexited⟩ := List.mem_filter.1 hmem'
  rw [List.inj_on_of_nodup_map hn hmem hmem' (hpid.trans hpid'.symm)]
  exact hexited

theorem joins_exited {entry : SessionEntry} (hn : (d.children.map (·.pid)).Nodup)
    (hj : DaemonProcess.joins d entry = true) (ha : entry.active = true) :
    ∀ c ∈ d.children, c.pid = entry.pid → c.exited = true := by
  simp only [DaemonProcess.joins, ha, Bool.not_true, Bool.false_or, Bool.or_eq_true,
    decide_eq_true_eq, List.all_eq_true] at hj
  rcases hj with hz | hnone
  · exact mem_zombies_of_pid hn hz
  · exact fun c hmem hpid => absurd hpid (hnone c hmem)

theorem daemon_children (db : AccountDb) (hn : (s.daemon.children.map (·.pid)).Nodup)
    (he : s.admits e = true) (hx : e.isExit = false) :
    ChildrenStep s.daemon.children (s.step db e).daemon.children := by
  cases e with
  | workerExits => cases hx
  | sigchld | sigterm | clearFlag => exact .same
  | loopTest =>
    simp only [DaemonProcess.step]
    split
    · exact .same
    · split <;> exact .same
  | waitpid pid =>
    cases pid with
    | none => exact .same
    | some pid =>
      have hz : pid ∈ s.daemon.zombies := of_decide_eq_true (Bool.and_eq_true_iff.1 he).2
      have hchildren := reapChild_children s.daemon pid
      change ChildrenStep _ (reapChild s.daemon pid).children
      rw [hchildren]
      exact .reaped pid (mem_zombies_of_pid hn hz)
  | epollWait r => cases r <;> exact .same
  | peerAccepted | listenerChecked =>
    simp only [DaemonProcess.step]
    split <;> exact .same
  | peerLogon identity r =>
    simp only [DaemonProcess.admits] at he
    simp only [DaemonProcess.step]
    split at he
    · exact logon_children he identity
    · cases he
  | peerChecked connected =>
    simp only [DaemonProcess.step]
    split
    · split <;> exact .same
    · exact .same
  | stopSession =>
    simp only [DaemonProcess.step]
    split
    · simp only [DaemonProcess.stop]
      split <;> exact .same
    · exact .same
    · exact .same
  | joinSession interrupted =>
    simp only [DaemonProcess.admits] at he
    simp only [DaemonProcess.step]
    split
    · next i slots hpc =>
      rw [hpc] at he
      simp only [DaemonProcess.join]
      split
      · next hjoined =>
        obtain ⟨ha, hnot⟩ := Bool.and_eq_true_iff.1 hjoined
        rw [Bool.not_eq_true'] at hnot
        rw [hnot] at he
        exact .reaped _ (joins_exited hn he ha)
      · exact .same
    · exact .same
    · exact .same

/-- Steps that touch neither the registry nor the children. -/
theorem registered_same {s' : DaemonProcess} (h : s.pc.serving = true → s.daemon.Registered)
    (hp : s'.pc.serving = true → s.pc.serving = true) (hm : s'.daemon.mgr = s.daemon.mgr)
    (hc : s'.daemon.children = s.daemon.children) :
    s'.pc.serving = true → s'.daemon.Registered :=
  fun hs => (h (hp hs)).congr hm hc

theorem registered_step (h : s.pc.serving = true → s.daemon.Registered) (he : s.admits e = true) :
    (s.step db e).pc.serving = true → (s.step db e).daemon.Registered := by
  cases e with
  | workerExits pid => exact fun hs => (h hs).exited db.names pid
  | sigchld => exact h
  | sigterm => exact h
  | loopTest =>
    have hserving : s.pc.serving = true := by rw [of_decide_eq_true he]; rfl
    simp only [DaemonProcess.step]
    split
    · exact registered_same h (fun _ => hserving) rfl rfl
    · split <;> exact registered_same h (fun _ => hserving) rfl rfl
  | waitpid pid =>
    cases pid with
    | none =>
      have hpc : s.pc = .reaping := of_decide_eq_true (Bool.and_eq_true_iff.1 he).1
      exact registered_same h (fun _ => congrArg DaemonPc.serving hpc) rfl rfl
    | some pid => exact fun hs => (h hs).reaped pid
  | clearFlag => exact registered_same h (fun _ => by rw [of_decide_eq_true he]; rfl) rfl rfl
  | epollWait r =>
    have hserving : s.pc.serving = true := by rw [of_decide_eq_true he]; rfl
    cases r <;> exact registered_same h (fun _ => hserving) rfl rfl
  | peerAccepted | listenerChecked =>
    simp only [DaemonProcess.step]
    split
    · next hpc => exact registered_same h (fun _ => by rw [hpc]; rfl) rfl rfl
    · exact h
  | peerLogon identity r =>
    simp only [DaemonProcess.step]
    split
    · exact fun hs => (h hs).logon identity r
    · exact h
  | peerChecked connected =>
    simp only [DaemonProcess.step]
    split
    · next hpc =>
      split
      · exact h
      · exact registered_same h (fun _ => by rw [hpc]; rfl) rfl rfl
    · exact h
  | stopSession =>
    simp only [DaemonProcess.step]
    split
    · next hpc =>
      simp only [DaemonProcess.stop]
      split <;> exact registered_same h (fun _ => by rw [hpc]; rfl) rfl rfl
    · exact fun hs => by cases hs
    · exact h
  | joinSession interrupted =>
    simp only [DaemonProcess.step]
    split
    · simp only [DaemonProcess.join]
      split <;> exact fun hs => by cases hs
    · exact fun hs => by cases hs
    · exact h

/-! ### `session_mgr_destroy` -/

theorem dispatchLoop_closing (nfds : Nat) : (dispatchLoop nfds).closing = false := by
  simp only [dispatchLoop]
  split <;> rfl

/-- The daemon begins to close with all slots before it. -/
theorem closing_begins (db : AccountDb) {s : DaemonProcess} (h : s.pc.closing = false)
    (he : s.admits e = true)
    (hc : (s.step db e).pc.closing = true) :
    s.pc.serving = true ∧ (s.step db e).pc = .stopping allSlots ∧
      (s.step db e).daemon = s.daemon ∧ s.kills e = none := by
  have hnot {pc : DaemonPc} (hpc : pc.closing = false) (hc : pc.closing = true) : False := by
    rw [hpc] at hc
    cases hc
  cases e with
  | workerExits | sigchld | sigterm => exact (hnot h hc).elim
  | loopTest =>
    have hserving : s.pc.serving = true := by rw [of_decide_eq_true he]; rfl
    simp only [DaemonProcess.step] at hc ⊢
    split
    · exact ⟨hserving, rfl, rfl, rfl⟩
    · next hrunning =>
      rw [if_neg hrunning] at hc
      split at hc <;> cases hc
  | waitpid pid =>
    cases pid with
    | none => cases hc
    | some pid => exact (hnot h hc).elim
  | clearFlag => cases hc
  | epollWait r =>
    have hserving : s.pc.serving = true := by rw [of_decide_eq_true he]; rfl
    cases r with
    | failed => exact ⟨hserving, rfl, rfl, rfl⟩
    | interrupted => cases hc
    | ready nfds => exact (hnot (dispatchLoop_closing nfds) hc).elim
  | peerAccepted | peerLogon =>
    simp only [DaemonProcess.step] at hc
    split at hc
    · first | cases hc | exact (hnot h hc).elim
    · exact (hnot h hc).elim
  | listenerChecked ok =>
    simp only [DaemonProcess.step] at hc
    split at hc
    · exact (hnot (dispatchLoop_closing _) hc).elim
    · exact (hnot h hc).elim
  | peerChecked connected =>
    simp only [DaemonProcess.step] at hc
    split at hc
    · split at hc
      · exact (hnot h hc).elim
      · cases hc
    · exact (hnot h hc).elim
  | stopSession =>
    simp only [DaemonProcess.admits] at he
    split at he
    · next hpc =>
      rw [hpc] at h
      cases h
    · cases he
  | joinSession interrupted =>
    simp only [DaemonProcess.admits] at he
    split at he
    · next hpc =>
      rw [hpc] at h
      cases h
    · next hpc =>
      rw [hpc] at h
      cases h
    · cases he

/-- In `session_mgr_destroy` the daemon forks nothing. -/
theorem closing_forks (db : AccountDb) {s : DaemonProcess} (h : s.pc.closing = true)
    (he : s.admits e = true)
    (hx : e.isExit = false) (pid : Nat) : s.forks db e pid = false := by
  have hsub : (s.step db e).daemon.children.Sublist s.daemon.children := by
    rcases closing_cases h he hx with rfl | rfl | ⟨_, rfl⟩ | ⟨interrupted, rfl⟩
    · exact .refl _
    · exact .refl _
    · simp only [DaemonProcess.step]
      split
      · simp only [DaemonProcess.stop]
        split <;> exact .refl _
      · exact .refl _
      · exact .refl _
    · simp only [DaemonProcess.step]
      split
      · simp only [DaemonProcess.join]
        split
        · exact List.filter_sublist
        · exact .refl _
      · exact .refl _
      · exact .refl _
  rw [DaemonProcess.forks, Bool.and_eq_false_imp, Bool.not_eq_false', List.any_eq_true,
    List.any_eq_true]
  rintro ⟨c, hmem, hpid⟩
  exact ⟨c, hsub.subset hmem, hpid⟩

theorem closing_step {s : DaemonProcess} (h : s.pc.closing = true) (he : s.admits e = true)
    (hx : e.isExit = false) : (s.step db e).pc.closing = true := by
  rcases closing_cases h he hx with rfl | rfl | ⟨_, rfl⟩ | ⟨interrupted, rfl⟩
  · exact h
  · exact h
  · simp only [DaemonProcess.step]
    split
    · simp only [DaemonProcess.stop]
      split <;> rfl
    · rfl
    · exact h
  · simp only [DaemonProcess.step]
    split
    · simp only [DaemonProcess.join]
      split <;> rfl
    · rfl
    · exact h

theorem joinSession_pc {s : DaemonProcess} (he : s.admits (.joinSession interrupted) = true) :
    ∃ slots, s.pc = .joining slots := by
  simp only [DaemonProcess.admits] at he
  split at he
  · next i slots hpc => exact ⟨i :: slots, hpc⟩
  · next hpc => exact ⟨[], hpc⟩
  · cases he

theorem stopSession_step {s : DaemonProcess} (db : AccountDb)
    (hpc : s.pc = .stopping (i :: slots)) :
    (s.step db .stopSession).pc = .stopping slots ∧
      (s.step db .stopSession).daemon.mgr = s.daemon.mgr := by
  simp only [DaemonProcess.step, hpc, DaemonProcess.stop]
  split <;> exact ⟨rfl, rfl⟩

end Wlrdp
