import Wlrdp.TreeInvariants

namespace Wlrdp
set_option autoImplicit true

variable {db : AccountDb} {s : ProcessTree} {pid : Nat} {w : WorkerProcess}

/-! ### What is left behind -/

/-- The slots whose workers `session_mgr_destroy` has yet to wait for. -/
def DaemonPc.unjoined : DaemonPc → List (Fin maxSessions)
  | .joining slots => slots
  | .done => []
  | _ => allSlots

/-- Once the daemon closes, it has yet to wait for every child that it has. -/
def DaemonProcess.Joining (s : DaemonProcess) : Prop :=
  s.pc.closing = true → ∀ c ∈ s.daemon.children, s.Among s.pc.unjoined c.pid

/-- No signal interrupts a `waitpid` of `session_mgr_destroy`. -/
def TreeInput.joinsUninterrupted : TreeInput → Bool
  | .daemon (.joinSession interrupted) => !interrupted
  | _ => true

theorem among_exit {s : DaemonProcess} (h : ∀ c ∈ s.daemon.children, s.Among slots c.pid)
    (db : AccountDb) (pid : Nat) : ∀ c ∈ (s.step db (.workerExits pid)).daemon.children,
      (s.step db (.workerExits pid)).Among slots c.pid := by
  intro c hmem
  obtain ⟨c₀, hmem₀, rfl⟩ := List.mem_map.1 hmem
  have hold := h c₀ hmem₀
  split <;> exact hold

/-- A worker that the daemon has waited for is gone, and the entries of the others are left. -/
theorem among_joined {s : DaemonProcess} (h : s.Among (i :: slots) pid)
    (hne : (s.daemon.mgr.sessions i).active = true → (s.daemon.mgr.sessions i).pid ≠ pid) :
    s.Among slots pid := by
  obtain ⟨j, hj, hactive, hpid⟩ := h
  rcases List.mem_cons.1 hj with rfl | hj
  · exact absurd hpid (hne hactive)
  · exact ⟨j, hj, hactive, hpid⟩

theorem joining_step {s : DaemonProcess} (h : s.Joining)
    (hr : s.pc.serving = true → s.daemon.Registered) (he : s.admits e = true)
    (hj : e ≠ .joinSession true) : (s.step db e).Joining := by
  intro hclosing
  cases hbefore : s.pc.closing with
  | false =>
    intro c hmem
    obtain ⟨hserving, hpc, hsame, _⟩ := closing_begins db hbefore he hclosing
    rw [hsame] at hmem
    rw [hpc, DaemonProcess.Among, hsame]
    obtain ⟨i, hi, hpid⟩ := hr hserving c hmem
    exact ⟨i, List.mem_finRange i, hi, hpid⟩
  | true =>
    have hold := h hbefore
    cases hx : e.isExit with
    | true =>
      cases e with
      | workerExits pid => exact among_exit hold db pid
      | _ => cases hx
    | false =>
      rcases closing_cases hbefore he hx with rfl | rfl | ⟨⟨slots, hpc⟩, rfl⟩ | ⟨interrupted, rfl⟩
      · exact hold
      · exact hold
      · rw [hpc] at hold
        simp only [DaemonProcess.step, hpc]
        cases slots with
        | nil => exact hold
        | cons i slots =>
          simp only [DaemonProcess.stop]
          split <;> exact hold
      · cases interrupted with
        | true => exact absurd rfl hj
        | false =>
          obtain ⟨slots, hpc⟩ := joinSession_pc he
          rw [hpc] at hold
          simp only [DaemonProcess.step, hpc]
          cases slots with
          | nil =>
            intro c hmem
            obtain ⟨i, hi, _⟩ := hold c hmem
            exact absurd hi List.not_mem_nil
          | cons i slots =>
            simp only [DaemonProcess.join, Bool.not_false, Bool.and_true]
            split
            · intro c hmem
              obtain ⟨hmem, hne⟩ := List.mem_filter.1 hmem
              exact among_joined (hold c hmem) fun _ hpid => of_decide_eq_true hne hpid.symm
            · next hidle =>
              intro c hmem
              exact among_joined (hold c hmem) fun hactive => absurd hactive hidle

/-- What a worker that is gone left behind, or would leave. -/
def WorkerProcess.Tidy : WorkerProcess → Prop
  | .serving p => p.Clean
  | .gone orphans => orphans = []
  | _ => True

/-- A worker that has a main function ends at the end of it, and no signal interrupts its last
`waitpid`. -/
def ProcessTree.endsOrderly (s : ProcessTree) : TreeInput → Bool
  | .worker _ (.join interrupted) => !interrupted
  | .exits pid =>
    match s.workers pid with
    | .serving p => p.pc = .done
    | _ => true
  | _ => true

theorem tidy_start (mgr : SessionMgr) (fds : DescriptorTable FileObject) :
    ∀ q, ((ProcessTree.start mgr fds).workers q).Tidy := fun _ => rfl

theorem tidy_leaves (h : w.Tidy) (he : ∀ p, w = .serving p → p.pc = .done) : w.leaves = [] := by
  cases w with
  | serving p =>
    have hchildless := h.childless (he p rfl)
    rw [WorkerProcess.leaves, SessionProcess.unreaped, hchildless, List.map_nil]
  | _ => rfl

theorem tidy_set (h : ∀ q, (s.workers q).Tidy) (hw : w.Tidy) (q : Nat) :
    (Function.update s.workers pid w q).Tidy := by
  by_cases hq : q = pid
  · rw [hq, Function.update_self]
    exact hw
  · rw [Function.update_of_ne hq]
    exact h q

theorem tidy_step (h : ∀ q, (s.workers q).Tidy) {e : TreeInput} (he : s.admits e = true)
    (ho : s.endsOrderly e = true) : ∀ q, ((s.step db e).workers q).Tidy := by
  cases e with
  | daemon e =>
    intro q
    change (s.told db e q).Tidy
    have hq := h q
    rw [ProcessTree.told]
    split
    · cases hw : s.workers q with
      | serving p =>
        rw [hw] at hq
        exact SessionProcess.Clean.step (e := .sigterm) hq rfl SessionInput.noConfusion
      | gone orphans =>
        rw [hw] at hq
        exact hq
      | _ => trivial
    · split
      · trivial
      · exact hq
  | exec pid => exact tidy_set h trivial
  | sigaction pid => exact tidy_set h .start
  | worker pid e =>
    simp only [ProcessTree.admits] at he
    simp only [ProcessTree.step]
    split
    · next p hp =>
      rw [hp] at he
      have hclean := h pid
      rw [hp] at hclean
      refine tidy_set h (SessionProcess.Clean.step hclean he ?_)
      rintro rfl
      cases ho
    · exact h
  | exits pid =>
    apply tidy_set h
    apply tidy_leaves (h pid)
    intro p hp
    simp only [ProcessTree.endsOrderly, hp] at ho
    exact of_decide_eq_true ho

/-! ### The length of the shutdown -/

/-- The steps of the daemon itself. -/
def TreeInput.daemonOwn : TreeInput → Bool
  | .daemon .sigchld | .daemon .sigterm => false
  | .daemon _ => true
  | _ => false

/-- The steps of the worker of that pid. -/
def TreeInput.workerOwn (pid : Nat) : TreeInput → Bool
  | .exec q | .sigaction q | .exits q => q = pid
  | .worker q e => q = pid && e.own
  | .daemon _ => false

/-- The steps that `session_mgr_destroy` still takes. -/
def DaemonPc.remaining : DaemonPc → Nat
  | .stopping slots => slots.length + 1 + (maxSessions + 1)
  | .joining slots => slots.length + 1
  | _ => 0

/-- The steps that a worker that was told still takes. -/
def WorkerProcess.remaining : WorkerProcess → Nat
  | .serving p => p.remaining + 1
  | .killed => 1
  | _ => 0

theorem WorkerProcess.remaining_le (w : WorkerProcess) : w.remaining ≤ 30 := by
  cases w with
  | serving p => exact Nat.succ_le_succ p.remaining_le
  | killed => exact Nat.le_add_left 1 29
  | _ => exact Nat.zero_le _

theorem closing_tree_step (h : s.daemon.pc.closing = true) {e : TreeInput}
    (he : s.admits e = true) : (s.step db e).daemon.pc.closing = true ∧
      (s.step db e).daemon.pc.remaining + (if e.daemonOwn then 1 else 0) ≤
        s.daemon.pc.remaining := by
  cases e with
  | daemon e =>
    obtain ⟨hx, hadmits⟩ := Bool.and_eq_true_iff.1 he
    rw [Bool.not_eq_true'] at hx
    refine ⟨closing_step h hadmits hx, ?_⟩
    change (s.daemon.step db e).pc.remaining + _ ≤ _
    rcases closing_cases h hadmits hx with rfl | rfl | ⟨⟨slots, hpc⟩, rfl⟩ | ⟨interrupted, rfl⟩
    · exact Nat.le_refl _
    · exact Nat.le_refl _
    · cases slots with
      | nil =>
        simp only [DaemonProcess.step, hpc]
        exact Nat.le_refl _
      | cons i slots =>
        rw [(stopSession_step db hpc).1, hpc]
        simp only [DaemonPc.remaining, TreeInput.daemonOwn, List.length_cons, if_true]
        omega
    · obtain ⟨slots, hpc⟩ := joinSession_pc hadmits
      cases slots with
      | nil =>
        simp only [DaemonProcess.step, hpc]
        exact Nat.le_refl _
      | cons i slots =>
        simp only [DaemonProcess.step, hpc, DaemonProcess.join]
        split <;> exact Nat.le_refl _
  | exec | sigaction => exact ⟨h, Nat.le_refl _⟩
  | exits => exact ⟨h, Nat.le_refl _⟩
  | worker pid e =>
    have hsame : (s.step db (.worker pid e)).daemon = s.daemon := by
      simp only [ProcessTree.step]
      split <;> rfl
    rw [hsame]
    exact ⟨h, Nat.le_refl _⟩

theorem terminate_remaining (w : WorkerProcess) (h : w.Told) :
    w.terminate.remaining ≤ w.remaining := by
  cases w with
  | serving p => exact Nat.succ_le_succ (winding_step (e := .sigterm) h rfl).2
  | booting => exact h.elim
  | _ => exact Nat.le_refl _

/-- When the daemon closes, the worker of a pid stays the same one, and every step of its own
brings it nearer to its end. -/
theorem told_tree_step (hc : s.daemon.pc.closing = true) (h : (s.workers pid).Told)
    {e : TreeInput} (he : s.admits e = true) : ((s.step db e).workers pid).Told ∧
      ((s.step db e).workers pid).remaining + (if e.workerOwn pid then 1 else 0) ≤
        (s.workers pid).remaining := by
  have hother {q : Nat} {w : WorkerProcess} {own : Bool} (hq : q ≠ pid) (hown : own = false) :
      (Function.update s.workers q w pid).Told ∧
        (Function.update s.workers q w pid).remaining + (if own then 1 else 0) ≤
          (s.workers pid).remaining := by
    rw [Function.update_of_ne hq.symm, hown]
    exact ⟨h, Nat.le_refl _⟩
  cases e with
  | daemon e =>
    obtain ⟨hx, hadmits⟩ := Bool.and_eq_true_iff.1 he
    rw [Bool.not_eq_true'] at hx
    have hforks := closing_forks db hc hadmits hx pid
    change (s.told db e pid).Told ∧ (s.told db e pid).remaining ≤ _
    rw [ProcessTree.told, hforks]
    split
    · exact ⟨h.terminate, terminate_remaining _ h⟩
    · exact ⟨h, Nat.le_refl _⟩
  | exec q =>
    by_cases hq : q = pid
    · subst hq
      rw [of_decide_eq_true he] at h
      exact h.elim
    · exact hother hq (decide_eq_false hq)
  | sigaction q =>
    by_cases hq : q = pid
    · subst hq
      rw [of_decide_eq_true he] at h
      exact h.elim
    · exact hother hq (decide_eq_false hq)
  | worker q e =>
    simp only [ProcessTree.admits] at he
    simp only [ProcessTree.step]
    split
    · next p hp =>
      by_cases hq : q = pid
      · subst hq
        rw [hp] at he h
        obtain ⟨htold, hle⟩ := winding_step h he
        rw [set_self, hp]
        refine ⟨htold, ?_⟩
        simp only [WorkerProcess.remaining, TreeInput.workerOwn, decide_true, Bool.true_and]
        omega
      · apply hother hq
        rw [TreeInput.workerOwn, decide_eq_false hq, Bool.false_and]
    · next hp =>
      split at he
      · next p hp' => exact absurd hp' (hp p)
      · cases he
  | exits q =>
    by_cases hq : q = pid
    · subst hq
      refine ⟨?_, ?_⟩
      · change (Function.update s.workers q _ q).Told
        rw [Function.update_self]
        trivial
      · change (Function.update s.workers q _ q).remaining + _ ≤ _
        rw [Function.update_self]
        simp only [TreeInput.workerOwn, decide_true, if_true]
        change 1 ≤ _
        have ha : (s.workers q).alive = true := he
        cases hw : s.workers q with
        | forked | booting =>
          rw [hw] at h
          exact h.elim
        | serving p => exact Nat.succ_pos _
        | killed => exact Nat.le_refl 1
        | gone =>
          rw [hw] at ha
          cases ha
    · exact hother hq (decide_eq_false hq)

/-! ### Progress -/

/-- The worker has sent `SIGKILL` to its compositor, which has not exited yet. -/
def WorkerProcess.awaitsKilled : WorkerProcess → Prop
  | .serving p => p.awaitsKilled
  | _ => False

/-- A worker that was told never waits for anything but a compositor that it has killed. -/
theorem told_progress (h : (s.workers pid).Told) (ha : (s.workers pid).alive = true) :
    (∃ e, e.workerOwn pid = true ∧ s.endsOrderly e = true ∧ s.admits e = true) ∨
      (s.workers pid).awaitsKilled := by
  have hexits (hw : ∀ p, s.workers pid = .serving p → p.pc = .done) :
      ∃ e : TreeInput, e.workerOwn pid = true ∧ s.endsOrderly e = true ∧ s.admits e = true := by
    refine ⟨.exits pid, decide_eq_true rfl, ?_, ha⟩
    simp only [ProcessTree.endsOrderly]
    split
    · next p hp => exact decide_eq_true (hw p hp)
    · rfl
  cases hw : s.workers pid with
  | serving p =>
    by_cases hdone : p.pc = .done
    · left
      apply hexits
      intro p' hp'
      rw [hw] at hp'
      cases hp'
      exact hdone
    · rw [hw] at h
      rcases winding_progress h hdone with ⟨e, hown, hjoin, he⟩ | hkilled
      · refine .inl ⟨.worker pid e, ?_, ?_, ?_⟩
        · rw [TreeInput.workerOwn, hown, decide_eq_true rfl, Bool.and_self]
        · cases e with
          | join interrupted =>
            cases interrupted with
            | true => exact absurd rfl hjoin
            | false => rfl
          | _ => rfl
        · simp only [ProcessTree.admits, hw]
          exact he
      · exact .inr hkilled
  | _ =>
    left
    apply hexits
    intro p hp
    rw [hw] at hp
    cases hp

/-- The daemon waits for the exit of that worker. -/
def DaemonProcess.awaits (s : DaemonProcess) (pid : Nat) : Prop :=
  ∃ i slots, s.pc = .joining (i :: slots) ∧ (s.daemon.mgr.sessions i).active = true ∧
    (s.daemon.mgr.sessions i).pid = pid

/-- In `session_mgr_destroy` the daemon never waits for anything but a worker. -/
theorem closing_progress (h : s.Inv) (hc : s.daemon.pc.closing = true)
    (hdone : s.daemon.pc ≠ .done) :
    (∃ e, e.daemonOwn = true ∧ e.joinsUninterrupted = true ∧ s.admits e = true) ∨
      ∃ pid, s.daemon.awaits pid ∧ (s.workers pid).alive = true := by
  cases hpc : s.daemon.pc with
  | stopping slots =>
    refine .inl ⟨.daemon .stopSession, rfl, rfl, ?_⟩
    simp only [ProcessTree.admits, DaemonProcess.admits, hpc]
    rfl
  | joining slots =>
    cases slots with
    | nil =>
      refine .inl ⟨.daemon (.joinSession false), rfl, rfl, ?_⟩
      simp only [ProcessTree.admits, DaemonProcess.admits, hpc]
      rfl
    | cons i slots =>
      cases hj : DaemonProcess.joins s.daemon.daemon (s.daemon.daemon.mgr.sessions i) with
      | true =>
        refine .inl ⟨.daemon (.joinSession false), rfl, rfl, ?_⟩
        simp only [ProcessTree.admits, DaemonProcess.admits, hpc, hj]
        rfl
      | false =>
        simp only [DaemonProcess.joins, Bool.or_eq_false_iff, Bool.not_eq_false',
          decide_eq_false_iff_not, List.all_eq_false, decide_eq_true_eq, not_not] at hj
        obtain ⟨⟨hactive, hzombie⟩, c, hmem, hpid⟩ := hj
        refine .inr ⟨_, ⟨i, slots, hpc, hactive, rfl⟩, (h.alive _).2 ⟨c, hmem, hpid, ?_⟩⟩
        by_contra hexited
        rw [Bool.not_eq_false] at hexited
        apply hzombie
        rw [← hpid]
        exact List.mem_map_of_mem (List.mem_filter.2 ⟨hmem, hexited⟩)
  | done => exact absurd hpc hdone
  | _ =>
    rw [hpc] at hc
    cases hc

/-! ### Whole runs -/

theorem told_of_telling (h : s.Telling) (hc : s.daemon.pc.closing = true)
    (hu : s.daemon.pc.untold = []) (ha : (s.workers pid).alive = true) : (s.workers pid).Told := by
  have htold := h hc pid ha
  rw [hu] at htold
  exact htold.resolve_right (DaemonProcess.not_among_nil _ pid)

/-- A daemon that has waited for all its children has none left. -/
theorem not_alive_of_joined (h : s.Inv) (hj : s.daemon.Joining) (hdone : s.daemon.pc = .done)
    (pid : Nat) : (s.workers pid).alive = false := by
  by_contra ha
  rw [Bool.not_eq_false] at ha
  obtain ⟨c, hmem, _⟩ := (h.alive pid).1 ha
  have hclosing : s.daemon.pc.closing = true := by rw [hdone]; rfl
  obtain ⟨i, hi, _⟩ := hj hclosing c hmem
  rw [hdone] at hi
  exact List.not_mem_nil hi

theorem told_length (hc : s.daemon.pc.closing = true) (h : (s.workers pid).Told)
    (hl : (processTree db).Legal s gs) : (gs.filter (TreeInput.workerOwn pid)).length ≤ 30 := by
  have hlength := System.length_filter_add_measure_le (S := processTree db)
    (I := fun s => s.daemon.pc.closing = true ∧ (s.workers pid).Told) (TreeInput.workerOwn pid)
    (fun s => (s.workers pid).remaining)
    (fun _ _ h he => ⟨(closing_tree_step h.1 he).1, (told_tree_step h.1 h.2 he).1⟩)
    (fun _ _ h he => (told_tree_step h.1 h.2 he).2) ⟨hc, h⟩ hl
  exact Nat.le_trans (Nat.le_of_add_right_le hlength) (WorkerProcess.remaining_le _)

theorem joining_tree_step (hinv : s.Inv) (h : s.daemon.Joining) {e : TreeInput}
    (he : s.admits e = true) (hj : e.joinsUninterrupted = true) :
    (s.step db e).daemon.Joining := by
  cases e with
  | daemon e =>
    obtain ⟨_, hadmits⟩ := Bool.and_eq_true_iff.1 he
    apply joining_step h hinv.registered hadmits
    rintro rfl
    cases hj
  | exec | sigaction => exact h
  | worker pid e =>
    have hsame : (s.step db (.worker pid e)).daemon = s.daemon := by
      simp only [ProcessTree.step]
      split <;> rfl
    rw [hsame]
    exact h
  | exits pid => exact fun hclosing => among_exit (h hclosing) db pid

/-- `session_mgr_destroy` ends what the daemon has started, whatever happens meanwhile, when it
tells no worker between its `fork` and its `execlp`: the daemon takes at most 102 steps and waits
only for workers; every worker takes at most 30 steps of its own once all are told, and waits only
for a compositor that it has killed; and at the end no worker is left and no compositor without its
worker, unless a signal interrupts a `waitpid` or a worker dies before the end of its main
function. -/
theorem tree_shutdown
    (hl : (processTree db).Legal (.start (sessionMgrInit desktop cert key width height) fds)
      (es ++ fs))
    (htold : (processTree db).Along (fun s e => s.tellsExecuted e = true)
      (.start (sessionMgrInit desktop cert key width height) fds) (es ++ fs))
    (hstop : ((processTree db).run (.start (sessionMgrInit desktop cert key width height) fds)
      es).daemon.pc = .stopping allSlots) :
    let s := (processTree db).run (.start (sessionMgrInit desktop cert key width height) fds)
      (es ++ fs)
    ((fs.filter TreeInput.daemonOwn).length ≤ 102 ∧ (s.daemon.pc ≠ .done →
        (∃ e, e.daemonOwn = true ∧ e.joinsUninterrupted = true ∧ (processTree db).enabled s e) ∨
          ∃ pid, s.daemon.awaits pid ∧ (s.workers pid).alive = true)) ∧
      (s.daemon.pc.untold = [] → ∀ pid, (s.workers pid).alive = true →
        ((∃ e, e.workerOwn pid = true ∧ s.endsOrderly e = true ∧ (processTree db).enabled s e) ∨
          (s.workers pid).awaitsKilled) ∧
        ∀ gs, (processTree db).Legal s gs →
          (gs.filter (TreeInput.workerOwn pid)).length ≤ 30) ∧
      (s.daemon.pc = .done →
        ((∀ e ∈ es ++ fs, e.joinsUninterrupted = true) → ∀ pid, (s.workers pid).alive = false) ∧
        ((processTree db).Along (fun s e => s.endsOrderly e = true)
            (.start (sessionMgrInit desktop cert key width height) fds) (es ++ fs) →
          ∀ pid orphans, s.workers pid = .gone orphans → orphans = [])) := by
  obtain ⟨_, hlfs⟩ := System.along_append.1 hl
  have hclosing : ((processTree db).run (.start (sessionMgrInit desktop cert key width height) fds)
      es).daemon.pc.closing = true := by
    rw [hstop]
    rfl
  have hlength := System.length_filter_add_measure_le (S := processTree db)
    (I := fun s => s.daemon.pc.closing = true) TreeInput.daemonOwn (fun s => s.daemon.pc.remaining)
    (fun _ _ h he => (closing_tree_step h he).1) (fun _ _ h he => (closing_tree_step h he).2)
    hclosing hlfs
  have hend := (System.always_of_legal (S := processTree db)
    (I := fun s => s.daemon.pc.closing = true) (fun _ _ h he => (closing_tree_step h he).1) hclosing
    hlfs).last
  rw [hstop] at hlength
  rw [← System.run_append] at hend
  have hinv := (System.always_of_legal (S := processTree db) (fun _ _ h he => h.step he)
    ProcessTree.Inv.start hl).last
  have htelling := (System.always_of_step (S := processTree db)
    (I := fun s => s.Inv ∧ s.Telling)
    (fun _ _ h he => ⟨h.1.step he.1, h.2.step h.1 he.1 he.2⟩)
    ⟨.start, fun hc => (by cases hc)⟩ (hl.and htold)).last.2
  refine ⟨⟨Nat.le_of_add_right_le hlength, closing_progress hinv hend⟩, ?_, ?_⟩
  · intro huntold pid ha
    have hworker := told_of_telling htelling hend huntold ha
    exact ⟨told_progress hworker ha, fun gs => told_length hend hworker⟩
  · intro hdone
    constructor
    · intro hcalm
      have hjoining := (System.always_of_step (S := processTree db)
        (I := fun s => s.Inv ∧ s.daemon.Joining)
        (fun _ _ h he => ⟨h.1.step he.1, joining_tree_step h.1 h.2 he.1 he.2⟩)
        ⟨.start, fun hc => (by cases hc)⟩
        (hl.and (System.along_of_forall hcalm))).last.2
      exact not_alive_of_joined hinv hjoining hdone
    · intro horderly pid orphans hgone
      have htidy := (System.always_of_step (S := processTree db)
        (I := fun s => ∀ q, (s.workers q).Tidy) (fun _ _ h he => tidy_step h he.1 he.2)
        (tidy_start _ fds) (hl.and horderly)).last pid
      rw [hgone] at htidy
      exact htidy

/-- A user has connected and left, and the daemon is told to stop. -/
def treeStops (worker : List TreeInput) : List TreeInput :=
  (visitOf 1 10 3 4 1).map .daemon ++ worker ++ [.daemon .sigterm, .daemon .loopTest]

/-- A worker begins its main loop. -/
def workerBegins : List TreeInput :=
  [.exec 1, .sigaction 1, .worker 1 (.fork (some 7)), .worker 1 (.displayReady true),
    .worker 1 (.initialized .entered)]

/-- `session_mgr_destroy`, with what happens between its two loops. -/
def treeDestroyed (worker : List TreeInput) : List TreeInput :=
  List.replicate 51 (.daemon .stopSession) ++ worker ++
    List.replicate 51 (.daemon (.joinSession false))

def workerEnds : List TreeInput :=
  [.worker 1 .loopTest, .worker 1 .peersFreed, .worker 1 .kill, .worker 1 (.childExits 7),
    .worker 1 (.poll (some 7)), .exits 1]

theorem tree_shutdown_served :
    let s := (processTree twoAccounts).run (.start (sessionMgrInit .empty .empty .empty 0 0) .empty)
      (treeStops workerBegins ++ treeDestroyed workerEnds)
    s.daemon.pc = .done ∧ ∀ pid, (s.workers pid).alive = false := by
  have hdone : ((processTree twoAccounts).run
      (.start (sessionMgrInit .empty .empty .empty 0 0) .empty)
      (treeStops workerBegins ++ treeDestroyed workerEnds)).daemon.pc = .done := by decide +kernel
  have hcalm : ∀ e ∈ treeStops workerBegins ++ treeDestroyed workerEnds,
      e.joinsUninterrupted = true := by decide +kernel
  exact ⟨hdone, ((tree_shutdown (by decide +kernel) (by decide +kernel)
    (by decide +kernel)).2.2 hdone).1 hcalm⟩

/-- A worker that is told before its `execlp` serves on, and the daemon waits for it. -/
example :
    let s := (processTree twoAccounts).run (.start (sessionMgrInit .empty .empty .empty 0 0) .empty)
      (treeStops [] ++ List.replicate 51 (.daemon .stopSession) ++ workerBegins)
    s.daemon.pc = .joining allSlots ∧ (s.workers 1).alive = true ∧
      s.admits (.daemon (.joinSession false)) = false := by decide +kernel

end Wlrdp
