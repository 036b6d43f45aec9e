import Wlrdp.DaemonChildren
import Wlrdp.StopRequests

namespace Wlrdp
set_option autoImplicit true

variable {db : AccountDb} {s : ProcessTree} {pid : Nat} {w : WorkerProcess}

/-! ### The daemon and its workers -/

@[simp] theorem set_daemon (s : ProcessTree) (pid : Nat) (w : WorkerProcess) :
    (s.set pid w).daemon = s.daemon := rfl

@[simp] theorem set_self (s : ProcessTree) (pid : Nat) (w : WorkerProcess) :
    (s.set pid w).workers pid = w := Function.update_self ..

theorem set_of_ne {q : Nat} (h : q ≠ pid) : (s.set pid w).workers q = s.workers q :=
  Function.update_of_ne h ..

theorem terminate_alive (w : WorkerProcess) : w.terminate.alive = w.alive := by
  cases w <;> rfl

def WorkerProcess.Placed : WorkerProcess → Prop
  | .serving p => p.Placed
  | _ => True

theorem WorkerProcess.Placed.terminate (h : w.Placed) : w.terminate.Placed := by
  cases w with
  | serving p => exact SessionProcess.Placed.step (e := .sigterm) h rfl
  | _ => trivial

/-- The daemon has a child of that pid that has not exited. -/
def DaemonProcess.runs (s : DaemonProcess) (pid : Nat) : Prop :=
  ∃ c ∈ s.daemon.children, c.pid = pid ∧ c.exited = false

/-- The workers are the children of the daemon, and all are where they can be. -/
structure ProcessTree.Inv (s : ProcessTree) : Prop where
  nodup : (s.daemon.daemon.children.map (·.pid)).Nodup
  alive : ∀ pid, (s.workers pid).alive = true ↔ s.daemon.runs pid
  registered : s.daemon.pc.serving = true → s.daemon.daemon.Registered
  placed : ∀ pid, (s.workers pid).Placed

theorem ProcessTree.Inv.start :
    (ProcessTree.start (sessionMgrInit desktop cert key width height) fds).Inv := by
  constructor
  · exact List.nodup_nil
  · intro pid
    apply iff_of_false Bool.false_ne_true
    rintro ⟨c, hmem, _⟩
    exact List.not_mem_nil hmem
  · intro _ c hmem
    exact absurd hmem List.not_mem_nil
  · intro _
    trivial

/-- After a step of the daemon its children that run are those before and the one it forked. -/
theorem ChildrenStep.runs {s s' : DaemonProcess}
    (h : ChildrenStep s.daemon.children s'.daemon.children) (pid : Nat) :
    s'.runs pid ↔ s.runs pid ∨ (s'.daemon.children.any (·.pid = pid) &&
      !s.daemon.children.any (·.pid = pid)) = true := by
  have hany {cs : List ChildProcess} : cs.any (·.pid = pid) = true ↔ ∃ c ∈ cs, c.pid = pid := by
    simp only [List.any_eq_true, decide_eq_true_eq]
  rw [Bool.and_eq_true, Bool.not_eq_true', ← Bool.not_eq_true, hany, hany]
  simp only [DaemonProcess.runs]
  generalize s.daemon.children = cs at h ⊢
  generalize s'.daemon.children = cs' at h ⊢
  cases h with
  | same => exact ⟨.inl, fun h => h.elim id fun hnew => absurd hnew.1 hnew.2⟩
  | reaped q hexited =>
    constructor
    · rintro ⟨c, hmem, hc⟩
      exact .inl ⟨c, List.mem_of_mem_filter hmem, hc⟩
    · rintro (⟨c, hmem, hpid, hruns⟩ | ⟨⟨c, hmem, hpid⟩, hnone⟩)
      · refine ⟨c, List.mem_filter.2 ⟨hmem, decide_eq_true fun heq => ?_⟩, hpid, hruns⟩
        exact Bool.false_ne_true (hruns.symm.trans (hexited c hmem heq))
      · exact absurd ⟨c, List.mem_of_mem_filter hmem, hpid⟩ hnone
  | forked c hfresh hruns =>
    constructor
    · rintro ⟨c', hmem, hpid, hc⟩
      rcases List.mem_cons.1 hmem with rfl | hmem
      · right
        refine ⟨⟨c', List.mem_cons_self, hpid⟩, ?_⟩
        rintro ⟨c₀, hmem₀, hpid₀⟩
        exact hfresh c₀ hmem₀ (hpid₀.trans hpid.symm)
      · exact .inl ⟨c', hmem, hpid, hc⟩
    · rintro (⟨c', hmem, hc⟩ | ⟨⟨c', hmem, hpid⟩, hnone⟩)
      · exact ⟨c', List.mem_cons_of_mem _ hmem, hc⟩
      · rcases List.mem_cons.1 hmem with rfl | hmem
        · exact ⟨c', List.mem_cons_self, hpid, hruns⟩
        · exact absurd ⟨c', hmem, hpid⟩ hnone

/-- The daemon kills only in `session_mgr_destroy`, where it forks nothing. -/
theorem kills_forks {s : DaemonProcess} (h : s.kills e = some pid) :
    (∃ i slots, s.pc = .stopping (i :: slots) ∧ (s.daemon.mgr.sessions i).active = true ∧
      (s.daemon.mgr.sessions i).pid = pid) ∧ e = .stopSession ∧ s.forks db e pid = false := by
  cases e with
  | stopSession =>
    simp only [DaemonProcess.kills] at h
    split at h
    · next i slots hpc =>
      split at h
      · next ha =>
        refine ⟨⟨i, slots, hpc, ha, Option.some.inj h⟩, rfl, ?_⟩
        have hchildren : (s.step db .stopSession).daemon.children = s.daemon.children := by
          simp only [DaemonProcess.step, hpc, DaemonProcess.stop]
          split <;> rfl
        rw [DaemonProcess.forks, hchildren, Bool.and_not_self]
      · cases h
    · cases h
  | _ => cases h

theorem told_alive (db : AccountDb) (s : ProcessTree) (e : DaemonInput) (pid : Nat) :
    (s.told db e pid).alive = ((s.workers pid).alive || s.daemon.forks db e pid) := by
  rw [ProcessTree.told]
  split
  · next hkills =>
    rw [(kills_forks hkills).2.2, Bool.or_false]
    exact terminate_alive _
  · split
    · next hforks =>
      rw [hforks, Bool.or_true]
      rfl
    · next hforks => rw [Bool.eq_false_of_not_eq_true hforks, Bool.or_false]

theorem told_placed (h : ∀ pid, (s.workers pid).Placed) (e : DaemonInput) (pid : Nat) :
    (s.told db e pid).Placed := by
  rw [ProcessTree.told]
  split
  · exact (h pid).terminate
  · split
    · trivial
    · exact h pid

/-- A worker takes a step without the daemon. -/
theorem ProcessTree.Inv.set (h : s.Inv) (ha : w.alive = (s.workers pid).alive) (hp : w.Placed) :
    (s.set pid w).Inv := by
  refine ⟨h.nodup, fun q => ?_, h.registered, fun q => ?_⟩
  · by_cases hq : q = pid
    · rw [hq, set_self, ha]
      exact h.alive pid
    · rw [set_of_ne hq]
      exact h.alive q
  · by_cases hq : q = pid
    · rw [hq, set_self]
      exact hp
    · rw [set_of_ne hq]
      exact h.placed q

theorem workerExits_runs (db : AccountDb) (s : DaemonProcess) (q : Nat) :
    (s.step db (.workerExits pid)).runs q ↔ s.runs q ∧ q ≠ pid := by
  simp only [DaemonProcess.runs, DaemonProcess.step, Daemon.step, List.mem_map]
  constructor
  · rintro ⟨c', ⟨c, hmem, rfl⟩, hpid, hruns⟩
    by_cases hexits : c.pid = pid
    · rw [if_pos hexits] at hruns
      cases hruns
    · rw [if_neg hexits] at hpid hruns
      exact ⟨⟨c, hmem, hpid, hruns⟩, hpid ▸ hexits⟩
  · rintro ⟨⟨c, hmem, hpid, hruns⟩, hne⟩
    refine ⟨c, ⟨c, hmem, if_neg (hpid ▸ hne)⟩, hpid, hruns⟩

theorem ProcessTree.Inv.step (h : s.Inv) {e : TreeInput} (he : s.admits e = true) :
    (s.step db e).Inv := by
  cases e with
  | daemon e =>
    obtain ⟨hx, hadmits⟩ := Bool.and_eq_true_iff.1 he
    rw [Bool.not_eq_true'] at hx
    have hchildren := daemon_children db h.nodup hadmits hx
    refine ⟨hchildren.nodup h.nodup, fun pid => ?_, registered_step h.registered hadmits,
      told_placed h.placed e⟩
    change (s.told db e pid).alive = true ↔ _
    rw [told_alive, Bool.or_eq_true, h.alive]
    exact (hchildren.runs pid).symm
  | exec pid =>
    have hforked : s.workers pid = .forked := of_decide_eq_true he
    exact h.set (by rw [hforked]; rfl) trivial
  | sigaction pid =>
    have hbooting : s.workers pid = .booting := of_decide_eq_true he
    exact h.set (by rw [hbooting]; rfl) (.inr (Nat.succ_pos 3))
  | worker pid e =>
    simp only [ProcessTree.admits] at he
    simp only [ProcessTree.step]
    split
    · next p hp =>
      rw [hp] at he
      have hplaced := h.placed pid
      rw [hp] at hplaced
      exact h.set (by rw [hp]; rfl) (SessionProcess.Placed.step hplaced he)
    · exact h
  | exits pid =>
    constructor
    · change ((s.daemon.daemon.children.map fun c =>
        if c.pid = pid then { c with exited := true } else c).map (·.pid)).Nodup
      rw [List.map_map]
      have hsame : (ChildProcess.pid ∘ fun c : ChildProcess =>
          if c.pid = pid then { c with exited := true } else c) = ChildProcess.pid := by
        funext c
        simp only [Function.comp_apply]
        split <;> rfl
      rw [hsame]
      exact h.nodup
    · intro q
      change (((s.set pid _).workers q).alive = true) ↔ (s.daemon.step db (.workerExits pid)).runs q
      rw [workerExits_runs]
      by_cases hq : q = pid
      · rw [hq, set_self]
        exact iff_of_false Bool.false_ne_true fun h => h.2 rfl
      · rw [set_of_ne hq, h.alive q]
        exact ⟨fun hruns => ⟨hruns, hq⟩, And.left⟩
    · exact fun hs => (h.registered hs).exited db.names pid
    · intro q
      change ((s.set pid _).workers q).Placed
      by_cases hq : q = pid
      · rw [hq, set_self]
        trivial
      · rw [set_of_ne hq]
        exact h.placed q

/-! ### What the workers are told -/

/-- The worker has ended, or it will without being told once more. -/
def WorkerProcess.Told : WorkerProcess → Prop
  | .forked | .booting => False
  | .serving p => p.Winding
  | .killed | .gone _ => True

/-- The slots whose workers `session_mgr_destroy` has yet to tell. -/
def DaemonPc.untold : DaemonPc → List (Fin maxSessions)
  | .stopping slots => slots
  | _ => []

/-- The daemon tells no worker between its `fork` and its `execlp`. -/
def ProcessTree.tellsExecuted (s : ProcessTree) : TreeInput → Bool
  | .daemon e => (s.daemon.kills e).all fun pid => s.workers pid ≠ .forked
  | _ => true

/-- The entry of a worker is among these slots. -/
def DaemonProcess.Among (s : DaemonProcess) (slots : List (Fin maxSessions)) (pid : Nat) : Prop :=
  ∃ i ∈ slots, (s.daemon.mgr.sessions i).active = true ∧ (s.daemon.mgr.sessions i).pid = pid

theorem DaemonProcess.not_among_nil (s : DaemonProcess) (pid : Nat) : ¬ s.Among [] pid := by
  rintro ⟨_, hmem, _⟩
  exact List.not_mem_nil hmem

/-- Once the daemon closes, every worker is told or will be. -/
def ProcessTree.Telling (s : ProcessTree) : Prop :=
  s.daemon.pc.closing = true → ∀ pid, (s.workers pid).alive = true →
    (s.workers pid).Told ∨ s.daemon.Among s.daemon.pc.untold pid

theorem WorkerProcess.Placed.told (h : w.Placed) (hw : w ≠ .forked) : w.terminate.Told := by
  cases w with
  | forked => exact absurd rfl hw
  | serving p => exact SessionProcess.Placed.winding h
  | _ => trivial

theorem WorkerProcess.Told.terminate (h : w.Told) : w.terminate.Told := by
  cases w with
  | booting => exact h.elim
  | serving p => exact (winding_step (e := .sigterm) h rfl).1
  | _ => exact h

/-- A child that runs has an entry. -/
theorem ProcessTree.Inv.among (h : s.Inv) (hs : s.daemon.pc.serving = true)
    (ha : (s.workers pid).alive = true) : s.daemon.Among allSlots pid := by
  obtain ⟨c, hmem, hpid, _⟩ := (h.alive pid).1 ha
  obtain ⟨i, hi, hentry⟩ := h.registered hs c hmem
  exact ⟨i, List.mem_finRange i, hi, hentry.trans hpid⟩

/-- A worker that the step neither kills nor forks. -/
theorem told_same (hk : s.daemon.kills e = none) (hf : s.daemon.forks db e pid = false) :
    s.told db e pid = s.workers pid := by
  rw [ProcessTree.told, hk, if_neg (Option.some_ne_none _).symm, hf]
  rfl

theorem ProcessTree.Telling.daemon (h : s.Telling) (hinv : s.Inv) (hx : e.isExit = false)
    (he : s.daemon.admits e = true)
    (ht : (s.daemon.kills e).all (fun pid => s.workers pid ≠ .forked) = true) :
    (s.step db (.daemon e)).Telling := by
  intro hclosing pid ha
  change (s.told db e pid).alive = true at ha
  change (s.told db e pid).Told ∨ (s.daemon.step db e).Among (s.daemon.step db e).pc.untold pid
  cases hbefore : s.daemon.pc.closing with
  | false =>
    obtain ⟨hserving, hpc, hsame, hkills⟩ := closing_begins db hbefore he hclosing
    have hforks : s.daemon.forks db e pid = false := by
      rw [DaemonProcess.forks, hsame, Bool.and_not_self]
    rw [told_same hkills hforks] at ha
    right
    rw [hpc, DaemonProcess.Among, hsame]
    exact hinv.among hserving ha
  | true =>
    have hforks := closing_forks db hbefore he hx pid
    rw [told_alive, hforks, Bool.or_false] at ha
    have hold := h hbefore pid ha
    rcases closing_cases hbefore he hx with rfl | rfl | ⟨⟨slots, hpc⟩, rfl⟩ | ⟨interrupted, rfl⟩
    · rw [told_same rfl hforks]
      exact hold
    · rw [told_same rfl hforks]
      exact hold
    · cases slots with
      | nil =>
        have hkills : s.daemon.kills .stopSession = none := by
          simp only [DaemonProcess.kills, hpc]
        rw [told_same hkills hforks]
        rw [hpc] at hold
        left
        exact hold.resolve_right (DaemonProcess.not_among_nil _ pid)
      | cons i slots =>
        obtain ⟨hpc', hmgr⟩ := stopSession_step db hpc
        have hkills : s.daemon.kills .stopSession = if (s.daemon.daemon.mgr.sessions i).active then
            some (s.daemon.daemon.mgr.sessions i).pid else none := by
          simp only [DaemonProcess.kills, hpc]
        rw [hpc', DaemonProcess.Among, hmgr]
        rw [hpc] at hold
        rcases hold with htold | ⟨j, hj, hactive, hpid⟩
        · left
          rw [ProcessTree.told, hforks]
          split
          · exact htold.terminate
          · exact htold
        · rcases List.mem_cons.1 hj with rfl | hj
          · left
            rw [if_pos hactive, hpid] at hkills
            rw [hkills, Option.all_some, decide_eq_true_eq] at ht
            rw [ProcessTree.told, hkills, if_pos rfl]
            exact (hinv.placed pid).told ht
          · exact .inr ⟨j, hj, hactive, hpid⟩
    · obtain ⟨slots, hpc⟩ := joinSession_pc he
      rw [told_same rfl hforks]
      rw [hpc] at hold
      left
      exact hold.resolve_right (DaemonProcess.not_among_nil _ pid)

/-- A step of a worker leaves the others alone, and what was told stays told. -/
theorem ProcessTree.Telling.set (h : s.Telling) (ha : w.alive = (s.workers pid).alive)
    (hw : (s.workers pid).Told → w.Told) : (s.set pid w).Telling := by
  intro hclosing q hq
  change (Function.update s.workers pid w q).alive = true at hq
  by_cases hpid : q = pid
  · rw [hpid, Function.update_self, ha] at hq
    rw [hpid, set_self]
    exact (h hclosing pid hq).imp_left hw
  · rw [Function.update_of_ne hpid] at hq
    rw [set_of_ne hpid]
    exact h hclosing q hq

theorem ProcessTree.Telling.step (h : s.Telling) (hinv : s.Inv) {e : TreeInput}
    (he : s.admits e = true) (ht : s.tellsExecuted e = true) : (s.step db e).Telling := by
  cases e with
  | daemon e =>
    obtain ⟨hx, hadmits⟩ := Bool.and_eq_true_iff.1 he
    rw [Bool.not_eq_true'] at hx
    exact h.daemon hinv hx hadmits ht
  | exec pid =>
    have hforked : s.workers pid = .forked := of_decide_eq_true he
    exact h.set (by rw [hforked]; rfl) fun htold => by
      rw [hforked] at htold
      exact htold.elim
  | sigaction pid =>
    have hbooting : s.workers pid = .booting := of_decide_eq_true he
    exact h.set (by rw [hbooting]; rfl) fun htold => by
      rw [hbooting] at htold
      exact htold.elim
  | worker pid e =>
    simp only [ProcessTree.admits] at he
    simp only [ProcessTree.step]
    split
    · next p hp =>
      rw [hp] at he
      refine h.set (by rw [hp]; rfl) fun htold => ?_
      rw [hp] at htold
      exact (winding_step htold he).1
    · exact h
  | exits pid =>
    intro hclosing q hq
    change (Function.update s.workers pid (.gone (s.workers pid).leaves) q).alive = true at hq
    change (Function.update s.workers pid (.gone (s.workers pid).leaves) q).Told ∨ _
    by_cases hpid : q = pid
    · rw [hpid, Function.update_self] at hq
      cases hq
    · rw [Function.update_of_ne hpid] at hq ⊢
      exact h hclosing q hq

end Wlrdp
