import Wlrdp.KillTargets
import Wlrdp.StopRequests

namespace Wlrdp
set_option autoImplicit true

variable {s : SessionProcess} {e : SessionInput}

/-- The steps that the main function still takes up to `cleanup` once the compositor has exited. -/
def SessionPc.noticeLeft : SessionPc → Nat
  | .awaitingDisplay | .waiting => 4
  | .initializing | .dispatching => 3
  | .test => 2
  | .collecting => 1
  | _ => 0

/-- The compositor has exited, and the main function will notice. -/
structure SessionProcess.Noticing (s : SessionProcess) : Prop where
  exited : s.compPid ∈ s.zombies
  flag : s.childExited = true
  before : 0 < s.pc.noticeLeft

/-- The main function has noticed, or will. -/
def SessionProcess.Ending (s : SessionProcess) : Prop := s.stopping = true ∨ s.Noticing

def SessionProcess.endLeft (s : SessionProcess) : Nat :=
  if s.stopping then s.left else 24 + s.pc.noticeLeft

theorem noticing_not_stopping (h : 0 < s.pc.noticeLeft) : s.stopping = false := by
  rw [SessionProcess.stopping]
  cases hpc : s.pc <;> first | rfl | (rw [hpc] at h; cases h)

/-- Before the shutdown a step leads into it or nearer to it. -/
theorem noticing_step (h : s.Noticing) (hinv : s.Inv) (he : s.admits e = true) :
    (s.step e).stopping = true ∨ (s.step e).Noticing ∧
      (s.step e).pc.noticeLeft + (if e.own then 1 else 0) ≤ s.pc.noticeLeft := by
  have hat : s.pc.At e := SessionProcess.admits_pc he
  have hbefore := h.before
  have hbehind {l : SessionPc} (hl : l.noticeLeft = 0) (hpc : s.pc = l) : False := by
    rw [hpc, hl] at hbefore
    exact Nat.lt_irrefl 0 hbefore
  cases e with
  | childExits pid =>
    have hexited := (SessionProcess.mem_zombies_exited he).2 (.inr h.exited)
    exact .inr ⟨⟨hexited, rfl, hbefore⟩, Nat.le_refl _⟩
  | sigchld => exact .inr ⟨⟨h.exited, rfl, hbefore⟩, Nat.le_refl _⟩
  | sigterm => exact .inr ⟨⟨h.exited, h.flag, hbefore⟩, Nat.le_refl _⟩
  | displayReady ok =>
    cases ok with
    | false => exact .inl (destroy_left s).1
    | true =>
      have hpc : s.pc.noticeLeft = 4 := congrArg SessionPc.noticeLeft hat
      rw [hpc]
      exact .inr ⟨⟨h.exited, h.flag, Nat.succ_pos 2⟩, Nat.le_refl 4⟩
  | initialized r =>
    cases r with
    | returned => exact .inl (destroy_left s).1
    | cleanedUp => exact .inl rfl
    | entered =>
      have hpc : s.pc.noticeLeft = 3 := congrArg SessionPc.noticeLeft hat
      rw [hpc]
      exact .inr ⟨⟨h.exited, h.flag, Nat.succ_pos 1⟩, Nat.le_refl 3⟩
  | loopTest =>
    have hpc : s.pc.noticeLeft = 2 := congrArg SessionPc.noticeLeft hat
    rw [hpc]
    simp only [SessionProcess.step, h.flag, if_true]
    split
    · exact .inl rfl
    · exact .inr ⟨⟨h.exited, rfl, Nat.succ_pos 0⟩, Nat.le_refl 2⟩
  | waitpid pid =>
    cases pid with
    | none =>
      have hnone : s.zombies = [] := of_decide_eq_true (Bool.and_eq_true_iff.1 he).2
      have hexited := h.exited
      rw [hnone] at hexited
      cases hexited
    | some pid =>
      left
      have hz : pid ∈ s.zombies := of_decide_eq_true (Bool.and_eq_true_iff.1 he).2
      have hdone : s.pc ≠ .done := by
        rw [hat]
        exact SessionPc.noConfusion
      simp only [SessionProcess.step, if_pos (hinv.zombie hdone hz)]
      rfl
  | epollWait failed =>
    cases failed with
    | true => exact .inl rfl
    | false =>
      have hpc : s.pc.noticeLeft = 4 := congrArg SessionPc.noticeLeft hat
      rw [hpc]
      exact .inr ⟨⟨h.exited, h.flag, Nat.succ_pos 2⟩, Nat.le_refl 4⟩
  | dispatched fatal =>
    have hpc : s.pc.noticeLeft = 3 := congrArg SessionPc.noticeLeft hat
    rw [hpc]
    exact .inr ⟨⟨h.exited, h.flag, Nat.succ_pos 1⟩, Nat.le_refl 3⟩
  | fork | clearFlag | peersFreed | join => exact (hbehind rfl hat).elim
  | kill => exact (hat.elim (hbehind rfl) (hbehind rfl)).elim
  | poll =>
    obtain ⟨left, hpc⟩ := hat
    exact (hbehind rfl hpc).elim

theorem ending_step (h : s.Ending) (hinv : s.Inv) (he : s.admits e = true) :
    (s.step e).Ending ∧ (s.step e).endLeft + (if e.own then 1 else 0) ≤ s.endLeft := by
  rcases h with hstopping | hnoticing
  · obtain ⟨hstopping', hleft⟩ := stopping_step hstopping he
    refine ⟨.inl hstopping', ?_⟩
    rw [SessionProcess.endLeft, SessionProcess.endLeft, if_pos hstopping, if_pos hstopping']
    exact hleft
  · have hbefore : s.endLeft = 24 + s.pc.noticeLeft := by
      rw [SessionProcess.endLeft, noticing_not_stopping hnoticing.before]
      rfl
    rw [hbefore]
    rcases noticing_step hnoticing hinv he with hstopping | ⟨hnoticing', hnear⟩
    · refine ⟨.inl hstopping, ?_⟩
      rw [SessionProcess.endLeft, if_pos hstopping]
      have hle := (s.step e).left_le
      have hpos := hnoticing.before
      split <;> omega
    · refine ⟨.inr hnoticing', ?_⟩
      rw [SessionProcess.endLeft, noticing_not_stopping hnoticing'.before]
      simp only [Bool.false_eq_true, if_false]
      omega

/-- A running child that exits is the compositor. -/
theorem exits_compositor (hinv : s.Inv) (he : s.admits (.childExits pid) = true)
    (hdone : s.pc ≠ .done) : s.compPid = pid := by
  obtain ⟨c, hmem, hc⟩ := List.any_eq_true.1 he
  have hpid : c.pid = pid := of_decide_eq_true (Bool.and_eq_true_iff.1 hc).1
  exact (hinv.owned hdone c hmem).symm.trans hpid

theorem zombie_exits (hinv : s.Inv) (he : s.admits (.childExits pid) = true)
    (hdone : s.pc ≠ .done) : s.compPid ∈ (s.step (.childExits pid)).zombies :=
  (SessionProcess.mem_zombies_exited he).2 (.inl (exits_compositor hinv he hdone))

/-- An exit in time is noticed, wherever the main function is. -/
theorem exit_ending (hinv : s.Inv) (hplaced : s.Placed)
    (he : s.admits (.childExits pid) = true) (ht : s.pc ≠ .clearing) :
    (s.step (.childExits pid)).Ending := by
  rcases hplaced with hstopping | hlead
  · exact .inl hstopping
  · have hdone : s.pc ≠ .done := by
      intro hpc
      rw [hpc] at hlead
      cases hlead
    refine .inr ⟨zombie_exits hinv he hdone, rfl, ?_⟩
    · change 0 < s.pc.noticeLeft
      cases hpc : s.pc with
      | launching =>
        rw [SessionProcess.admits, hinv.childless hpc] at he
        cases he
      | clearing => exact absurd hpc ht
      | awaitingDisplay | initializing | test | collecting | waiting | dispatching =>
        exact Nat.succ_pos _
      | _ =>
        rw [hpc] at hlead
        cases hlead

/-- The compositor is a zombie or reaped, if the worker still knows it. -/
def SessionProcess.Down (s : SessionProcess) : Prop :=
  s.pc ≠ .done → s.compPid ∈ s.unreaped → s.compPid ∈ s.zombies

namespace SessionProcess.Down

theorem keep {s' : SessionProcess} (h : s.Down) (hpc : s.pc ≠ .done)
    (hsame : s'.children = s.children ∧ s'.compPid = s.compPid) : s'.Down := by
  obtain ⟨hchildren, hcomp⟩ := hsame
  intro _ hmem
  rw [unreaped, hchildren, hcomp] at hmem
  rw [zombies, hchildren, hcomp]
  exact h hpc hmem

theorem reap {s' : SessionProcess} (h : s.Down) (hpc : s.pc ≠ .done)
    (hchildren : s'.children = s.children.filter (·.pid ≠ pid)) (hcomp : s'.compPid = s.compPid) :
    s'.Down := by
  intro _ hmem
  rw [unreaped, hchildren, hcomp] at hmem
  obtain ⟨c, hc, hpid⟩ := List.mem_map.1 hmem
  obtain ⟨hc, hne⟩ := List.mem_filter.1 hc
  have hz := mem_zombie_pids.1 (h hpc (hpid ▸ List.mem_map_of_mem hc))
  rw [zombies, hchildren, hcomp]
  exact mem_zombie_pids.2 (zombie_filter_ne.2 ⟨hz, hpid ▸ of_decide_eq_true hne⟩)

theorem step (h : s.Down) (he : s.admits e = true) (hlaunch : s.pc ≠ .launching) :
    (s.step e).Down := by
  have hat : s.pc.At e := SessionProcess.admits_pc he
  have hnot {l : SessionPc} (hl : l ≠ .done) (hpc : s.pc = l) : s.pc ≠ .done := hpc ▸ hl
  cases e with
  | childExits pid =>
    intro hpc hmem
    rw [unreaped_exited] at hmem
    exact (SessionProcess.mem_zombies_exited he).2 (.inr (h hpc hmem))
  | sigchld | sigterm => exact h
  | fork => exact absurd hat hlaunch
  | displayReady ok =>
    have hpc := hnot SessionPc.noConfusion hat
    cases ok with
    | true => exact h.keep hpc ⟨rfl, rfl⟩
    | false => exact h.keep hpc s.destroy_children
  | initialized r =>
    have hpc := hnot SessionPc.noConfusion hat
    cases r with
    | returned => exact h.keep hpc s.destroy_children
    | entered | cleanedUp => exact h.keep hpc ⟨rfl, rfl⟩
  | loopTest =>
    have hpc := hnot SessionPc.noConfusion hat
    simp only [SessionProcess.step]
    split
    · exact h.keep hpc ⟨rfl, rfl⟩
    · split <;> exact h.keep hpc ⟨rfl, rfl⟩
  | waitpid pid =>
    have hpc := hnot SessionPc.noConfusion hat
    cases pid with
    | none => exact h.keep hpc ⟨rfl, rfl⟩
    | some pid => exact h.reap hpc rfl rfl
  | clearFlag | epollWait | dispatched => exact h.keep (hnot SessionPc.noConfusion hat) ⟨rfl, rfl⟩
  | peersFreed => exact h.keep (hnot SessionPc.noConfusion hat) s.destroy_children
  | kill =>
    have hpc : s.pc ≠ .done :=
      hat.elim (hnot SessionPc.noConfusion) (hnot SessionPc.noConfusion)
    exact h.keep hpc ⟨rfl, rfl⟩
  | poll pid =>
    obtain ⟨left, hat⟩ := hat
    cases pid with
    | some pid => exact fun hdone => absurd rfl hdone
    | none =>
      simp only [SessionProcess.step, hat]
      exact h.keep (hnot SessionPc.noConfusion hat) ⟨rfl, rfl⟩
  | join => exact fun hdone => absurd rfl hdone

end SessionProcess.Down

/-- What holds from the exit of the compositor on. -/
structure SessionProcess.Fading (s : SessionProcess) : Prop where
  inv : s.Inv
  ending : s.Ending
  down : s.Down

theorem SessionProcess.Ending.launched (h : s.Ending) : s.pc ≠ .launching := by
  intro hpc
  rcases h with hstopping | hnoticing
  · rw [stopping, hpc] at hstopping
    cases hstopping
  · have hbefore := hnoticing.before
    rw [hpc] at hbefore
    cases hbefore

theorem SessionProcess.Fading.step (h : s.Fading) (he : s.admits e = true) : (s.step e).Fading :=
  ⟨h.inv.step he, (ending_step h.ending h.inv he).1, h.down.step he h.ending.launched⟩

theorem fading_exit (hinv : s.Inv) (hplaced : s.Placed)
    (he : s.admits (.childExits pid) = true) (ht : s.pc ≠ .clearing) :
    (s.step (.childExits pid)).Fading :=
  ⟨hinv.step he, exit_ending hinv hplaced he ht, fun hdone _ => zombie_exits hinv he hdone⟩

/-- The worker never waits for a compositor that has exited. -/
theorem SessionProcess.Fading.progress (h : s.Fading) (hdone : s.pc ≠ .done) :
    ∃ e, e.own = true ∧ e ≠ .join true ∧ s.admits e = true := by
  rcases h.ending with hstopping | hnoticing
  · apply (stopping_progress hstopping hdone).resolve_right
    rintro ⟨_, hmem, hnot⟩
    exact hnot (h.down hdone hmem)
  · apply leadIn_progress
    have hbefore := hnoticing.before
    revert hbefore
    cases s.pc with
    | awaitingDisplay | initializing | test | collecting | waiting | dispatching =>
      exact fun _ => Nat.succ_pos _
    | _ => exact fun hbefore => by cases hbefore

theorem SessionProcess.endLeft_le (s : SessionProcess) : s.endLeft ≤ 28 := by
  rw [endLeft]
  split
  · exact Nat.le_trans s.left_le (by decide)
  · have hnotice : s.pc.noticeLeft ≤ 4 := by
      cases s.pc with
      | polling => exact Nat.zero_le _
      | _ => decide
    exact Nat.add_le_add_left hnotice 24

/-- When the compositor exits, and not between the last `waitpid` of a collection and the clearing
of the flag, the worker ends in at most 28 steps of its own, waits for nothing on the way, and
leaves no child behind unless a signal interrupts its last `waitpid`. -/
theorem compositor_exit_ends (hl : sessionProcess.Legal .start (es ++ .childExits pid :: fs))
    (ht : (sessionProcess.run .start es).pc ≠ .clearing) :
    let s := sessionProcess.run .start (es ++ .childExits pid :: fs)
    (fs.filter SessionInput.own).length ≤ 28 ∧
      (s.pc ≠ .done → ∃ e, e.own = true ∧ e ≠ .join true ∧ sessionProcess.enabled s e) ∧
      (s.pc = .done → .join true ∉ es ++ .childExits pid :: fs → s.unreaped = []) := by
  obtain ⟨hles, hexit, hlfs⟩ := System.along_append.1 hl
  have hbefore := System.always_of_legal (S := sessionProcess) (I := fun s => s.Inv ∧ s.Placed)
    (fun _ _ h he => ⟨h.1.step he, h.2.step he⟩) ⟨.start, .inr (Nat.succ_pos 3)⟩ hles
  obtain ⟨hinv, hplaced⟩ := hbefore.last
  have hfading := fading_exit hinv hplaced hexit ht
  have hend : (sessionProcess.run .start (es ++ .childExits pid :: fs)).Fading := by
    rw [System.run_append, System.run_cons]
    exact (System.always_of_legal (I := SessionProcess.Fading) (fun _ _ h he => h.step he) hfading
      hlfs).last
  refine ⟨?_, hend.progress, fun hdone hjoin => ends_childless hl hjoin hdone⟩
  have hlength := System.length_filter_add_measure_le (I := SessionProcess.Fading)
    SessionInput.own SessionProcess.endLeft (fun _ _ h he => h.step he)
    (fun _ _ h he => (ending_step h.ending h.inv he).2) hfading hlfs
  exact Nat.le_trans (Nat.le_trans (Nat.le_add_right ..) hlength) (SessionProcess.endLeft_le _)

/-- The compositor exits while the worker waits in `epoll_wait`, which returns no error. The worker
reaps it, sends its signals to nobody and needs all 28 steps. -/
theorem compositor_exit_ends_waiting :
    let es := [SessionInput.fork (some 7), .displayReady true, .initialized .entered, .loopTest]
    let fs := [SessionInput.epollWait false, .dispatched false, .loopTest, .waitpid (some 7),
      .peersFreed, .kill] ++ List.replicate 20 (.poll none) ++ [.kill, .join false]
    (fs.filter SessionInput.own).length = 28 ∧
      (sessionProcess.run .start (es ++ .childExits 7 :: fs)).pc = .done ∧
      (sessionProcess.run .start (es ++ .childExits 7 :: fs)).unreaped = [] := by
  intro es fs
  have hl : sessionProcess.Legal .start (es ++ .childExits 7 :: fs) := by decide
  have hjoin : SessionInput.join true ∉ es ++ .childExits 7 :: fs := by decide
  have hwaits : (sessionProcess.run .start es).pc ≠ .clearing := SessionPc.noConfusion
  exact ⟨rfl, rfl, (compositor_exit_ends hl hwaits).2.2 rfl hjoin⟩

end Wlrdp
