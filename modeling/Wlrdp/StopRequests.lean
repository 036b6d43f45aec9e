import Wlrdp.OrderlyShutdown

namespace Wlrdp
set_option autoImplicit true

variable {s : SessionProcess} {e : SessionInput}

/-- The steps that the main function still takes up to `cleanup` once `g_running` is zero. -/
def SessionPc.leadIn : SessionPc → Nat
  | .collecting => 5
  | .launching | .clearing => 4
  | .awaitingDisplay | .waiting => 3
  | .initializing | .dispatching => 2
  | .test => 1
  | _ => 0

/-- The main function is where it can be: before `cleanup`, or in the shutdown. -/
def SessionProcess.Placed (s : SessionProcess) : Prop := s.stopping = true ∨ 0 < s.pc.leadIn

/-- The main function stops, or will do so when it looks at `g_running`. -/
def SessionProcess.Winding (s : SessionProcess) : Prop :=
  s.stopping = true ∨ s.running = false ∧ 0 < s.pc.leadIn

def SessionProcess.remaining (s : SessionProcess) : Nat :=
  if s.stopping then s.left else 24 + s.pc.leadIn

theorem SessionProcess.left_le (s : SessionProcess) : s.left ≤ 24 := by
  rw [left]
  cases s.pc with
  | polling left =>
    cases left with
    | zero => exact Nat.zero_le _
    | succ left =>
      simp only [SessionPc.shutdownLeft]
      split
      · exact Nat.add_le_add_right (m := 21) (by omega) 3
      · exact Nat.zero_le _
  | _ => decide

theorem SessionProcess.remaining_le (s : SessionProcess) : s.remaining ≤ 29 := by
  rw [remaining]
  split
  · exact Nat.le_trans s.left_le (by decide)
  · have hlead : s.pc.leadIn ≤ 5 := by
      cases s.pc with
      | polling => exact Nat.zero_le _
      | _ => decide
    exact Nat.add_le_add_left hlead 24

theorem not_stopping (h : 0 < s.pc.leadIn) : s.stopping = false := by
  rw [SessionProcess.stopping]
  cases hpc : s.pc <;> first | rfl | (rw [hpc] at h; cases h)

/-- Before the shutdown a step leads into it or to another place before it, which is nearer when
`g_running` is zero. -/
theorem leadIn_step (h : 0 < s.pc.leadIn) (he : s.admits e = true) :
    (s.step e).stopping = true ∨ 0 < (s.step e).pc.leadIn ∧ (s.running = false →
      (s.step e).pc.leadIn + (if e.own then 1 else 0) ≤ s.pc.leadIn) := by
  have hat : s.pc.At e := SessionProcess.admits_pc he
  have hbehind {l : SessionPc} (hl : l.leadIn = 0) (hpc : s.pc = l) : False := by
    rw [hpc, hl] at h
    exact Nat.lt_irrefl 0 h
  cases e with
  | childExits | sigchld | sigterm => exact .inr ⟨h, fun _ => Nat.le_refl _⟩
  | fork pid =>
    cases pid with
    | none => exact .inl rfl
    | some pid =>
      have hpc : s.pc.leadIn = 4 := congrArg SessionPc.leadIn hat
      rw [hpc]
      exact .inr ⟨Nat.succ_pos 2, fun _ => Nat.le_refl 4⟩
  | displayReady ok =>
    cases ok with
    | false => exact .inl (destroy_left s).1
    | true =>
      have hpc : s.pc.leadIn = 3 := congrArg SessionPc.leadIn hat
      rw [hpc]
      exact .inr ⟨Nat.succ_pos 1, fun _ => Nat.le_refl 3⟩
  | initialized r =>
    cases r with
    | returned => exact .inl (destroy_left s).1
    | cleanedUp => exact .inl rfl
    | entered =>
      have hpc : s.pc.leadIn = 2 := congrArg SessionPc.leadIn hat
      rw [hpc]
      exact .inr ⟨Nat.succ_pos 0, fun _ => Nat.le_refl 2⟩
  | loopTest =>
    cases hr : s.running with
    | false =>
      left
      simp only [SessionProcess.step, hr]
      rfl
    | true =>
      right
      refine ⟨?_, Bool.noConfusion⟩
      simp only [SessionProcess.step, hr]
      cases s.childExited with
      | false => exact Nat.succ_pos 2
      | true => exact Nat.succ_pos 4
  | waitpid pid =>
    have hpc : s.pc.leadIn = 5 := congrArg SessionPc.leadIn hat
    rw [hpc]
    cases pid with
    | none => exact .inr ⟨Nat.succ_pos 3, fun _ => Nat.le_refl 5⟩
    | some pid =>
      simp only [SessionProcess.step]
      split
      · exact .inl rfl
      · exact .inr ⟨Nat.succ_pos 3, fun _ => Nat.le_refl 5⟩
  | clearFlag =>
    have hpc : s.pc.leadIn = 4 := congrArg SessionPc.leadIn hat
    rw [hpc]
    exact .inr ⟨Nat.succ_pos 2, fun _ => Nat.le_refl 4⟩
  | epollWait failed =>
    cases failed with
    | true => exact .inl rfl
    | false =>
      have hpc : s.pc.leadIn = 3 := congrArg SessionPc.leadIn hat
      rw [hpc]
      exact .inr ⟨Nat.succ_pos 1, fun _ => Nat.le_refl 3⟩
  | dispatched fatal =>
    have hpc : s.pc.leadIn = 2 := congrArg SessionPc.leadIn hat
    rw [hpc]
    exact .inr ⟨Nat.succ_pos 0, fun _ => Nat.le_refl 2⟩
  | peersFreed => exact (hbehind rfl hat).elim
  | kill => exact (hat.elim (hbehind rfl) (hbehind rfl)).elim
  | poll pid =>
    obtain ⟨left, hpc⟩ := hat
    exact (hbehind rfl hpc).elim
  | join interrupted => exact (hbehind rfl hat).elim

theorem SessionProcess.Placed.step (h : s.Placed) (he : s.admits e = true) :
    (s.step e).Placed := by
  rcases h with hstopping | hlead
  · exact .inl (stopping_step hstopping he).1
  · exact (leadIn_step hlead he).imp_right And.left

/-- Nothing sets `g_running` again. -/
theorem step_running (h : s.running = false) (e : SessionInput) : (s.step e).running = false := by
  cases e with
  | sigterm => rfl
  | fork pid => cases pid <;> exact h
  | displayReady | peersFreed =>
    simp only [SessionProcess.step, SessionProcess.destroy]
    split <;> (try split) <;> exact h
  | initialized r =>
    cases r <;> simp only [SessionProcess.step, SessionProcess.destroy] <;> (try split) <;> exact h
  | loopTest =>
    simp only [SessionProcess.step]
    split
    · exact h
    · split <;> exact h
  | waitpid pid => cases pid <;> exact h
  | dispatched fatal =>
    simp only [SessionProcess.step, h]
    rfl
  | poll pid =>
    cases pid with
    | some pid => exact h
    | none =>
      simp only [SessionProcess.step]
      split <;> exact h
  | join interrupted =>
    simp only [SessionProcess.step]
    split <;> exact h
  | _ => exact h

/-- A worker that is told stays so, and every step of its own brings it nearer to its end. -/
theorem winding_step (h : s.Winding) (he : s.admits e = true) :
    (s.step e).Winding ∧ (s.step e).remaining + (if e.own then 1 else 0) ≤ s.remaining := by
  rcases h with hstopping | ⟨hrunning, hlead⟩
  · obtain ⟨hstopping', hleft⟩ := stopping_step hstopping he
    refine ⟨.inl hstopping', ?_⟩
    rw [SessionProcess.remaining, SessionProcess.remaining, if_pos hstopping, if_pos hstopping']
    exact hleft
  · have hbefore : s.remaining = 24 + s.pc.leadIn := by
      rw [SessionProcess.remaining, not_stopping hlead]
      rfl
    rw [hbefore]
    rcases leadIn_step hlead he with hstopping | ⟨hlead', hnear⟩
    · refine ⟨.inl hstopping, ?_⟩
      rw [SessionProcess.remaining, if_pos hstopping]
      have hle := (s.step e).left_le
      split <;> omega
    · refine ⟨.inr ⟨step_running hrunning e, hlead'⟩, ?_⟩
      rw [SessionProcess.remaining, not_stopping hlead']
      have hle := hnear hrunning
      simp only [Bool.false_eq_true, if_false]
      omega

/-- `SIGTERM` tells a worker to stop wherever it is. -/
theorem SessionProcess.Placed.winding (h : s.Placed) : (s.step .sigterm).Winding :=
  h.imp id fun hlead => ⟨rfl, hlead⟩

/-- Before the shutdown the main function always has a step to make. -/
theorem leadIn_progress (h : 0 < s.pc.leadIn) :
    ∃ e, e.own = true ∧ e ≠ .join true ∧ s.admits e = true := by
  cases hpc : s.pc with
  | launching =>
    refine ⟨.fork none, rfl, SessionInput.noConfusion, ?_⟩
    rw [SessionProcess.admits, hpc]
    rfl
  | awaitingDisplay => exact ⟨.displayReady true, rfl, SessionInput.noConfusion, decide_eq_true hpc⟩
  | initializing => exact ⟨.initialized .entered, rfl, SessionInput.noConfusion, decide_eq_true hpc⟩
  | test => exact ⟨.loopTest, rfl, SessionInput.noConfusion, decide_eq_true hpc⟩
  | collecting =>
    cases hz : s.zombies with
    | nil =>
      refine ⟨.waitpid none, rfl, SessionInput.noConfusion, ?_⟩
      rw [SessionProcess.admits, hpc, hz]
      rfl
    | cons pid zombies =>
      refine ⟨.waitpid (some pid), rfl, SessionInput.noConfusion, ?_⟩
      rw [SessionProcess.admits, hpc, hz]
      exact decide_eq_true List.mem_cons_self
  | clearing => exact ⟨.clearFlag, rfl, SessionInput.noConfusion, decide_eq_true hpc⟩
  | waiting => exact ⟨.epollWait false, rfl, SessionInput.noConfusion, decide_eq_true hpc⟩
  | dispatching => exact ⟨.dispatched false, rfl, SessionInput.noConfusion, decide_eq_true hpc⟩
  | _ =>
    rw [hpc] at h
    cases h

theorem winding_progress (h : s.Winding) (hdone : s.pc ≠ .done) :
    (∃ e, e.own = true ∧ e ≠ .join true ∧ s.admits e = true) ∨ s.awaitsKilled := by
  rcases h with hstopping | ⟨_, hlead⟩
  · exact stopping_progress hstopping hdone
  · exact .inl (leadIn_progress hlead)

end Wlrdp
