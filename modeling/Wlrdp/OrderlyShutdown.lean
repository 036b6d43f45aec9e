import Wlrdp.ChildExits

namespace Wlrdp
set_option autoImplicit true

variable {s : SessionProcess}

/-- The steps of the program itself. -/
def SessionInput.own : SessionInput → Bool
  | .childExits _ | .sigchld | .sigterm => false
  | _ => true

/-- The steps that the shutdown still takes; `none` before it has begun. -/
def SessionPc.shutdownLeft : SessionPc → Option Nat
  | .cleanup => some 24
  | .terminating => some 23
  | .polling (left + 1) => if left < 20 then some (left + 3) else none
  | .killing => some 2
  | .joining => some 1
  | .done => some 0
  | _ => none

def SessionProcess.stopping (s : SessionProcess) : Bool := s.pc.shutdownLeft.isSome

def SessionProcess.left (s : SessionProcess) : Nat := s.pc.shutdownLeft.getD 0

/-- The compositor was sent `SIGKILL` and has not exited yet. -/
def SessionProcess.awaitsKilled (s : SessionProcess) : Prop :=
  s.pc = .joining ∧ s.compPid ∈ s.unreaped ∧ s.compPid ∉ s.zombies

/-! ### The length of the shutdown -/

theorem destroy_left (s : SessionProcess) : s.destroy.stopping = true ∧ s.destroy.left ≤ 23 := by
  rcases s.destroy_pc with hpc | hpc
  · rw [SessionProcess.stopping, SessionProcess.left, hpc]
    exact ⟨rfl, Nat.zero_le _⟩
  · rw [SessionProcess.stopping, SessionProcess.left, hpc]
    exact ⟨rfl, Nat.le_refl _⟩

/-- Once begun, the shutdown goes on, and every step of the program brings it closer to its end. -/
theorem stopping_step (h : s.stopping = true) (he : s.admits e = true) :
    (s.step e).stopping = true ∧ (s.step e).left + (if e.own then 1 else 0) ≤ s.left := by
  have hat : s.pc.At e := SessionProcess.admits_pc he
  have hbefore {l : SessionPc} (hl : l.shutdownLeft = none) (hpc : s.pc = l) : False := by
    rw [SessionProcess.stopping, hpc, hl] at h
    cases h
  cases e with
  | childExits | sigchld | sigterm => exact ⟨h, Nat.le_refl _⟩
  | fork | displayReady | initialized | loopTest | waitpid | clearFlag | epollWait | dispatched =>
    exact (hbefore rfl hat).elim
  | peersFreed =>
    have hleft : s.left = 24 := by
      rw [SessionProcess.left, hat]
      rfl
    obtain ⟨hstopping, hle⟩ := destroy_left s
    rw [hleft]
    exact ⟨hstopping, Nat.succ_le_succ hle⟩
  | kill =>
    rcases hat with hpc | hpc
    · simp only [SessionProcess.step, SessionProcess.stopping, SessionProcess.left, hpc]
      exact ⟨rfl, Nat.le_refl _⟩
    · simp only [SessionProcess.step, SessionProcess.stopping, SessionProcess.left, hpc]
      exact ⟨rfl, Nat.le_refl _⟩
  | poll pid =>
    obtain ⟨left, hpc⟩ := hat
    have hbound : left < 20 := by
      by_contra hge
      have hnone : (SessionPc.polling (left + 1)).shutdownLeft = none := if_neg hge
      exact hbefore hnone hpc
    have hleft : s.left = left + 3 := by
      rw [SessionProcess.left, hpc, SessionPc.shutdownLeft, if_pos hbound]
      rfl
    rw [hleft]
    cases pid with
    | some pid => exact ⟨rfl, Nat.le_add_left ..⟩
    | none =>
      simp only [SessionProcess.step, SessionProcess.stopping, SessionProcess.left, hpc]
      cases left with
      | zero => exact ⟨rfl, Nat.le_refl _⟩
      | succ n =>
        have hn : n < 20 := Nat.lt_of_succ_lt hbound
        rw [if_neg (Nat.succ_ne_zero n), SessionPc.shutdownLeft, if_pos hn]
        exact ⟨rfl, Nat.le_refl _⟩
  | join interrupted =>
    have hleft : s.left = 1 := by
      rw [SessionProcess.left, hat]
      rfl
    rw [hleft]
    exact ⟨rfl, Nat.le_refl _⟩

/-- Until it has ended, the shutdown never waits for anything but a compositor that was killed. -/
theorem stopping_progress (h : s.stopping = true) (hdone : s.pc ≠ .done) :
    (∃ e, e.own = true ∧ e ≠ .join true ∧ s.admits e = true) ∨ s.awaitsKilled := by
  cases hpc : s.pc with
  | cleanup => exact .inl ⟨.peersFreed, rfl, SessionInput.noConfusion, decide_eq_true hpc⟩
  | terminating =>
    refine .inl ⟨.kill, rfl, SessionInput.noConfusion, ?_⟩
    rw [SessionProcess.admits, hpc]
    rfl
  | killing =>
    refine .inl ⟨.kill, rfl, SessionInput.noConfusion, ?_⟩
    rw [SessionProcess.admits, hpc]
    rfl
  | polling left =>
    cases left with
    | zero =>
      rw [SessionProcess.stopping, hpc] at h
      cases h
    | succ left =>
      refine .inl ⟨.poll (if s.compPid ∈ s.zombies then some s.compPid else none), rfl,
        SessionInput.noConfusion, ?_⟩
      rw [SessionProcess.admits, hpc]
      exact decide_eq_true rfl
  | joining =>
    by_cases hexited : s.compPid ∈ s.zombies
    · refine .inl ⟨.join false, rfl, fun h => Bool.false_ne_true (SessionInput.join.inj h), ?_⟩
      rw [SessionProcess.admits, hpc, decide_eq_true hexited]
      rfl
    by_cases hreaped : s.compPid ∈ s.unreaped
    · exact .inr ⟨hpc, hreaped, hexited⟩
    · refine .inl ⟨.join false, rfl, fun h => Bool.false_ne_true (SessionInput.join.inj h), ?_⟩
      rw [SessionProcess.admits, hpc, decide_eq_true hreaped, Bool.or_true]
      rfl
  | done => exact absurd hpc hdone
  | _ =>
    rw [SessionProcess.stopping, hpc] at h
    cases h

/-! ### What it leaves behind -/

/-- The compositor is the only child, and none is left at the end. -/
structure SessionProcess.Clean (s : SessionProcess) : Prop where
  inv : s.Inv
  positive : ∀ c ∈ s.children, 0 < c.pid
  childless : s.pc = .done → s.children = []

namespace SessionProcess.Clean

theorem start : SessionProcess.start.Clean :=
  ⟨.start, fun _ hc => absurd hc List.not_mem_nil, fun _ => rfl⟩

theorem reap_compositor (h : s.Clean) (hpc : s.pc ≠ .done) : (s.reap s.compPid).children = [] := by
  apply List.filter_eq_nil_iff.2
  intro c hc hne
  exact of_decide_eq_true hne (h.inv.owned hpc c hc)

theorem destroyed (h : s.Clean) (hpc : s.pc ≠ .done) : s.destroy.children = [] ∨
    s.destroy.pc ≠ .done := by
  rw [s.destroy_children.1]
  by_cases hcomp : s.compPid = 0
  · left
    apply List.eq_nil_iff_forall_not_mem.2
    intro c hc
    have hpos := h.positive c hc
    rw [h.inv.owned hpc c hc, hcomp] at hpos
    exact absurd hpos (Nat.lt_irrefl 0)
  · right
    rw [SessionProcess.destroy, if_neg hcomp]
    exact SessionPc.noConfusion

theorem narrow {s' : SessionProcess} (h : s.Clean) (hinv : s'.Inv)
    (hsub : ∀ c ∈ s'.children, c ∈ s.children) (hend : s'.children = [] ∨ s'.pc ≠ .done) :
    s'.Clean :=
  ⟨hinv, fun c hc => h.positive c (hsub c hc), fun hpc => hend.resolve_right (not_not_intro hpc)⟩

theorem step (h : s.Clean) (he : s.admits e = true) (hj : e ≠ .join true) : (s.step e).Clean := by
  have hinv := h.inv.step he
  have hat : s.pc.At e := SessionProcess.admits_pc he
  cases e with
  | childExits pid =>
    have hmapped : ∀ c ∈ (s.step (.childExits pid)).children, 0 < c.pid := by
      intro c hc
      obtain ⟨c, hmem, rfl⟩ := List.mem_map.1 hc
      have hpos := h.positive c hmem
      split <;> exact hpos
    refine ⟨hinv, hmapped, fun hpc => ?_⟩
    change s.children.map _ = []
    rw [h.childless hpc, List.map_nil]
  | sigchld => exact ⟨hinv, h.positive, h.childless⟩
  | sigterm => exact ⟨hinv, h.positive, h.childless⟩
  | fork pid =>
    have hnone : s.children = [] := h.inv.childless hat
    cases pid with
    | none => exact h.narrow hinv (fun _ hc => hc) (.inl hnone)
    | some pid =>
      refine ⟨hinv, fun c hc => ?_, SessionPc.noConfusion⟩
      simp only [SessionProcess.admits, Bool.and_eq_true, Option.all_some, decide_eq_true_eq] at he
      change c ∈ SessionChild.mk pid false :: s.children at hc
      rw [hnone] at hc
      rw [List.mem_singleton.1 hc]
      exact he.2.1
  | displayReady ok =>
    have hpc : s.pc ≠ .done := by rw [hat]; exact SessionPc.noConfusion
    cases ok with
    | true => exact h.narrow hinv (fun _ hc => hc) (.inr SessionPc.noConfusion)
    | false => exact h.narrow hinv (fun _ hc => s.destroy_children.1 ▸ hc) (h.destroyed hpc)
  | initialized r =>
    have hpc : s.pc ≠ .done := by rw [hat]; exact SessionPc.noConfusion
    cases r with
    | returned => exact h.narrow hinv (fun _ hc => s.destroy_children.1 ▸ hc) (h.destroyed hpc)
    | entered => exact h.narrow hinv (fun _ hc => hc) (.inr SessionPc.noConfusion)
    | cleanedUp => exact h.narrow hinv (fun _ hc => hc) (.inr SessionPc.noConfusion)
  | loopTest =>
    apply h.narrow hinv
    · intro c hc
      simp only [SessionProcess.step] at hc
      split at hc
      · exact hc
      · split at hc <;> exact hc
    · right
      simp only [SessionProcess.step]
      split
      · exact SessionPc.noConfusion
      · split <;> exact SessionPc.noConfusion
  | waitpid pid =>
    cases pid with
    | none => exact h.narrow hinv (fun _ hc => hc) (.inr SessionPc.noConfusion)
    | some pid =>
      refine h.narrow hinv (fun _ hc => List.mem_of_mem_filter hc) (.inr ?_)
      simp only [SessionProcess.step]
      split <;> exact SessionPc.noConfusion
  | clearFlag => exact h.narrow hinv (fun _ hc => hc) (.inr SessionPc.noConfusion)
  | epollWait failed =>
    refine h.narrow hinv (fun _ hc => hc) (.inr ?_)
    simp only [SessionProcess.step]
    split <;> exact SessionPc.noConfusion
  | dispatched => exact h.narrow hinv (fun _ hc => hc) (.inr SessionPc.noConfusion)
  | peersFreed =>
    have hpc : s.pc ≠ .done := by rw [hat]; exact SessionPc.noConfusion
    exact h.narrow hinv (fun _ hc => s.destroy_children.1 ▸ hc) (h.destroyed hpc)
  | kill =>
    refine h.narrow hinv (fun _ hc => hc) (.inr ?_)
    simp only [SessionProcess.step]
    split <;> exact SessionPc.noConfusion
  | poll pid =>
    obtain ⟨left, hpc⟩ := hat
    have hnot : s.pc ≠ .done := by rw [hpc]; exact SessionPc.noConfusion
    cases pid with
    | none =>
      apply h.narrow hinv
      · intro c hc
        simp only [SessionProcess.step, hpc] at hc
        exact hc
      · right
        simp only [SessionProcess.step, hpc]
        split <;> exact SessionPc.noConfusion
    | some pid =>
      rw [SessionProcess.admits, hpc] at he
      have hpid : pid = s.compPid := by
        have hr := of_decide_eq_true he
        split at hr
        · exact Option.some.inj hr
        · cases hr
      refine h.narrow hinv (fun _ hc => List.mem_of_mem_filter hc) (.inl ?_)
      rw [hpid]
      exact h.reap_compositor hnot
  | join interrupted =>
    have hnot : s.pc ≠ .done := by rw [hat]; exact SessionPc.noConfusion
    cases interrupted with
    | true => exact absurd rfl hj
    | false =>
      exact h.narrow hinv (fun _ hc => List.mem_of_mem_filter hc) (.inl (h.reap_compositor hnot))

end SessionProcess.Clean

theorem ends_childless (hl : sessionProcess.Legal .start es) (hjoin : .join true ∉ es)
    (hdone : (sessionProcess.run .start es).pc = .done) :
    (sessionProcess.run .start es).unreaped = [] := by
  have hcalm : ∀ e ∈ es, e ≠ .join true := by
    intro e he heq
    exact hjoin (heq ▸ he)
  have hclean := (System.always_of_step (I := SessionProcess.Clean)
    (fun _ _ h he => h.step he.1 he.2) .start (hl.and (System.along_of_forall hcalm))).last
  rw [SessionProcess.unreaped, hclean.childless hdone, List.map_nil]

/-- The worker shuts down in at most 24 steps of its own, whatever happens meanwhile: it never
waits for anything but a compositor that it has killed, and it leaves no child behind unless a
signal interrupts that wait. -/
theorem session_shutdown (hl : sessionProcess.Legal .start (es ++ fs))
    (hcleanup : (sessionProcess.run .start es).pc = .cleanup) :
    let s := sessionProcess.run .start (es ++ fs)
    (fs.filter SessionInput.own).length ≤ 24 ∧
      (s.pc ≠ .done → (∃ e, e.own = true ∧ e ≠ .join true ∧ sessionProcess.enabled s e) ∨
        s.awaitsKilled) ∧
      (s.pc = .done → .join true ∉ es ++ fs → s.unreaped = []) := by
  obtain ⟨_, hlfs⟩ := System.along_append.1 hl
  have hstopping : (sessionProcess.run .start es).stopping = true := by
    rw [SessionProcess.stopping, hcleanup]
    rfl
  have hleft : (sessionProcess.run .start es).left = 24 := by
    rw [SessionProcess.left, hcleanup]
    rfl
  have hlength := System.length_filter_add_measure_le (I := fun s => s.stopping = true)
    SessionInput.own SessionProcess.left (fun _ _ h he => (stopping_step h he).1)
    (fun _ _ h he => (stopping_step h he).2) hstopping hlfs
  have hend := (System.always_of_legal (I := fun s => s.stopping = true)
    (fun _ _ h he => (stopping_step h he).1) hstopping hlfs).last
  rw [System.run_append]
  refine ⟨?_, stopping_progress hend, fun hdone hjoin => ?_⟩
  · exact Nat.le_trans (Nat.le_add_right ..) (hleft ▸ hlength)
  · rw [← System.run_append] at hdone ⊢
    exact ends_childless hl hjoin hdone

/-- The compositor ignores `SIGTERM`, a signal arrives meanwhile, and `SIGKILL` ends it. -/
theorem session_shutdown_killed :
    let es := [SessionInput.fork (some 7), .displayReady true, .initialized .entered, .sigterm,
      .loopTest]
    let fs := [SessionInput.peersFreed, .kill] ++ List.replicate 20 (.poll none) ++
      [.kill, .sigchld, .childExits 7, .join false]
    (sessionProcess.run .start (es ++ fs)).pc = .done ∧
      (sessionProcess.run .start (es ++ fs)).unreaped = [] := by
  have hl : sessionProcess.Legal .start ([SessionInput.fork (some 7), .displayReady true,
      .initialized .entered, .sigterm, .loopTest] ++ ([SessionInput.peersFreed, .kill] ++
        List.replicate 20 (.poll none) ++ [.kill, .sigchld, .childExits 7, .join false])) := by
    decide
  have hjoin : SessionInput.join true ∉ [SessionInput.fork (some 7), .displayReady true,
      .initialized .entered, .sigterm, .loopTest] ++ ([SessionInput.peersFreed, .kill] ++
        List.replicate 20 (.poll none) ++ [.kill, .sigchld, .childExits 7, .join false]) := by
    decide
  exact ⟨rfl, (session_shutdown hl rfl).2.2 rfl hjoin⟩

end Wlrdp
