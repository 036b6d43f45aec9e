import Mathlib.Order.BooleanAlgebra.Set
import Wlrdp.TransitionSystems

namespace Wlrdp
set_option autoImplicit true

namespace System

/-- The simulation rule: what `T` keeps along the steps that match those of `S` holds of every
state of `S`, seen through `view`. -/
theorem always_of_simulation {S : System σ ε} {T : System τ φ} {I : σ → Prop}
    {C : σ → ε → Prop} {J : τ → Prop} {D : τ → φ → Prop} (view : σ → τ)
    (matching : σ → ε → List φ) (hI : ∀ s e, I s → C s e → I (S.step s e))
    (hsim : ∀ s e, I s → C s e →
      T.Along D (view s) (matching s e) ∧ T.run (view s) (matching s e) = view (S.step s e))
    (hJ : ∀ t f, J t → D t f → J (T.step t f))
    (hs : I s) (ht : J (view s)) (hC : S.Along C s es) :
    S.Always (fun s => J (view s)) s es := by
  induction es generalizing s with
  | nil => exact ht
  | cons e es ih =>
    obtain ⟨hD, hrun⟩ := hsim s e hs hC.1
    have hnext : J (view (S.step s e)) := by
      rw [← hrun]
      exact (always_of_step hJ ht hD).last
    exact ⟨ht, ih (hI s e hs hC.1) hnext hC.2⟩

end System

/-! ### Loops that collect children -/

/-- Where a loop is that tests a flag, collects children, clears the flag and blocks. -/
inductive ReapPhase
  | testing | collecting | clearing | blocking | stopped
deriving DecidableEq

/-- A process that collects its exited children when a signal handler has set its flag. -/
structure Reaper (κ : Type) where
  phase : ReapPhase
  flag : Bool
  zombies : Set κ

inductive ReapEvent (κ : Type)
  | exit (k : κ)
  | signal
  | test
  | collect (k : κ)
  | collected
  | clear
  | resume
  | stop

namespace Reaper

/-- An exit makes a zombie and runs the handler, which may also run on its own. -/
def step (s : Reaper κ) : ReapEvent κ → Reaper κ
  | .exit k => { s with flag := true, zombies := insert k s.zombies }
  | .signal => { s with flag := true }
  | .test => { s with phase := if s.flag then .collecting else .blocking }
  | .collect k => { s with zombies := s.zombies \ {k} }
  | .collected => { s with phase := .clearing }
  | .clear => { s with flag := false, phase := .blocking }
  | .resume => { s with phase := .testing }
  | .stop => { s with phase := .stopped }

/-- The loop goes on to clear its flag once no zombie is left, and no child exits between then
and the clearing. -/
def InTime (s : Reaper κ) : ReapEvent κ → Prop
  | .exit _ => s.phase ≠ .clearing
  | .collected => s.zombies = ∅
  | .clear => s.phase = .clearing
  | _ => True

/-- The loop does not block on an exit that it has not noticed. -/
def Alert (s : Reaper κ) : Prop := s.phase = .blocking → s.zombies.Nonempty → s.flag = true

structure Inv (s : Reaper κ) : Prop where
  flag : s.zombies.Nonempty → s.flag = true
  clearing : s.phase = .clearing → s.zombies = ∅

theorem Inv.alert {s : Reaper κ} (h : Inv s) : s.Alert := fun _ => h.flag

theorem Inv.step {s : Reaper κ} (h : s.Inv) (he : s.InTime e) : (s.step e).Inv := by
  cases e with
  | exit k => exact ⟨fun _ => rfl, fun hp => absurd hp he⟩
  | signal => exact ⟨fun _ => rfl, h.clearing⟩
  | test =>
    refine ⟨h.flag, fun hp => ?_⟩
    simp only [Reaper.step] at hp
    split at hp <;> cases hp
  | collect k =>
    refine ⟨fun hz => h.flag (hz.mono Set.sdiff_subset), fun hp => ?_⟩
    simp only [Reaper.step, h.clearing hp, Set.empty_sdiff]
  | collected => exact ⟨h.flag, fun _ => he⟩
  | clear =>
    refine ⟨fun hz => ?_, fun hp => by cases hp⟩
    simp only [Reaper.step, h.clearing he] at hz
    exact absurd hz Set.not_nonempty_empty
  | resume => exact ⟨h.flag, fun hp => by cases hp⟩
  | stop => exact ⟨h.flag, fun hp => by cases hp⟩

end Reaper

def reaper (κ : Type) : System (Reaper κ) (ReapEvent κ) := ⟨Reaper.InTime, Reaper.step⟩

/-- A process that refines a loop with timely exits is alert throughout. -/
theorem alert_of_refines {S : System σ ε} {I : σ → Prop} {C : σ → ε → Prop}
    (view : σ → Reaper κ) (matching : σ → ε → List (ReapEvent κ))
    (hI : ∀ s e, I s → C s e → I (S.step s e))
    (hsim : ∀ s e, I s → C s e → (reaper κ).Legal (view s) (matching s e) ∧
      (reaper κ).run (view s) (matching s e) = view (S.step s e))
    (hs : I s) (hview : (view s).Inv) (hC : S.Along C s es) :
    S.Always (fun s => (view s).Alert) s es := by
  have halways : S.Always (fun s => (view s).Inv) s es :=
    System.always_of_simulation view matching hI hsim (fun _ _ h he => h.step he) hs hview hC
  exact halways.mono fun _ h => h.alert

/-! ### The zombies among the children -/

section Zombies

variable {γ κ : Type} {children : List γ} {pidOf : γ → κ} {exited : γ → Bool}

theorem mem_zombie_pids :
    k ∈ (children.filter exited).map pidOf ↔ ∃ c ∈ children, exited c = true ∧ pidOf c = k := by
  simp only [List.mem_map, List.mem_filter, and_assoc]

variable [DecidableEq κ]

theorem zombie_map_exit {exit : γ → γ} (hpid : ∀ c, pidOf (exit c) = pidOf c)
    (hexit : ∀ c, exited (exit c) = true) (hk : ∃ c ∈ children, pidOf c = k) :
    (∃ c ∈ children.map fun c => if pidOf c = k then exit c else c, exited c = true ∧ pidOf c = q) ↔
      q = k ∨ ∃ c ∈ children, exited c = true ∧ pidOf c = q := by
  simp only [List.mem_map]
  constructor
  · rintro ⟨_, ⟨c, hmem, rfl⟩, hexited, hq⟩
    split at hexited
    · next hc =>
      rw [if_pos hc, hpid, hc] at hq
      exact .inl hq.symm
    · next hc =>
      rw [if_neg hc] at hq
      exact .inr ⟨c, hmem, hexited, hq⟩
  · rintro (rfl | ⟨c, hmem, hexited, rfl⟩)
    · obtain ⟨c, hmem, hc⟩ := hk
      refine ⟨_, ⟨c, hmem, rfl⟩, ?_⟩
      rw [if_pos hc]
      exact ⟨hexit c, (hpid c).trans hc⟩
    · refine ⟨_, ⟨c, hmem, rfl⟩, ?_⟩
      split
      · exact ⟨hexit c, hpid c⟩
      · exact ⟨hexited, rfl⟩

theorem zombie_filter_ne :
    (∃ c ∈ children.filter (pidOf · ≠ k), exited c = true ∧ pidOf c = q) ↔
      (∃ c ∈ children, exited c = true ∧ pidOf c = q) ∧ q ≠ k := by
  constructor
  · rintro ⟨c, hmem, hexited, rfl⟩
    obtain ⟨hmem, hne⟩ := List.mem_filter.1 hmem
    exact ⟨⟨c, hmem, hexited, rfl⟩, of_decide_eq_true hne⟩
  · rintro ⟨⟨c, hmem, hexited, rfl⟩, hne⟩
    exact ⟨c, List.mem_filter.2 ⟨hmem, decide_eq_true hne⟩, hexited, rfl⟩

end Zombies

end Wlrdp
