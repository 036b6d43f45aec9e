namespace Wlrdp
set_option autoImplicit true

/-- A system whose events carry every choice of the environment, so that a step is a
function of the state and the event. -/
structure System (σ ε : Type) where
  enabled : σ → ε → Prop
  step : σ → ε → σ

namespace System

variable (S : System σ ε)

def run (s : σ) (es : List ε) : σ := es.foldl S.step s

/-- Every event of the run satisfies `C` in the state in which it happens. -/
def Along (C : σ → ε → Prop) : σ → List ε → Prop
  | _, [] => True
  | s, e :: es => C s e ∧ Along C (S.step s e) es

/-- Every event of the run is enabled when it happens. -/
def Legal (s : σ) (es : List ε) : Prop := S.Along S.enabled s es

/-- `P` holds in every state of the run, the first and the last one included. -/
def Always (P : σ → Prop) : σ → List ε → Prop
  | s, [] => P s
  | s, e :: es => P s ∧ Always P (S.step s e) es

/-- The states of the run, the first and the last one included. -/
def states : σ → List ε → List σ
  | s, [] => [s]
  | s, e :: es => s :: states (S.step s e) es

/-- What the events of the run give rise to, in order. -/
def gather (f : σ → ε → List α) : σ → List ε → List α
  | _, [] => []
  | s, e :: es => f s e ++ gather f (S.step s e) es

instance decidableAlong {C : σ → ε → Prop} [hC : ∀ s e, Decidable (C s e)] :
    ∀ s es, Decidable (S.Along C s es)
  | _, [] => .isTrue trivial
  | s, e :: es =>
    have := decidableAlong (C := C) (S.step s e) es
    inferInstanceAs (Decidable (C s e ∧ S.Along C (S.step s e) es))

instance decidableAlways {P : σ → Prop} [hP : DecidablePred P] :
    ∀ s es, Decidable (S.Always P s es)
  | s, [] => hP s
  | s, e :: es =>
    have := decidableAlways (P := P) (S.step s e) es
    inferInstanceAs (Decidable (P s ∧ S.Always P (S.step s e) es))

instance [∀ s e, Decidable (S.enabled s e)] (s : σ) (es : List ε) :
    Decidable (S.Legal s es) := S.decidableAlong s es

variable {S}

@[simp] theorem run_nil (s : σ) : S.run s [] = s := rfl

@[simp] theorem run_cons (s : σ) (e : ε) (es : List ε) :
    S.run s (e :: es) = S.run (S.step s e) es := rfl

theorem run_append (s : σ) (es fs : List ε) :
    S.run s (es ++ fs) = S.run (S.run s es) fs := List.foldl_append

theorem along_append {C : σ → ε → Prop} :
    S.Along C s (es ++ fs) ↔ S.Along C s es ∧ S.Along C (S.run s es) fs := by
  induction es generalizing s with
  | nil => simp [Along]
  | cons e es ih => simp only [List.cons_append, Along, ih, run_cons, and_assoc]

theorem Along.and {C D : σ → ε → Prop} (hC : S.Along C s es) (hD : S.Along D s es) :
    S.Along (fun s e => C s e ∧ D s e) s es := by
  induction es generalizing s with
  | nil => trivial
  | cons e es ih => exact ⟨⟨hC.1, hD.1⟩, ih hC.2 hD.2⟩

theorem along_of_forall {C : ε → Prop} (h : ∀ e ∈ es, C e) :
    S.Along (fun _ => C) s es := by
  induction es generalizing s with
  | nil => trivial
  | cons e es ih => exact ⟨h e List.mem_cons_self, ih fun f hf => h f (List.mem_cons_of_mem _ hf)⟩

theorem along_congr {I : σ → Prop} {C D E : σ → ε → Prop}
    (hinv : ∀ s e, I s → E s e → I (S.step s e))
    (h : ∀ s e, I s → E s e → (C s e ↔ D s e)) (hI : I s) (hE : S.Along E s es) :
    S.Along C s es ↔ S.Along D s es := by
  induction es generalizing s with
  | nil => exact Iff.rfl
  | cons e es ih => exact and_congr (h s e hI hE.1) (ih (hinv s e hI hE.1) hE.2)

theorem states_pairwise {I : σ → Prop} {C : σ → ε → Prop} {R : σ → σ → Prop}
    (hrefl : ∀ s, R s s) (htrans : ∀ a b c, R a b → R b c → R a c)
    (hinv : ∀ s e, I s → C s e → I (S.step s e)) (hR : ∀ s e, I s → C s e → R s (S.step s e))
    (h : I s) (hC : S.Along C s es) :
    (S.states s es).Pairwise R ∧ ∀ t ∈ S.states s es, R s t := by
  induction es generalizing s with
  | nil =>
    refine ⟨List.pairwise_singleton R s, fun t ht => ?_⟩
    rw [List.mem_singleton.1 ht]
    exact hrefl s
  | cons e es ih =>
    obtain ⟨hpairs, hfrom⟩ := ih (hinv s e h hC.1) hC.2
    have hlater : ∀ t ∈ S.states (S.step s e) es, R s t := fun t ht =>
      htrans _ _ _ (hR s e h hC.1) (hfrom t ht)
    refine ⟨List.pairwise_cons.2 ⟨hlater, hpairs⟩, fun t ht => ?_⟩
    rcases List.mem_cons.1 ht with rfl | ht
    · exact hrefl t
    · exact hlater t ht

theorem Always.here {P : σ → Prop} (h : S.Always P s es) : P s := by
  cases es with
  | nil => exact h
  | cons => exact h.1

theorem Always.last {P : σ → Prop} (h : S.Always P s es) : P (S.run s es) := by
  induction es generalizing s with
  | nil => exact h
  | cons e es ih => exact ih h.2

theorem Always.mono {P Q : σ → Prop} (hPQ : ∀ s, P s → Q s) (h : S.Always P s es) :
    S.Always Q s es := by
  induction es generalizing s with
  | nil => exact hPQ s h
  | cons e es ih => exact ⟨hPQ s h.1, ih h.2⟩

/-- The termination rule: a run whose steps all decrease a measure is no longer than that. -/
theorem length_add_measure_le {I : σ → Prop} {C : σ → ε → Prop} (μ : σ → Nat)
    (hinv : ∀ s e, I s → C s e → I (S.step s e)) (hdec : ∀ s e, I s → C s e → μ (S.step s e) < μ s)
    (h : I s) (hC : S.Along C s es) : es.length + μ (S.run s es) ≤ μ s := by
  induction es generalizing s with
  | nil => exact Nat.le_of_eq (Nat.zero_add _)
  | cons e es ih =>
    have hrest := ih (hinv s e h hC.1) hC.2
    have hfirst := hdec s e h hC.1
    rw [List.length_cons, run_cons]
    omega

theorem length_filter_add_measure_le {I : σ → Prop} {C : σ → ε → Prop} (p : ε → Bool) (μ : σ → Nat)
    (hinv : ∀ s e, I s → C s e → I (S.step s e))
    (hdec : ∀ s e, I s → C s e → μ (S.step s e) + (if p e then 1 else 0) ≤ μ s)
    (h : I s) (hC : S.Along C s es) : (es.filter p).length + μ (S.run s es) ≤ μ s := by
  induction es generalizing s with
  | nil => exact Nat.le_of_eq (Nat.zero_add _)
  | cons e es ih =>
    have hrest := ih (hinv s e h hC.1) hC.2
    have hfirst := hdec s e h hC.1
    rw [run_cons]
    cases hp : p e with
    | true =>
      rw [hp, if_pos rfl] at hfirst
      rw [List.filter_cons_of_pos hp, List.length_cons]
      omega
    | false =>
      rw [List.filter_cons_of_neg (by simp [hp])]
      omega

/-- The rule for two runs of the same events: what every step keeps related stays related. -/
theorem run_related {R : σ → σ → Prop} (hstep : ∀ s t e, R s t → R (S.step s e) (S.step t e))
    (h : R s t) : R (S.run s es) (S.run t es) := by
  induction es generalizing s t with
  | nil => exact h
  | cons e es ih => exact ih (hstep s t e h)

/-- The refinement rule: when every step of `S` is a step of `T` on the abstract states, so is every
run. -/
theorem run_abstracts {T : System τ ε} {f : σ → τ} {I : σ → Prop} {C : σ → ε → Prop}
    (hinv : ∀ s e, I s → C s e → I (S.step s e))
    (hstep : ∀ s e, I s → C s e → f (S.step s e) = T.step (f s) e)
    (h : I s) (hC : S.Along C s es) : f (S.run s es) = T.run (f s) es := by
  induction es generalizing s with
  | nil => rfl
  | cons e es ih =>
    rw [run_cons, run_cons, ← hstep s e h hC.1]
    exact ih (hinv s e h hC.1) hC.2

/-- The invariant rule: what the first state satisfies and every step that meets `C`
preserves holds throughout a run whose steps all meet `C`. -/
theorem always_of_step {I : σ → Prop} {C : σ → ε → Prop}
    (hstep : ∀ s e, I s → C s e → I (S.step s e))
    (h : I s) (hC : S.Along C s es) : S.Always I s es := by
  induction es generalizing s with
  | nil => exact h
  | cons e es ih => exact ⟨h, ih (hstep s e h hC.1) hC.2⟩

theorem gathered {J : σ → List α → Prop} {C : σ → ε → Prop} {f : σ → ε → List α}
    (hstep : ∀ s past e, J s past → C s e → J (S.step s e) (past ++ f s e))
    (h : J s past) (hC : S.Along C s es) : J (S.run s es) (past ++ S.gather f s es) := by
  induction es generalizing s past with
  | nil =>
    rw [gather, List.append_nil]
    exact h
  | cons e es ih =>
    rw [gather, ← List.append_assoc]
    exact ih (hstep s past e h hC.1) hC.2

theorem along_of_step {I : σ → Prop} {C D : σ → ε → Prop}
    (hstep : ∀ s e, I s → D s e → I (S.step s e)) (hout : ∀ s e, I s → D s e → C s e)
    (h : I s) (hD : S.Along D s es) : S.Along C s es := by
  induction es generalizing s with
  | nil => trivial
  | cons e es ih => exact ⟨hout s e h hD.1, ih (hstep s e h hD.1) hD.2⟩

theorem always_of_legal {I : σ → Prop} (hstep : ∀ s e, I s → S.enabled s e → I (S.step s e))
    (h : I s) (hl : S.Legal s es) : S.Always I s es :=
  always_of_step hstep h hl

/-- When `C` says exactly which of the steps that meet `D` preserve `P`, a run of such steps
stays within `P` exactly if all of them meet `C`. -/
theorem always_iff_along {I P : σ → Prop} {C D : σ → ε → Prop}
    (hinv : ∀ s e, I s → D s e → I (S.step s e))
    (hstep : ∀ s e, I s → P s → D s e → (P (S.step s e) ↔ C s e))
    (hI : I s) (hP : P s) (hD : S.Along D s es) :
    S.Always P s es ↔ S.Along C s es := by
  induction es generalizing s with
  | nil => exact ⟨fun _ => trivial, fun _ => hP⟩
  | cons e es ih =>
    have hI' := hinv s e hI hD.1
    have he := hstep s e hI hP hD.1
    constructor
    · intro h
      have hP' := h.2.here
      exact ⟨he.1 hP', (ih hI' hP' hD.2).1 h.2⟩
    · intro h
      have hP' := he.2 h.1
      exact ⟨hP, (ih hI' hP' hD.2).2 h.2⟩

/-- When `C` is what keeps the invariant, and a step without it leaves `P`, a run stays within
`P` exactly if all of its steps meet `C`. -/
theorem always_iff_along_of_leaves {I P : σ → Prop} {C D : σ → ε → Prop}
    (hIP : ∀ s, I s → P s) (hkeep : ∀ s e, I s → D s e → C s e → I (S.step s e))
    (hleave : ∀ s e, I s → D s e → P (S.step s e) → C s e)
    (hI : I s) (hD : S.Along D s es) : S.Always P s es ↔ S.Along C s es := by
  induction es generalizing s with
  | nil => exact ⟨fun _ => trivial, fun _ => hIP s hI⟩
  | cons e es ih =>
    constructor
    · intro h
      have hC := hleave s e hI hD.1 h.2.here
      exact ⟨hC, (ih (hkeep s e hI hD.1 hC) hD.2).1 h.2⟩
    · intro h
      exact ⟨hIP s hI, (ih (hkeep s e hI hD.1 h.1) hD.2).2 h.2⟩

end System
end Wlrdp
