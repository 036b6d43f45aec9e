import Wlrdp.TransitionSystems

namespace Wlrdp
set_option autoImplicit true

/-! ### What has happened -/

/-- Something has happened that satisfies `q` with what was before it, and since then only what
satisfies `p`. -/
def Since (p : α → Prop) (q : List α → α → Prop) (past : List α) : Prop :=
  ∃ before a after, past = before ++ a :: after ∧ q before a ∧ ∀ b ∈ after, p b

theorem not_since_nil (p : α → Prop) (q : List α → α → Prop) : ¬ Since p q [] := by
  rintro ⟨before, a, after, hnil, _⟩
  exact List.append_ne_nil_of_right_ne_nil before (List.cons_ne_nil a after) hnil.symm

theorem since_concat {p : α → Prop} {q : List α → α → Prop} :
    Since p q (past ++ [a]) ↔ q past a ∨ Since p q past ∧ p a := by
  constructor
  · rintro ⟨before, b, after, heq, hq, hp⟩
    rcases List.eq_nil_or_concat after with rfl | ⟨rest, c, rfl⟩
    · obtain ⟨rfl, hab⟩ := List.append_inj' heq rfl
      cases hab
      exact .inl hq
    · rw [List.concat_eq_append] at heq hp
      rw [← List.cons_append, ← List.append_assoc] at heq
      obtain ⟨rfl, hac⟩ := List.append_inj' heq rfl
      cases hac
      refine .inr ⟨⟨before, b, rest, rfl, hq, fun d hd => ?_⟩, ?_⟩
      · exact hp d (List.mem_append_left _ hd)
      · exact hp a (List.mem_append_right _ List.mem_cons_self)
  · rintro (hq | ⟨⟨before, b, after, rfl, hq, hp⟩, ha⟩)
    · exact ⟨past, a, [], rfl, hq, List.forall_mem_nil _⟩
    · refine ⟨before, b, after ++ [a], by rw [List.append_assoc, List.cons_append], hq, ?_⟩
      intro c hc
      rcases List.mem_append.1 hc with hc | hc
      · exact hp c hc
      · rw [List.mem_singleton.1 hc]
        exact ha

namespace System

variable {S : System σ ε} {f : σ → ε → List α} {C : List α → ε → Prop} {D E : σ → ε → Prop}
  {J : σ → List α → Prop}

/-- Every event of the run satisfies `C` with what the run has gathered before it. -/
def AlongPast (S : System σ ε) (f : σ → ε → List α) (C : List α → ε → Prop) :
    List α → σ → List ε → Prop
  | _, _, [] => True
  | past, s, e :: es => C past e ∧ AlongPast S f C (past ++ f s e) (S.step s e) es

/-- A condition on the past becomes one on the states, by what the states keep of the past. -/
theorem AlongPast.along (hinv : ∀ s past e, J s past → E s e → J (S.step s e) (past ++ f s e))
    (h : ∀ s past e, J s past → E s e → C past e → D s e) (hJ : J s past) (hE : S.Along E s es)
    (hC : S.AlongPast f C past s es) : S.Along D s es := by
  induction es generalizing s past with
  | nil => trivial
  | cons e es ih => exact ⟨h s past e hJ hE.1 hC.1, ih (hinv s past e hJ hE.1) hE.2 hC.2⟩

theorem Along.alongPast (hinv : ∀ s past e, J s past → E s e → J (S.step s e) (past ++ f s e))
    (h : ∀ s past e, J s past → E s e → D s e → C past e) (hJ : J s past) (hE : S.Along E s es)
    (hD : S.Along D s es) : S.AlongPast f C past s es := by
  induction es generalizing s past with
  | nil => trivial
  | cons e es ih => exact ⟨h s past e hJ hE.1 hD.1, ih (hinv s past e hJ hE.1) hE.2 hD.2⟩

end System

end Wlrdp
