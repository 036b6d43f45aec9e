import Mathlib.Data.Set.Card

namespace Wlrdp
set_option autoImplicit true

/-- A table with `n` slots. A slot in use holds a key and a value. -/
abbrev SlotTable (n : Nat) (κ ν : Type) := Fin n → Option (κ × ν)

namespace SlotTable

variable {t : SlotTable n κ ν}

/-- No key is in two slots. -/
def Keyed (t : SlotTable n κ ν) : Prop :=
  ∀ i j k v w, t i = some (k, v) → t j = some (k, w) → i = j

variable [DecidableEq κ]

/-- The partial map that the table represents: the value in the first slot with the key. -/
def lookup (t : SlotTable n κ ν) (k : κ) : Option ν :=
  (Fin.find? fun i => (t i).any (·.1 = k)).bind fun i => (t i).map Prod.snd

theorem Keyed.lookup_eq_some (h : t.Keyed) : t.lookup k = some v ↔ ∃ i, t i = some (k, v) := by
  have hkey : ∀ i, (t i).any (·.1 = k) = true ↔ ∃ w, t i = some (k, w) := by
    intro i
    rw [Option.any_eq_true]
    constructor
    · rintro ⟨⟨k', w⟩, hi, hk⟩
      cases of_decide_eq_true hk
      exact ⟨w, hi⟩
    · rintro ⟨w, hi⟩
      exact ⟨(k, w), hi, decide_eq_true rfl⟩
  constructor
  · intro hv
    obtain ⟨i, hfind, hi⟩ := Option.bind_eq_some_iff.1 hv
    obtain ⟨w, hw⟩ := (hkey i).1 (Fin.eq_true_of_find?_eq_some hfind)
    rw [hw] at hi
    cases hi
    exact ⟨i, hw⟩
  · rintro ⟨i, hi⟩
    obtain ⟨j, hfind⟩ := Option.isSome_iff_exists.1
      (Fin.isSome_find?_of_eq_true (p := fun i => (t i).any (·.1 = k)) ((hkey i).2 ⟨v, hi⟩))
    obtain ⟨w, hw⟩ := (hkey j).1 (Fin.eq_true_of_find?_eq_some hfind)
    cases h i j k v w hi hw
    rw [lookup, hfind]
    exact congrArg (Option.map Prod.snd) hi

theorem Keyed.lookup_eq_none (h : t.Keyed) : t.lookup k = none ↔ ∀ i v, t i ≠ some (k, v) := by
  rw [Option.eq_none_iff_forall_ne_some]
  constructor
  · intro hn i v hi
    exact hn v (h.lookup_eq_some.2 ⟨i, hi⟩)
  · intro hn v hv
    obtain ⟨i, hi⟩ := h.lookup_eq_some.1 hv
    exact hn i v hi

/-- A map with the table's entries is the one it represents. -/
theorem Keyed.lookup_eq {m : κ → Option ν} (h : t.Keyed)
    (hm : ∀ k v, m k = some v ↔ ∃ i, t i = some (k, v)) : t.lookup = m := by
  funext k
  apply Option.ext
  intro v
  rw [h.lookup_eq_some, hm]

theorem Keyed.put (h : t.Keyed) (hk : t.lookup k = none) (i : Fin n) (v : ν) :
    Keyed (Function.update t i (some (k, v))) := by
  have hnew := h.lookup_eq_none.1 hk
  intro a b k' u w ha hb
  by_cases hai : a = i <;> by_cases hbi : b = i
  · exact hai.trans hbi.symm
  · rw [hai, Function.update_self] at ha
    rw [Function.update_of_ne hbi] at hb
    cases ha
    exact absurd hb (hnew b w)
  · rw [hbi, Function.update_self] at hb
    rw [Function.update_of_ne hai] at ha
    cases hb
    exact absurd ha (hnew a u)
  · rw [Function.update_of_ne hai] at ha
    rw [Function.update_of_ne hbi] at hb
    exact h a b k' u w ha hb

/-- Filling an empty slot with a new key adds it to the map. -/
theorem Keyed.lookup_put (h : t.Keyed) (hi : t i = none) (hk : t.lookup k = none) (v : ν) :
    lookup (Function.update t i (some (k, v))) = Function.update t.lookup k (some v) := by
  have hnew := h.lookup_eq_none.1 hk
  apply (h.put hk i v).lookup_eq
  intro k' w
  by_cases hkk : k' = k
  · subst hkk
    rw [Function.update_self]
    constructor
    · intro hw
      cases hw
      exact ⟨i, Function.update_self ..⟩
    · rintro ⟨j, hj⟩
      by_cases hji : j = i
      · rw [hji, Function.update_self] at hj
        cases hj
        rfl
      · rw [Function.update_of_ne hji] at hj
        exact absurd hj (hnew j w)
  · rw [Function.update_of_ne hkk, h.lookup_eq_some]
    apply exists_congr
    intro j
    by_cases hji : j = i
    · rw [hji, Function.update_self, hi]
      constructor
      · intro hw
        cases hw
      · intro hw
        cases hw
        exact absurd rfl hkk
    · rw [Function.update_of_ne hji]

/-- How many keys a partial map has. -/
noncomputable def size (m : κ → Option ν) : Nat := {k | (m k).isSome}.ncard

theorem Keyed.size_lookup (h : t.Keyed) : size t.lookup = {i | (t i).isSome}.ncard := by
  symm
  apply Set.ncard_congr fun i hi => ((t i).get hi).1
  · intro i hi
    have hv : t.lookup ((t i).get hi).1 = some ((t i).get hi).2 :=
      h.lookup_eq_some.2 ⟨i, (Option.some_get hi).symm⟩
    exact Option.isSome_iff_exists.2 ⟨_, hv⟩
  · intro i j hi hj hij
    apply h i j ((t i).get hi).1 ((t i).get hi).2 ((t j).get hj).2 (Option.some_get hi).symm
    rw [hij]
    exact (Option.some_get hj).symm
  · intro k hk
    obtain ⟨v, hv⟩ := Option.isSome_iff_exists.1 hk
    obtain ⟨i, hi⟩ := h.lookup_eq_some.1 hv
    have hsome : (t i).isSome := Option.isSome_iff_exists.2 ⟨_, hi⟩
    refine ⟨i, hsome, ?_⟩
    simp only [hi, Option.get_some]

/-- The table is full exactly if its map has as many keys as there are slots. -/
theorem Keyed.full_iff (h : t.Keyed) : (∀ i, (t i).isSome) ↔ size t.lookup = n := by
  have hcard := Set.eq_univ_iff_ncard {i | (t i).isSome}
  rw [Nat.card_eq_fintype_card, Fintype.card_fin, ← h.size_lookup] at hcard
  rw [← hcard, Set.eq_univ_iff_forall]
  exact Iff.rfl

end SlotTable
end Wlrdp
