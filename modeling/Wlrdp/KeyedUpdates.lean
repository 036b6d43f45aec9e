import Mathlib.Data.List.DropRight

namespace Wlrdp
set_option autoImplicit true

variable [DecidableEq κ] (key : α → κ)

/-- A register that ignores an update with the key that it has already. -/
def refresh (a b : α) : α := if key a = key b then a else b

theorem key_refresh (a b : α) : key (refresh key a b) = key b := by
  rw [refresh]
  split
  · next h => exact h
  · rfl

/-- The values of the register and its updates since the key became `k` for the last time. -/
def sinceKey (k : κ) (as : List α) : List α := as.rtakeWhile fun a => key a = k

/-- A register that has the key `k` has the first value since it became `k`. -/
theorem head_sinceKey (k : κ) (a : α) (bs : List α) :
    (sinceKey key k (a :: bs)).head? =
      if key (bs.foldl (refresh key) a) = k then some (bs.foldl (refresh key) a) else none := by
  induction bs using List.reverseRecOn with
  | nil =>
    have hsingle : [a] = [] ++ [a] := rfl
    rw [sinceKey, hsingle, List.rtakeWhile_concat, List.foldl_nil]
    by_cases hk : key a = k
    · rw [if_pos hk, if_pos (decide_eq_true hk), List.rtakeWhile_nil]
      rfl
    · rw [if_neg hk, if_neg (by simpa using hk)]
      rfl
  | append_singleton bs b ih =>
    rw [sinceKey, ← List.cons_append, List.rtakeWhile_concat, List.foldl_concat, key_refresh key]
    by_cases hk : key b = k
    · rw [if_pos hk, if_pos (decide_eq_true hk), List.head?_append]
      rw [sinceKey] at ih
      rw [ih, refresh, hk]
      split
      · rfl
      · rfl
    · rw [if_neg hk, if_neg (by simpa using hk)]
      rfl

end Wlrdp
