namespace Wlrdp
set_option autoImplicit true

/-- One step of a moving average in which the old value has weight `k`, rounded down. -/
def average (k t x : Nat) : Nat := (x * k + t) / (k + 1)

namespace MovingAverage

theorem le_average (hx : lo ≤ x) (ht : lo ≤ t) : lo ≤ average k t x := by
  rw [average, Nat.le_div_iff_mul_le (Nat.succ_pos k), Nat.mul_succ]
  exact Nat.add_le_add (Nat.mul_le_mul_right k hx) ht

theorem average_le (hx : x ≤ hi) (ht : t ≤ hi) : average k t x ≤ hi := by
  have hmul : x * k ≤ hi * k := Nat.mul_le_mul_right k hx
  rw [average, ← Nat.lt_succ_iff, Nat.div_lt_iff_lt_mul (Nat.succ_pos k), Nat.mul_succ,
    Nat.succ_mul]
  omega

/-- Below the target the average rises, but not above it. -/
theorem rises (h : x ≤ t) : x ≤ average k t x ∧ average k t x ≤ t :=
  ⟨le_average (Nat.le_refl x) h, average_le h (Nat.le_refl t)⟩

/-- Above the target it falls, but not below it. -/
theorem falls (h : t ≤ x) : t ≤ average k t x ∧ average k t x ≤ x :=
  ⟨le_average h (Nat.le_refl t), average_le (Nat.le_refl x) h⟩

theorem rises_strictly (h : x + k < t) : x + 1 ≤ average k t x := by
  rw [average, Nat.le_div_iff_mul_le (Nat.succ_pos k), Nat.mul_succ, Nat.succ_mul]
  omega

theorem falls_strictly (h : t < x) : average k t x + 1 ≤ x := by
  rw [average, Nat.succ_le_iff, Nat.div_lt_iff_lt_mul (Nat.succ_pos k), Nat.mul_succ]
  omega

/-- The rounding leaves `k + 1` fixed points, of which the target is the greatest. -/
theorem average_eq_self (hlo : t ≤ x + k) (hhi : x ≤ t) : average k t x = x := by
  apply Nat.le_antisymm
  · rw [average, ← Nat.lt_succ_iff, Nat.div_lt_iff_lt_mul (Nat.succ_pos k), Nat.succ_mul,
      Nat.mul_succ]
    omega
  · exact (rises hhi).1

/-- How far a value is from the nearest fixed point. -/
def gap (k t x : Nat) : Nat := (x - t) + (t - (x + k))

theorem gap_eq_zero : gap k t x = 0 ↔ t ≤ x + k ∧ x ≤ t := by
  rw [gap]
  omega

/-- Every step closes the gap by at least one. -/
theorem gap_average (k t x : Nat) : gap k t (average k t x) ≤ gap k t x - 1 := by
  rcases Nat.lt_or_ge t x with habove | hle
  · have hfall := falls_strictly (k := k) habove
    have htarget := (falls (k := k) (Nat.le_of_lt habove)).1
    simp only [gap]
    omega
  · have htarget := (rises (k := k) hle).2
    rcases Nat.lt_or_ge (x + k) t with hbelow | hfixed
    · have hrise := rises_strictly hbelow
      simp only [gap]
      omega
    · have hzero : gap k t x = 0 := gap_eq_zero.2 ⟨hfixed, hle⟩
      rw [average_eq_self hfixed hle]
      omega

end MovingAverage
end Wlrdp
