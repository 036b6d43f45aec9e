import Mathlib.Algebra.Order.Field.Rat
import Mathlib.Tactic.FieldSimp
import Mathlib.Tactic.Linarith
import Mathlib.Tactic.NormNum
import Mathlib.Tactic.Positivity
import Mathlib.Tactic.Ring
import Wlrdp.DecimalTexts

namespace Wlrdp
set_option autoImplicit true

/-! ### The number that a text writes -/

/-- The digits at the beginning of a text, behind a point. -/
def fractionValue (text : List UInt8) : ℚ :=
  digitsValue text / 10 ^ (text.takeWhile isDigit).length

/-- The number at the beginning of a text, without an exponent. -/
def fixedValue (text : List UInt8) : ℚ :=
  match text.dropWhile isDigit with
  | 46 :: fraction => digitsValue text + fractionValue fraction
  | _ => digitsValue text

/-- The number at the beginning of a text that has neither a sign nor a negative exponent. -/
def readDecimal (text : List UInt8) : ℚ :=
  match text.dropWhile fun b => isDigit b || b = 46 with
  | 101 :: 43 :: exponent => fixedValue text * 10 ^ digitsValue exponent
  | _ => fixedValue text

/-- A number of at most six digits, and zeros behind them. -/
def SixDigits (n : Nat) : Prop := ∃ m < 1000000, ∃ j, n = m * 10 ^ j

/-! ### Reading digits -/

variable {a b k n s : Nat} {xs rest : List UInt8}

theorem dropWhile_append_stop {p : UInt8 → Bool} (hx : ∀ b ∈ xs, p b = true)
    (hr : ∀ b ∈ rest.head?, p b = false) : (xs ++ rest).dropWhile p = rest := by
  rw [List.dropWhile_append_of_pos hx]
  cases rest with
  | nil => rfl
  | cons b rest => rw [List.dropWhile_cons, hr b rfl, if_neg Bool.false_ne_true]

theorem takeWhile_append_stop {p : UInt8 → Bool} (hx : ∀ b ∈ xs, p b = true)
    (hr : ∀ b ∈ rest.head?, p b = false) : (xs ++ rest).takeWhile p = xs := by
  rw [List.takeWhile_append_of_pos hx]
  cases rest with
  | nil => exact List.append_nil xs
  | cons b rest => rw [List.takeWhile_cons, hr b rfl, if_neg Bool.false_ne_true, List.append_nil]

theorem digitsValue_append_stop (hx : ∀ b ∈ xs, isDigit b = true)
    (hr : ∀ b ∈ rest.head?, isDigit b = false) :
    digitsValue (xs ++ rest) = digitsValue xs := by
  rw [digitsValue, digitsValue, takeWhile_append_stop hx hr, List.takeWhile_eq_self_iff.2 hx]

theorem digitsValue_concat (hx : ∀ b ∈ xs, isDigit b = true) (hd : isDigit d = true) :
    digitsValue (xs ++ [d]) = 10 * digitsValue xs + (d - 48).toNat := by
  have hall : ∀ b ∈ xs ++ [d], isDigit b = true := by
    intro b hb
    rcases List.mem_append.1 hb with hb | hb
    · exact hx b hb
    · exact List.mem_singleton.1 hb ▸ hd
  rw [digitsValue, digitsValue, List.takeWhile_eq_self_iff.2 hall, List.takeWhile_eq_self_iff.2 hx,
    List.foldl_concat]

theorem fractionValue_digits (hx : ∀ b ∈ xs, isDigit b = true) :
    fractionValue xs = digitsValue xs / 10 ^ xs.length := by
  rw [fractionValue, List.takeWhile_eq_self_iff.2 hx]

theorem fractionValue_append_stop (hx : ∀ b ∈ xs, isDigit b = true)
    (hr : ∀ b ∈ rest.head?, isDigit b = false) :
    fractionValue (xs ++ rest) = fractionValue xs := by
  rw [fractionValue, digitsValue_append_stop hx hr, takeWhile_append_stop hx hr,
    fractionValue_digits hx]

/-- Zeros at the end of a fraction change nothing. -/
theorem fractionValue_rdropWhile (hx : ∀ b ∈ xs, isDigit b = true) :
    fractionValue (xs.rdropWhile (· = 48)) = fractionValue xs := by
  induction xs using List.reverseRecOn with
  | nil => rfl
  | append_singleton xs d ih =>
    have hxs : ∀ b ∈ xs, isDigit b = true := fun b hb => hx b (List.mem_append_left _ hb)
    rw [List.rdropWhile_concat]
    split
    · next hzero =>
      have hd : d = 48 := of_decide_eq_true hzero
      subst hd
      rw [ih hxs, fractionValue_digits hx, fractionValue_digits hxs,
        digitsValue_concat hxs (by decide), List.length_append, List.length_singleton, pow_succ]
      push_cast
      have hpow : (10 : ℚ) ^ xs.length ≠ 0 := by positivity
      field_simp
      norm_num
    · rfl

theorem digitsValue_leftpad (places : Nat) (xs : List UInt8) :
    digitsValue (xs.leftpad places 48) = digitsValue xs := by
  rw [List.leftpad]
  induction places - xs.length with
  | zero => rfl
  | succ z ih => exact ih

theorem leftpad_isDigit (places : Nat) (hx : ∀ b ∈ xs, isDigit b = true) :
    ∀ b ∈ xs.leftpad places 48, isDigit b = true := by
  intro b hb
  rw [List.leftpad] at hb
  rcases List.mem_append.1 hb with hb | hb
  · rw [List.eq_of_mem_replicate hb]
    rfl
  · exact hx b hb

theorem fractionValue_leftpad (h : n < 10 ^ k) :
    fractionValue ((decimal n).leftpad k 48) = n / 10 ^ k := by
  rw [fractionValue_digits (leftpad_isDigit k (decimal_isDigit n)), digitsValue_leftpad,
    digitsValue_decimal, List.length_leftpad]
  cases k with
  | zero =>
    rw [Nat.lt_one_iff.1 h]
    norm_num
  | succ k => rw [Nat.max_eq_left (decimal_length_le (Nat.succ_pos k) h)]

/-! ### Reading what `%g` writes -/

/-- What stops the digits and the point. -/
def stops (rest : List UInt8) : Prop := ∀ b ∈ rest.head?, (isDigit b || b = 46) = false

theorem fixedValue_withFraction (h : n < 10 ^ k) (hr : stops rest) :
    fixedValue (withFraction a k n ++ rest) = a + n / 10 ^ k := by
  have hdigits : ∀ b ∈ ((decimal n).leftpad k 48).rdropWhile (· = 48), isDigit b = true :=
    fun b hb => leftpad_isDigit k (decimal_isDigit n) b ((List.rdropWhile_prefix ..).subset hb)
  have hvalue : fractionValue (((decimal n).leftpad k 48).rdropWhile (· = 48)) = n / 10 ^ k := by
    rw [fractionValue_rdropWhile (leftpad_isDigit k (decimal_isDigit n)), fractionValue_leftpad h]
  have hstop : ∀ b ∈ rest.head?, isDigit b = false := by
    intro b hb
    exact (Bool.or_eq_false_iff.1 (hr b hb)).1
  have hpoint : ∀ b ∈ rest.head?, b ≠ 46 := by
    intro b hb
    exact of_decide_eq_false (Bool.or_eq_false_iff.1 (hr b hb)).2
  rw [withFraction]
  generalize ((decimal n).leftpad k 48).rdropWhile (· = 48) = digits at hdigits hvalue ⊢
  split
  · next hnil =>
    subst hnil
    rw [List.append_nil, fixedValue, dropWhile_append_stop (decimal_isDigit a) hstop,
      digitsValue_append_stop (decimal_isDigit a) hstop, digitsValue_decimal, ← hvalue]
    have hzero : fractionValue [] = 0 := by
      rw [fractionValue_digits (by simp)]
      norm_num [digitsValue]
    rw [hzero, add_zero]
    split
    · exact absurd rfl (hpoint 46 rfl)
    · rfl
  · have hhead : ∀ b ∈ (ascii "." ++ digits ++ rest).head?, isDigit b = false := by
      intro b hb
      cases hb
      decide
    have hdot : ascii "." ++ digits ++ rest = 46 :: (digits ++ rest) := rfl
    rw [List.append_assoc, fixedValue, dropWhile_append_stop (decimal_isDigit a) hhead,
      digitsValue_append_stop (decimal_isDigit a) hhead, digitsValue_decimal, hdot]
    change a + fractionValue (digits ++ rest) = _
    rw [fractionValue_append_stop hdigits hstop, hvalue]

theorem dropWhile_withFraction (a k n : Nat) (hr : stops rest) :
    (withFraction a k n ++ rest).dropWhile (fun b => isDigit b || b = 46) = rest := by
  apply dropWhile_append_stop _ hr
  have hdecimal (m : Nat) : ∀ b ∈ decimal m, (isDigit b || b = 46) = true := by
    intro b hb
    rw [decimal_isDigit m b hb, Bool.true_or]
  intro b hb
  rw [withFraction] at hb
  rcases List.mem_append.1 hb with hb | hb
  · exact hdecimal a b hb
  · split at hb
    · cases hb
    · rcases List.mem_append.1 hb with hb | hb
      · cases List.mem_singleton.1 hb
        decide
      · rw [leftpad_isDigit k (decimal_isDigit n) b ((List.rdropWhile_prefix ..).subset hb),
          Bool.true_or]

/-- `%g` writes the digits that it rounds to. -/
theorem readDecimal_formatG (a b : Nat) :
    readDecimal (formatG a b) =
      inUnits a b (decimalExponent a b) * 10 ^ decimalExponent a b / 10 ^ 9 := by
  have hsplit (places n : Nat) :
      ((n / 10 ^ places : Nat) : ℚ) + (n % 10 ^ places : Nat) / 10 ^ places = n / 10 ^ places := by
    have hpow : (10 : ℚ) ^ places ≠ 0 := by positivity
    have hdiv : ((10 ^ places * (n / 10 ^ places) + n % 10 ^ places : Nat) : ℚ) = n := by
      rw [Nat.div_add_mod]
    push_cast at hdiv
    field_simp
    linarith
  have hrem (places n : Nat) : n % 10 ^ places < 10 ^ places := Nat.mod_lt _ (by positivity)
  rw [formatG]
  generalize decimalExponent a b = k
  generalize inUnits a b k = n
  split
  · next hk =>
    have hnil : stops [] := by
      intro b hb
      cases hb
    have hpow : (10 : ℚ) ^ 9 = 10 ^ (9 - k) * 10 ^ k := by
      rw [← pow_add, Nat.sub_add_cancel (by omega)]
    rw [← List.append_nil (withFraction _ _ _), readDecimal, dropWhile_withFraction _ _ _ hnil]
    dsimp only
    rw [fixedValue_withFraction (hrem _ _) hnil, hsplit, hpow]
    field_simp
  · next hk =>
    have he : stops (ascii "e+" ++ (decimal (k - 4)).leftpad 2 48) := by
      intro b hb
      cases hb
      decide
    have htext : ascii "e+" ++ (decimal (k - 4)).leftpad 2 48 =
        101 :: 43 :: (decimal (k - 4)).leftpad 2 48 := rfl
    have hpow : (10 : ℚ) ^ k = 10 ^ (k - 4) * 10 ^ 4 := by
      rw [← pow_add, Nat.sub_add_cancel (by omega)]
    rw [List.append_assoc, readDecimal, dropWhile_withFraction _ _ _ he,
      fixedValue_withFraction (hrem _ _) he, hsplit, htext]
    change _ * 10 ^ digitsValue ((decimal (k - 4)).leftpad 2 48) = _
    rw [digitsValue_leftpad, digitsValue_decimal, hpow]
    ring

/-! ### Rounding -/

theorem roundHalfEven_near (hb : 0 < b) : |(roundHalfEven a b : ℚ) - a / b| ≤ 1 / 2 := by
  have hq : (0 : ℚ) < b := by exact_mod_cast hb
  have hnear : 2 * (roundHalfEven a b * b) ≤ 2 * a + b ∧
      2 * a ≤ 2 * (roundHalfEven a b * b) + b := by
    have hdiv := Nat.div_add_mod' a b
    have hmod := Nat.mod_lt a hb
    rw [roundHalfEven]
    split
    · omega
    · rw [Nat.add_mul, Nat.one_mul]
      omega
  have hlow : (2 : ℚ) * (roundHalfEven a b * b) ≤ 2 * a + b := by exact_mod_cast hnear.1
  have hhigh : (2 : ℚ) * a ≤ 2 * (roundHalfEven a b * b) + b := by exact_mod_cast hnear.2
  rw [abs_le]
  constructor
  · rw [neg_le_sub_iff_le_add, div_le_iff₀ hq]
    linarith
  · rw [sub_le_iff_le_add, ← sub_le_iff_le_add', le_div_iff₀ hq]
    linarith

/-- What is nearer to an integer than a half is rounded to it. -/
theorem roundHalfEven_eq (hb : 0 < b) (h : |(n : ℚ) - a / b| < 1 / 2) : roundHalfEven a b = n := by
  have hround := abs_le.1 (roundHalfEven_near (a := a) hb)
  have hn := abs_lt.1 h
  have hlow : (n : ℚ) < roundHalfEven a b + 1 := by linarith
  have hhigh : (roundHalfEven a b : ℚ) < n + 1 := by linarith
  have hlow' : n < roundHalfEven a b + 1 := by exact_mod_cast hlow
  have hhigh' : roundHalfEven a b < n + 1 := by exact_mod_cast hhigh
  omega

/-- The quotient that `inUnits` rounds. -/
theorem inUnits_quotient (a b k : Nat) :
    ((a * 10 ^ (9 - k) : Nat) : ℚ) / (b * 10 ^ (k - 9) : Nat) = a / b * (10 ^ 9 / 10 ^ k) := by
  have hpow : (10 : ℚ) ^ (9 - k) / 10 ^ (k - 9) = 10 ^ 9 / 10 ^ k := by
    rw [div_eq_div_iff (by positivity) (by positivity), ← pow_add, ← pow_add]
    congr 1
    omega
  push_cast
  rw [mul_div_mul_comm, hpow]

theorem inUnits_near (hb : 0 < b) (k : Nat) :
    |(inUnits a b k : ℚ) - a / b * (10 ^ 9 / 10 ^ k)| ≤ 1 / 2 := by
  rw [← inUnits_quotient]
  exact roundHalfEven_near (by positivity)

theorem inUnits_eq (hb : 0 < b) (h : |(n : ℚ) - a / b * (10 ^ 9 / 10 ^ k)| < 1 / 2) :
    inUnits a b k = n := by
  rw [← inUnits_quotient] at h
  exact roundHalfEven_eq (by positivity) h

theorem decimalExponent_min (h : k < decimalExponent a b) : 1000000 ≤ inUnits a b k := by
  have hlt := Nat.lt_of_lt_of_le h (decimalExponent_le a b)
  rw [decimalExponent] at h
  cases hf : (List.range 13).find? fun k => inUnits a b k < 1000000 with
  | none =>
    have hnone := List.find?_range_eq_none.1 hf k hlt
    simpa using hnone
  | some i =>
    rw [hf, Option.getD_some] at h
    have hmin := (List.find?_range_eq_some.1 hf).2.2 k h
    simpa using hmin

/-- The double nearest to a number of hundredths is within `2 ^ -28` of it. -/
theorem nearestDouble_near (hs : s < 4294967296) :
    |((nearestDouble s 100).1 : ℚ) / 2 ^ (nearestDouble s 100).2 - s / 100| ≤ 1 / 2 ^ 28 := by
  have he : 27 ≤ (nearestDouble s 100).2 := by
    have hlog : s.log2 < 32 := by
      by_cases h0 : s = 0
      · rw [h0]
        decide
      · exact (Nat.log2_lt h0).2 hs
    have hhundred : Nat.log2 100 = 6 := by decide
    rw [nearestDouble, hhundred]
    dsimp only
    split <;> omega
  have hround := roundHalfEven_near (a := s * 2 ^ (nearestDouble s 100).2) (b := 100) (by decide)
  have hmantissa : (nearestDouble s 100).1 =
      roundHalfEven (s * 2 ^ (nearestDouble s 100).2) 100 := rfl
  rw [hmantissa]
  generalize (nearestDouble s 100).2 = e at he hround ⊢
  have hpos : (0 : ℚ) < 2 ^ e := by positivity
  have hpow : (2 : ℚ) ^ 27 ≤ 2 ^ e := pow_le_pow_right₀ (by norm_num) he
  push_cast at hround
  have hscaled : ((roundHalfEven (s * 2 ^ e) 100 : Nat) : ℚ) / 2 ^ e - s / 100 =
      (roundHalfEven (s * 2 ^ e) 100 - s * 2 ^ e / 100) / 2 ^ e := by
    field_simp
  rw [hscaled, abs_div, abs_of_pos hpos, div_le_iff₀ hpos]
  calc |(roundHalfEven (s * 2 ^ e) 100 : ℚ) - s * 2 ^ e / 100|
    _ ≤ 1 / 2 := hround
    _ = 1 / 2 ^ 28 * 2 ^ 27 := by norm_num
    _ ≤ 1 / 2 ^ 28 * 2 ^ e := by linarith

/-! ### Six digits -/

/-- The number of units that is rounded differs little from that of the hundredths. -/
theorem units_hundredths (hs : s < 4294967296) (k : Nat) :
    |((nearestDouble s 100).1 : ℚ) / (2 ^ (nearestDouble s 100).2 : Nat) * (10 ^ 9 / 10 ^ k) -
      s * (10 ^ 7 / 10 ^ k)| ≤ 10 ^ 9 / 10 ^ k / 2 ^ 28 := by
  have hnear := nearestDouble_near hs
  generalize nearestDouble s 100 = d at hnear ⊢
  have hunits : (0 : ℚ) ≤ 10 ^ 9 / 10 ^ k := by positivity
  have hsame : (d.1 : ℚ) / (2 ^ d.2 : Nat) * (10 ^ 9 / 10 ^ k) - s * (10 ^ 7 / 10 ^ k) =
      (d.1 / 2 ^ d.2 - s / 100) * (10 ^ 9 / 10 ^ k) := by
    push_cast
    ring
  rw [hsame, abs_mul, abs_of_nonneg hunits]
  calc |(d.1 : ℚ) / 2 ^ d.2 - s / 100| * (10 ^ 9 / 10 ^ k)
    _ ≤ 1 / 2 ^ 28 * (10 ^ 9 / 10 ^ k) := mul_le_mul_of_nonneg_right hnear hunits
    _ = 10 ^ 9 / 10 ^ k / 2 ^ 28 := by ring

section
variable {M D : Nat}

/-- A number of hundredths that is not zero is written in units of a tenth of a millionth at
least. -/
theorem two_le_of_units (hs : 0 < s) (hD : 0 < D)
    (hv : ∀ k : Nat, |(M : ℚ) / D * (10 ^ 9 / 10 ^ k) - s * (10 ^ 7 / 10 ^ k)| ≤
      10 ^ 9 / 10 ^ k / 2 ^ 28)
    (hk : inUnits M D k < 1000000) : 2 ≤ k := by
  have hone : (1 : ℚ) ≤ s := by exact_mod_cast hs
  have hunits : (inUnits M D k : ℚ) ≤ 999999 := by exact_mod_cast Nat.le_of_lt_succ hk
  have hround := abs_le.1 (inUnits_near (a := M) hD k)
  have hnear := abs_le.1 (hv k)
  by_contra hlt
  have hcases : k = 0 ∨ k = 1 := by omega
  rcases hcases with rfl | rfl
  · norm_num at hround hnear
    linarith
  · norm_num at hround hnear
    linarith

/-- One unit less than the trailing zeros allow would still do. -/
theorem decimalExponent_le_zeros {m j : Nat} (hm : m < 1000000) (hD : 0 < D)
    (hv : ∀ k : Nat, |(M : ℚ) / D * (10 ^ 9 / 10 ^ k) - (m * 10 ^ j : Nat) * (10 ^ 7 / 10 ^ k)| ≤
      10 ^ 9 / 10 ^ k / 2 ^ 28) : decimalExponent M D ≤ j + 7 := by
  by_contra hlt
  have hmin : (1000000 : ℚ) ≤ inUnits M D (j + 7) := by
    exact_mod_cast decimalExponent_min (Nat.lt_of_not_le hlt)
  have hsix : (m : ℚ) ≤ 999999 := by exact_mod_cast Nat.le_of_lt_succ hm
  have hround := abs_le.1 (inUnits_near (a := M) hD (j + 7))
  have hnear := abs_le.1 (hv (j + 7))
  have hpos : (0 : ℚ) < 10 ^ j := by positivity
  have hunit : ((m * 10 ^ j : Nat) : ℚ) * (10 ^ 7 / 10 ^ (j + 7)) = m := by
    push_cast
    rw [pow_add]
    field_simp
  have hsmall : (10 : ℚ) ^ 9 / 10 ^ (j + 7) ≤ 100 := by
    have hone : (1 : ℚ) ≤ 10 ^ j := one_le_pow₀ (by norm_num)
    rw [div_le_iff₀ (by positivity), pow_add]
    linarith
  rw [hunit] at hnear
  linarith

end

theorem sixDigits_of_units (hunits : n < 1000000) (heq : n * 10 ^ k = s * 10 ^ 7) :
    SixDigits s := by
  rcases Nat.le_total 7 k with hk | hk
  · refine ⟨n, hunits, k - 7, ?_⟩
    apply Nat.eq_of_mul_eq_mul_right (by decide : 0 < 10 ^ 7)
    rw [Nat.mul_assoc, ← pow_add, Nat.sub_add_cancel hk]
    exact heq.symm
  · refine ⟨s, ?_, 0, (Nat.mul_one s).symm⟩
    calc s
      _ ≤ s * 10 ^ (7 - k) := Nat.le_mul_of_pos_right s (by positivity)
      _ = n := by
        apply Nat.eq_of_mul_eq_mul_right (by positivity : 0 < 10 ^ k)
        rw [Nat.mul_assoc, ← pow_add, Nat.sub_add_cancel hk]
        exact heq.symm
      _ < 1000000 := hunits

theorem zeros_in_units {j : Nat} (m : Nat) (hle : k ≤ j + 7) :
    ((m * 10 ^ (j + 7 - k) : Nat) : ℚ) = (m * 10 ^ j : Nat) * (10 ^ 7 / 10 ^ k) := by
  have hpow : (10 : ℚ) ^ (j + 7 - k) * 10 ^ k = 10 ^ j * 10 ^ 7 := by
    rw [← pow_add, ← pow_add, Nat.sub_add_cancel hle]
  push_cast
  field_simp
  rw [mul_assoc, hpow, mul_assoc]

/-- `%g` writes a number of hundredths as it is exactly if six digits suffice. -/
theorem readDecimal_hundredths (hs : s < 4294967296) :
    readDecimal (formatG (nearestDouble s 100).1 (2 ^ (nearestDouble s 100).2)) = s / 100 ↔
      SixDigits s := by
  have hD : 0 < 2 ^ (nearestDouble s 100).2 := by positivity
  have hv := units_hundredths hs
  have hunits := inUnits_lt (nearestDouble_hundredths_lt hs)
  have hnone : s = 0 → (nearestDouble s 100).1 = 0 := by
    rintro rfl
    decide
  rw [readDecimal_formatG]
  generalize (nearestDouble s 100).1 = M at hv hunits hnone ⊢
  generalize 2 ^ (nearestDouble s 100).2 = D at hD hv hunits ⊢
  constructor
  · intro heq
    generalize decimalExponent M D = k at heq hunits
    rw [div_eq_div_iff (by norm_num) (by norm_num)] at heq
    have hcast : (inUnits M D k : ℚ) * 10 ^ k = s * 10 ^ 7 := by linarith
    have hnat : inUnits M D k * 10 ^ k = s * 10 ^ 7 := by exact_mod_cast hcast
    exact sixDigits_of_units hunits hnat
  · rintro ⟨m, hm, j, rfl⟩
    rcases Nat.eq_zero_or_pos (m * 10 ^ j) with hzero | hpos
    · have hround : inUnits M D (decimalExponent M D) = 0 := by
        apply inUnits_eq hD
        rw [hnone hzero]
        norm_num
      rw [hround, hzero]
      norm_num
    · have hle := decimalExponent_le_zeros hm hD hv
      have htwo := two_le_of_units hpos hD hv hunits
      generalize decimalExponent M D = k at hle htwo ⊢
      have hwhole := zeros_in_units m hle
      have hsmall : (10 : ℚ) ^ 9 / 10 ^ k / 2 ^ 28 < 1 / 2 := by
        have hhundred : (10 : ℚ) ^ 2 ≤ 10 ^ k := pow_le_pow_right₀ (by norm_num) htwo
        rw [div_div, div_lt_iff₀ (by positivity)]
        linarith
      have hround : inUnits M D k = m * 10 ^ (j + 7 - k) := by
        apply inUnits_eq hD
        rw [hwhole, abs_sub_comm]
        exact lt_of_le_of_lt (hv k) hsmall
      rw [hround, hwhole]
      field_simp
      norm_num

end Wlrdp
