import Mathlib.Algebra.Order.Ring.Nat
import Mathlib.Data.List.DropRight
import Mathlib.Data.Nat.Digits.Lemmas

namespace Wlrdp
set_option autoImplicit true

/-- The bytes of an ASCII text. -/
def ascii (text : String) : List UInt8 := text.toList.map Char.toUInt8

/-! ### Numbers as `printf` writes them -/

def decimal (n : Nat) : List UInt8 :=
  if n = 0 then ascii "0" else (Nat.digits 10 n).reverse.map fun d => d.toUInt8 + 48

/-- `%d`, for a 32-bit pattern. -/
def formatD (x : UInt32) : List UInt8 :=
  if x.toNat < 2147483648 then decimal x.toNat else ascii "-" ++ decimal (4294967296 - x.toNat)

/-- A quotient rounded to the nearest integer, and to the even one of two. -/
def roundHalfEven (a b : Nat) : Nat :=
  if 2 * (a % b) < b ∨ 2 * (a % b) = b ∧ a / b % 2 = 0 then a / b else a / b + 1

/-- The `double` nearest to a quotient, as a mantissa and the power of two that divides it, for
quotients below `2 ^ 53` that are not subnormal. -/
def nearestDouble (a b : Nat) : Nat × Nat :=
  let e := 53 + b.log2 - a.log2
  let e := if a * 2 ^ e / b < 2 ^ 53 then e else e - 1
  (roundHalfEven (a * 2 ^ e) b, e)

/-- A quotient in units of `10 ^ (k - 9)`. -/
def inUnits (a b k : Nat) : Nat := roundHalfEven (a * 10 ^ (9 - k)) (b * 10 ^ (k - 9))

/-- The decimal exponent of a quotient that is written with six digits, plus four. -/
def decimalExponent (a b : Nat) : Nat :=
  ((List.range 13).find? fun k => inUnits a b k < 1000000).getD 13

/-- A number and a fraction of that many places, without the zeros at its end. -/
def withFraction (whole places n : Nat) : List UInt8 :=
  let digits := ((decimal n).leftpad places 48).rdropWhile (· = 48)
  decimal whole ++ if digits = [] then [] else ascii "." ++ digits

/-- `%g` of a quotient that is zero or at least `10 ^ -4`. -/
def formatG (a b : Nat) : List UInt8 :=
  let k := decimalExponent a b
  let n := inUnits a b k
  if k < 10 then withFraction (n / 10 ^ (9 - k)) (9 - k) (n % 10 ^ (9 - k))
  else withFraction (n / 10 ^ 5) 5 (n % 10 ^ 5) ++ ascii "e+" ++ (decimal (k - 4)).leftpad 2 48

/-! ### The bytes and the length -/

/-- What a number can be written with. -/
def numericBytes : List UInt8 := ascii "0123456789+-.e"

/-- A text that is a number in some format. -/
structure Numeric (text : List UInt8) : Prop where
  bytes : ∀ b ∈ text, b ∈ numericBytes
  nonempty : text ≠ []

variable {n k : Nat} {xs ys : List UInt8}

theorem Numeric.of_all (h : xs.all (· ∈ numericBytes) = true) (hne : xs ≠ []) : Numeric xs :=
  ⟨fun b hb => of_decide_eq_true (List.all_eq_true.1 h b hb), hne⟩

theorem Numeric.append (hx : Numeric xs) (hy : ∀ b ∈ ys, b ∈ numericBytes) : Numeric (xs ++ ys) :=
  ⟨fun b hb => (List.mem_append.1 hb).elim (hx.bytes b) (hy b),
    List.append_ne_nil_of_left_ne_nil hx.nonempty ys⟩

theorem decimal_numeric (n : Nat) : Numeric (decimal n) := by
  rw [decimal]
  split
  · exact .of_all (by decide) (by decide)
  · next hn =>
    constructor
    · intro b hb
      obtain ⟨d, hd, rfl⟩ := List.mem_map.1 hb
      have hdigit : ∀ d < 10, d.toUInt8 + 48 ∈ numericBytes := by decide
      exact hdigit d (Nat.digits_lt_base (by decide) (List.mem_reverse.1 hd))
    · intro hnil
      rw [List.map_eq_nil_iff, List.reverse_eq_nil_iff] at hnil
      exact hn (Nat.digits_eq_nil_iff_eq_zero.1 hnil)

theorem decimal_length_le (hk : 0 < k) (h : n < 10 ^ k) : (decimal n).length ≤ k := by
  rw [decimal]
  split
  · exact hk
  · rw [List.length_map, List.length_reverse]
    exact (Nat.digits_length_le_iff (by decide) n).2 h

theorem formatD_numeric (x : UInt32) : Numeric (formatD x) := by
  rw [formatD]
  split
  · exact decimal_numeric _
  · exact (Numeric.of_all (by decide) (by decide)).append (decimal_numeric _).bytes

theorem formatD_length (x : UInt32) : (formatD x).length ≤ 11 := by
  have hx := x.toNat_lt
  rw [formatD]
  split
  · exact Nat.le_succ_of_le (decimal_length_le (by decide) (by omega))
  · have h := decimal_length_le (n := 4294967296 - x.toNat) (k := 10) (by decide) (by omega)
    rw [List.length_append]
    exact Nat.add_le_add (by decide : (ascii "-").length ≤ 1) h

theorem leftpad_numeric (places : Nat) (hx : Numeric xs) : Numeric (xs.leftpad places 48) := by
  rw [List.leftpad]
  refine ⟨fun b hb => ?_, List.append_ne_nil_of_right_ne_nil _ hx.nonempty⟩
  rcases List.mem_append.1 hb with hb | hb
  · rw [List.eq_of_mem_replicate hb]
    decide
  · exact hx.bytes b hb

theorem withFraction_numeric (whole places n : Nat) : Numeric (withFraction whole places n) := by
  rw [withFraction]
  refine (decimal_numeric whole).append fun b hb => ?_
  split at hb
  · cases hb
  · have hpoint : Numeric (ascii ".") := .of_all (by decide) (by decide)
    rcases List.mem_append.1 hb with hb | hb
    · exact hpoint.bytes b hb
    · exact (leftpad_numeric places (decimal_numeric n)).bytes b
        ((List.rdropWhile_prefix ..).subset hb)

theorem withFraction_length {whole places : Nat} (hwhole : (decimal whole).length ≤ 6)
    (hn : (decimal n).length ≤ 6) (hplaces : places ≤ 9) :
    (withFraction whole places n).length ≤ 16 := by
  have hdigits : (((decimal n).leftpad places 48).rdropWhile (· = 48)).length ≤ 9 := by
    have hpad : ((decimal n).leftpad places 48).length ≤ 9 := by
      rw [List.length_leftpad]
      omega
    exact Nat.le_trans (List.rdropWhile_prefix ..).length_le hpad
  rw [withFraction, List.length_append]
  split
  · rw [List.length_nil]
    omega
  · have hpoint : (ascii ".").length = 1 := by decide
    rw [List.length_append, hpoint]
    omega

theorem roundHalfEven_le (a b : Nat) : roundHalfEven a b ≤ a / b + 1 := by
  rw [roundHalfEven]
  split <;> omega

/-- The six digits, for quotients that are not too large. -/
theorem inUnits_lt {a b : Nat} (h : a / (b * 10000) < 999999) :
    inUnits a b (decimalExponent a b) < 1000000 := by
  rw [decimalExponent]
  cases hk : (List.range 13).find? fun k => inUnits a b k < 1000000 with
  | none =>
    have hround := roundHalfEven_le (a * 10 ^ (9 - 13)) (b * 10 ^ (13 - 9))
    have hone : a * 10 ^ (9 - 13) = a := Nat.mul_one a
    rw [hone] at hround
    rw [Option.getD_none, inUnits, hone]
    exact Nat.lt_of_le_of_lt hround (Nat.succ_lt_succ h)
  | some k =>
    have hfound := List.find?_some hk
    exact of_decide_eq_true hfound

theorem decimalExponent_le (a b : Nat) : decimalExponent a b ≤ 13 := by
  rw [decimalExponent]
  cases hk : (List.range 13).find? fun k => inUnits a b k < 1000000 with
  | none => exact Nat.le_refl 13
  | some k => exact Nat.le_of_lt (List.mem_range.1 (List.mem_of_find?_eq_some hk))

theorem formatG_numeric (a b : Nat) : Numeric (formatG a b) := by
  rw [formatG]
  split
  · exact withFraction_numeric ..
  · have hexponent : Numeric (ascii "e+") := .of_all (by decide) (by decide)
    refine ((withFraction_numeric ..).append hexponent.bytes).append ?_
    exact (leftpad_numeric 2 (decimal_numeric _)).bytes

theorem formatG_length {a b : Nat} (h : a / (b * 10000) < 999999) :
    (formatG a b).length ≤ 20 := by
  have hunits := inUnits_lt h
  have hexponent := decimalExponent_le a b
  have hdigits {m : Nat} (hm : m ≤ inUnits a b (decimalExponent a b)) :
      (decimal m).length ≤ 6 := decimal_length_le (by decide) (by omega)
  have hfraction (places : Nat) (hplaces : places ≤ 9) :
      (withFraction (inUnits a b (decimalExponent a b) / 10 ^ places) places
        (inUnits a b (decimalExponent a b) % 10 ^ places)).length ≤ 16 :=
    withFraction_length (hdigits (Nat.div_le_self ..)) (hdigits (Nat.mod_le ..)) hplaces
  rw [formatG]
  split
  · exact Nat.le_trans (hfraction _ (Nat.sub_le ..)) (by decide)
  · have hpower : (decimal (decimalExponent a b - 4)).length ≤ 1 :=
      decimal_length_le (by decide) (by omega)
    have hfive := hfraction 5 (by decide)
    have he : (ascii "e+").length = 2 := by decide
    rw [List.length_append, List.length_append, List.length_leftpad, he]
    omega

/-- The mantissa is at most the rounded quotient. -/
theorem nearestDouble_le (a b : Nat) :
    (nearestDouble a b).1 ≤ a * 2 ^ (nearestDouble a b).2 / b + 1 := roundHalfEven_le ..

theorem nearestDouble_hundredths_lt {s : Nat} (hs : s < 4294967296) :
    (nearestDouble s 100).1 / (2 ^ (nearestDouble s 100).2 * 10000) < 999999 := by
  have hmantissa := nearestDouble_le s 100
  generalize nearestDouble s 100 = d at hmantissa ⊢
  have hpow : 0 < 2 ^ d.2 := Nat.pow_pos (by decide)
  have hproduct : s * 2 ^ d.2 ≤ 4294967295 * 2 ^ d.2 :=
    Nat.mul_le_mul_right _ (Nat.le_of_lt_succ hs)
  rw [Nat.div_lt_iff_lt_mul (Nat.mul_pos hpow (by decide))]
  generalize 2 ^ d.2 = P at hpow hmantissa hproduct ⊢
  omega

/-! ### Numbers as `atoi` reads them -/

def isSpace (b : UInt8) : Bool := b = 32 || 9 ≤ b && b ≤ 13

def isDigit (b : UInt8) : Bool := 48 ≤ b && b ≤ 57

/-- The number that the digits at the beginning of a text write. -/
def digitsValue (text : List UInt8) : Nat :=
  (text.takeWhile isDigit).foldl (fun n b => 10 * n + (b - 48).toNat) 0

/-- `strtol` in base ten, which stops at the limits of a `long`. -/
def strtol (text : List UInt8) : Int :=
  match text.dropWhile isSpace with
  | 45 :: text => max (-(digitsValue text : Int)) (-9223372036854775808)
  | 43 :: text => min (digitsValue text) 9223372036854775807
  | text => min (digitsValue text) 9223372036854775807

/-- `atoi`: the `long` as an `int`. -/
def atoi (text : List UInt8) : Int := (strtol text).bmod 4294967296

/-- The values of an `int`. -/
def FitsInt (x : Int) : Prop := -2147483648 ≤ x ∧ x < 2147483648

instance (x : Int) : Decidable (FitsInt x) := inferInstanceAs (Decidable (_ ∧ _))

/-- `%d`. -/
def formatInt (x : Int) : List UInt8 := formatD (UInt32.ofInt x)

theorem atoi_fits (text : List UInt8) : FitsInt (atoi text) := by
  have hlow := Int.le_bmod (x := strtol text) (m := 4294967296) (by decide)
  have hhigh := Int.bmod_lt (x := strtol text) (m := 4294967296) (by decide)
  exact ⟨hlow, hhigh⟩

theorem decimal_isDigit (n : Nat) : ∀ b ∈ decimal n, isDigit b = true := by
  intro b hb
  rw [decimal] at hb
  split at hb
  · cases List.mem_singleton.1 hb
    rfl
  · obtain ⟨d, hd, rfl⟩ := List.mem_map.1 hb
    have hdigit : ∀ d < 10, isDigit (d.toUInt8 + 48) = true := by decide
    exact hdigit d (Nat.digits_lt_base (by decide) (List.mem_reverse.1 hd))

theorem digitsValue_decimal (n : Nat) : digitsValue (decimal n) = n := by
  have hall : (decimal n).takeWhile isDigit = decimal n :=
    List.takeWhile_eq_self_iff.2 (decimal_isDigit n)
  rw [digitsValue, hall, decimal]
  split
  · next hn =>
    rw [hn]
    rfl
  · rw [List.foldl_map, List.foldl_reverse]
    have hfold : ∀ ds : List Nat, (∀ d ∈ ds, d < 10) →
        ds.foldr (fun d n => 10 * n + (d.toUInt8 + 48 - 48).toNat) 0 = Nat.ofDigits 10 ds := by
      intro ds hds
      induction ds with
      | nil => rfl
      | cons d ds ih =>
        have hd : ∀ d < 10, (d.toUInt8 + 48 - 48).toNat = d := by decide
        rw [List.foldr_cons, ih fun e he => hds e (List.mem_cons_of_mem _ he), Nat.ofDigits_cons,
          hd d (hds d List.mem_cons_self), Nat.add_comm]
    rw [hfold _ fun d hd => Nat.digits_lt_base (by decide) hd, Nat.ofDigits_digits]

theorem dropWhile_isSpace {text : List UInt8} (h : ∀ b ∈ text, isDigit b = true) :
    text.dropWhile isSpace = text := by
  cases text with
  | nil => rfl
  | cons b text =>
    have hb : isSpace b = false := by
      have hd := h b List.mem_cons_self
      simp only [isDigit, Bool.and_eq_true, decide_eq_true_eq] at hd
      simp only [isSpace, Bool.or_eq_false_iff, Bool.and_eq_false_iff, decide_eq_false_iff_not]
      have hlow := UInt8.le_iff_toNat_le.1 hd.1
      refine ⟨?_, Or.inr ?_⟩
      · rintro rfl
        exact absurd hlow (by decide)
      · intro hle
        have hhigh := Nat.le_trans hlow (UInt8.le_iff_toNat_le.1 hle)
        exact absurd hhigh (by decide)
    rw [List.dropWhile_cons, hb]
    rfl

theorem strtol_decimal (h : n < 9223372036854775808) : strtol (decimal n) = n := by
  have hdigits := decimal_isDigit n
  have hvalue := digitsValue_decimal n
  rw [strtol, dropWhile_isSpace hdigits]
  split
  · next heq =>
    rw [heq] at hdigits
    exact absurd (hdigits 45 List.mem_cons_self) (by decide)
  · next heq =>
    rw [heq] at hdigits
    exact absurd (hdigits 43 List.mem_cons_self) (by decide)
  · rw [hvalue]
    omega

theorem strtol_minus (h : n ≤ 9223372036854775808) : strtol (ascii "-" ++ decimal n) = -(n : Int) := by
  have hvalue := digitsValue_decimal n
  change max (-(digitsValue (decimal n) : Int)) _ = _
  rw [hvalue]
  omega

/-- A number that was printed is read as itself. -/
theorem atoi_formatInt (h : FitsInt x) : atoi (formatInt x) = x := by
  obtain ⟨hlow, hhigh⟩ := h
  have hnat : ((UInt32.ofInt x).toNat : Int) = x % 4294967296 := by
    rw [UInt32.ofInt]
    have hpos := Int.emod_nonneg x (by decide : (4294967296 : Int) ≠ 0)
    have hlt := Int.emod_lt_of_pos x (by decide : (0 : Int) < 4294967296)
    rw [UInt32.toNat_ofNat']
    omega
  have hlt := (UInt32.ofInt x).toNat_lt
  rw [atoi, formatInt, formatD]
  split
  · next hsmall =>
    rw [strtol_decimal (by omega), Int.bmod_def]
    omega
  · next hlarge =>
    rw [strtol_minus (by omega), Int.bmod_def]
    omega

end Wlrdp
