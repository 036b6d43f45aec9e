import Mathlib.Data.List.DropRight

namespace Wlrdp.Unicode
set_option autoImplicit true

/-! ### Texts and their encodings -/

def utf8 (text : List Char) : List UInt8 := text.flatMap String.utf8EncodeChar

/-- The code units of a character: itself, or a surrogate pair. -/
def utf16EncodeChar (c : Char) : List UInt16 :=
  if c.toNat < 0x10000 then [c.toNat.toUInt16]
  else [(0xD800 + (c.toNat - 0x10000) / 1024).toUInt16, (0xDC00 + c.toNat % 1024).toUInt16]

def utf16 (text : List Char) : List UInt16 := text.flatMap utf16EncodeChar

def isSurrogate (unit : UInt16) : Bool := 0xD800 ≤ unit && unit < 0xE000

/-- The character of a surrogate pair. -/
def pairChar (high low : UInt16) : Char :=
  Char.ofNat (0x10000 + (high.toNat - 0xD800) * 1024 + (low.toNat - 0xDC00))

/-- The text that the code units encode, or `none` at a surrogate without its partner. -/
def decode16 : List UInt16 → Option (List Char)
  | [] => some []
  | [unit] => if isSurrogate unit then none else some [Char.ofNat unit.toNat]
  | unit :: next :: units =>
    if !isSurrogate unit then (decode16 (next :: units)).map (Char.ofNat unit.toNat :: ·)
    else if unit < 0xDC00 && 0xDC00 ≤ next && next < 0xE000 then
      (decode16 units).map (pairChar unit next :: ·)
    else none

@[simp] theorem utf8_nil : utf8 [] = [] := rfl

@[simp] theorem utf16_nil : utf16 [] = [] := rfl

theorem utf16_cons (c : Char) (text : List Char) :
    utf16 (c :: text) = utf16EncodeChar c ++ utf16 text := List.flatMap_cons

/-! ### Decoding -/

theorem decode16_unit (h : isSurrogate unit = false) (units : List UInt16) :
    decode16 (unit :: units) = (decode16 units).map (Char.ofNat unit.toNat :: ·) := by
  cases units with
  | nil => simp [decode16, h]
  | cons next units => simp [decode16, h]

theorem decode16_pair (hu : isSurrogate high = true) (hh : high < 0xDC00) (hl : 0xDC00 ≤ low)
    (hl' : low < 0xE000) (units : List UInt16) :
    decode16 (high :: low :: units) = (decode16 units).map (pairChar high low :: ·) := by
  simp [decode16, hu, hh, hl, hl']

theorem toNat_toUInt16 (h : n < 0x10000) : n.toUInt16.toNat = n := Nat.mod_eq_of_lt h

theorem char_bounds (c : Char) : c.toNat < 0xD800 ∨ 0xDFFF < c.toNat ∧ c.toNat < 0x110000 := c.valid

/-- Below 0x10000 a character is its own code unit. -/
theorem decode16_bmp (h : c.toNat < 0x10000) (units : List UInt16) :
    decode16 (c.toNat.toUInt16 :: units) = (decode16 units).map (c :: ·) := by
  have hunit := toNat_toUInt16 h
  have hbounds := char_bounds c
  have hplain : isSurrogate c.toNat.toUInt16 = false := by
    simp only [isSurrogate, UInt16.le_iff_toNat_le, UInt16.lt_iff_toNat_lt, hunit,
      UInt16.reduceToNat, Bool.and_eq_false_iff, decide_eq_false_iff_not]
    omega
  rw [decode16_unit hplain, hunit, Char.ofNat_toNat]

/-- From 0x10000 on it is the pair that the encoder makes. -/
theorem decode16_supplementary (h : ¬ c.toNat < 0x10000) (units : List UInt16) :
    decode16 ((0xD800 + (c.toNat - 0x10000) / 1024).toUInt16 ::
      (0xDC00 + c.toNat % 1024).toUInt16 :: units) = (decode16 units).map (c :: ·) := by
  have hbounds := char_bounds c
  have hhigh : (0xD800 + (c.toNat - 0x10000) / 1024).toUInt16.toNat =
      0xD800 + (c.toNat - 0x10000) / 1024 := toNat_toUInt16 (by omega)
  have hlow : (0xDC00 + c.toNat % 1024).toUInt16.toNat = 0xDC00 + c.toNat % 1024 :=
    toNat_toUInt16 (by omega)
  have hpair : pairChar (0xD800 + (c.toNat - 0x10000) / 1024).toUInt16
      (0xDC00 + c.toNat % 1024).toUInt16 = c := by
    have hvalue : 0x10000 + (0xD800 + (c.toNat - 0x10000) / 1024 - 0xD800) * 1024 +
        (0xDC00 + c.toNat % 1024 - 0xDC00) = c.toNat := by omega
    rw [pairChar, hhigh, hlow, hvalue, Char.ofNat_toNat]
  rw [decode16_pair, hpair]
  · simp only [isSurrogate, UInt16.le_iff_toNat_le, UInt16.lt_iff_toNat_lt, hhigh,
      UInt16.reduceToNat, Bool.and_eq_true, decide_eq_true_eq]
    omega
  · rw [UInt16.lt_iff_toNat_lt, hhigh]
    change _ < 0xDC00
    omega
  · rw [UInt16.le_iff_toNat_le, hlow]
    exact Nat.le_add_right ..
  · rw [UInt16.lt_iff_toNat_lt, hlow]
    change _ < 0xE000
    omega

theorem decode16_encodeChar (c : Char) (units : List UInt16) :
    decode16 (utf16EncodeChar c ++ units) = (decode16 units).map (c :: ·) := by
  rw [utf16EncodeChar]
  split
  · next h => exact decode16_bmp h units
  · next h => exact decode16_supplementary h units

/-- Every text is read back from its code units. -/
theorem decode16_utf16 (text : List Char) : decode16 (utf16 text) = some text := by
  induction text with
  | nil => rfl
  | cons c text ih => rw [utf16_cons, decode16_encodeChar, ih, Option.map_some]

/-! ### Terminators -/

theorem utf16EncodeChar_ne_zero (h : c ≠ '\x00') (hu : unit ∈ utf16EncodeChar c) : unit ≠ 0 := by
  have hbounds := char_bounds c
  have hpos : c.toNat ≠ 0 := fun hzero => h (Char.toNat_inj.1 hzero)
  intro hzero
  have hnat : unit.toNat = 0 := congrArg UInt16.toNat hzero
  rw [utf16EncodeChar] at hu
  split at hu
  · next hsmall =>
    rw [List.mem_singleton.1 hu, toNat_toUInt16 hsmall] at hnat
    exact hpos hnat
  · rcases List.mem_pair.1 hu with rfl | rfl
    · rw [toNat_toUInt16 (by omega)] at hnat
      omega
    · rw [toNat_toUInt16 (by omega)] at hnat
      omega

theorem utf16_ne_zero (h : '\x00' ∉ text) (hu : unit ∈ utf16 text) : unit ≠ 0 := by
  obtain ⟨c, hc, hunit⟩ := List.mem_flatMap.1 hu
  apply utf16EncodeChar_ne_zero _ hunit
  intro hnul
  exact h (hnul ▸ hc)

theorem byte_ne_zero (hpos : 0 < n) (h : n < 256) : UInt8.ofNat n ≠ 0 := by
  intro hzero
  have hnat := congrArg UInt8.toNat hzero
  rw [UInt8.toNat_ofNat_of_lt' h] at hnat
  exact Nat.ne_of_gt hpos hnat

/-- A byte of a character other than NUL is the character itself or has its highest bit set. -/
theorem utf8EncodeChar_ne_zero (h : c ≠ '\x00') (hb : b ∈ String.utf8EncodeChar c) : b ≠ 0 := by
  have hpos : 0 < c.val.toNat := by
    apply Nat.pos_of_ne_zero
    intro hzero
    exact h (Char.toNat_inj.1 hzero)
  simp only [String.utf8EncodeChar] at hb
  split at hb
  · cases List.mem_singleton.1 hb
    exact byte_ne_zero hpos (by omega)
  split at hb
  · simp only [List.mem_cons, List.not_mem_nil, or_false] at hb
    rcases hb with rfl | rfl <;> exact byte_ne_zero (by omega) (by omega)
  split at hb
  · simp only [List.mem_cons, List.not_mem_nil, or_false] at hb
    rcases hb with rfl | rfl | rfl <;> exact byte_ne_zero (by omega) (by omega)
  · simp only [List.mem_cons, List.not_mem_nil, or_false] at hb
    rcases hb with rfl | rfl | rfl | rfl <;> exact byte_ne_zero (by omega) (by omega)

theorem utf8_ne_zero (h : '\x00' ∉ text) (hb : b ∈ utf8 text) : b ≠ 0 := by
  obtain ⟨c, hc, hbyte⟩ := List.mem_flatMap.1 hb
  apply utf8EncodeChar_ne_zero _ hbyte
  intro hnul
  exact h (hnul ▸ hc)

theorem utf8_ne_nil (h : text ≠ []) : utf8 text ≠ [] := by
  cases text with
  | nil => exact absurd rfl h
  | cons c text =>
    intro hnil
    rw [utf8, List.flatMap_cons] at hnil
    exact String.utf8EncodeChar_ne_nil (List.append_eq_nil_iff.1 hnil).1

theorem utf16EncodeChar_length_le (c : Char) :
    (utf16EncodeChar c).length ≤ (String.utf8EncodeChar c).length := by
  rw [utf16EncodeChar]
  split
  · exact List.length_pos_iff.2 String.utf8EncodeChar_ne_nil
  · next h =>
    have hlarge : ∀ n < 0x10000, ¬ c.val.toNat ≤ n := by
      intro n hn hle
      exact h (Nat.lt_of_le_of_lt hle hn)
    simp only [String.utf8EncodeChar]
    rw [if_neg (hlarge 0x7f (by decide)), if_neg (hlarge 0x7ff (by decide)),
      if_neg (hlarge 0xffff (by decide))]
    exact Nat.le_add_left ..

/-- UTF-16 has no more code units than UTF-8 has bytes. -/
theorem utf16_length_le (text : List Char) : (utf16 text).length ≤ (utf8 text).length := by
  induction text with
  | nil => exact Nat.le_refl 0
  | cons c text ih =>
    rw [utf16_cons, utf8, List.flatMap_cons, List.length_append, List.length_append]
    exact Nat.add_le_add (utf16EncodeChar_length_le c) ih

/-- What stands before the first terminator. -/
theorem takeWhile_terminated {α : Type} [DecidableEq α] {z : α} {l : List α} (h : ∀ x ∈ l, x ≠ z)
    (rest : List α) : (l ++ z :: rest).takeWhile (fun x => decide (x ≠ z)) = l := by
  have hall : ∀ x ∈ l, decide (x ≠ z) = true := fun x hx => decide_eq_true (h x hx)
  rw [List.takeWhile_append_of_pos hall, List.takeWhile_cons_of_neg, List.append_nil]
  simp

/-- What stands before the trailing terminators. -/
theorem rdropWhile_terminators {α : Type} [DecidableEq α] {z : α} {l : List α} (h : ∀ x ∈ l, x ≠ z)
    (n : Nat) : (l ++ List.replicate n z).rdropWhile (fun x => decide (x = z)) = l := by
  induction n with
  | zero =>
    rw [List.replicate_zero, List.append_nil]
    apply List.rdropWhile_eq_self_iff.2
    intro hne hlast
    exact h _ (List.getLast_mem hne) (of_decide_eq_true hlast)
  | succ n ih =>
    rw [List.replicate_succ', ← List.append_assoc, List.rdropWhile_concat_pos]
    · exact ih
    · exact decide_eq_true rfl

end Wlrdp.Unicode
