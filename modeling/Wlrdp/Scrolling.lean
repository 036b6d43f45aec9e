import Mathlib.Algebra.Ring.Int.Defs
import Wlrdp.InputSemantics

namespace Wlrdp
set_option autoImplicit true

/-! ### Rotations and movements -/

/-- The rotation that a wheel event reports, in units of 1/120 notch: the low nine bits of its
flags in two's complement. -/
def rotation (flags : UInt16) : Int :=
  let bits := (flags &&& 0x01FF).toNat
  if bits < 256 then bits else bits - 512

/-- The notches that `on_mouse_event` makes of the flags. -/
def notches (flags : UInt16) : Int :=
  let value : Int := (flags &&& 0x01FF).toNat
  let value := if flags &&& ptrFlagsWheelNegative ≠ 0 then -value else value
  value.tdiv 120

/-- The flags of a wheel event. -/
def DeskEvent.wheelFlags : DeskEvent → Option UInt16
  | .mouse flags _ _ => if flags &&& ptrFlagsWheel ≠ 0 then some flags else none
  | _ => none

/-- The flags of the wheel events of a run. -/
def wheelFlags (es : List DeskEvent) : List UInt16 := es.filterMap DeskEvent.wheelFlags

/-- How far the wheel was turned in all. -/
def turned (fs : List UInt16) : Int := (fs.map rotation).sum

/-- What a request adds to the vertical axis, in units of 1/256 notch. -/
def InputRequest.axisValue : InputRequest → Int
  | .axis value => value
  | _ => 0

/-- How far the vertical axis was moved in all. -/
def axisMoved (rs : List InputRequest) : Int := (rs.map InputRequest.axisValue).sum

/-- The axis moved less than a notch more or less than the wheel was turned, and not at all if
the wheel is back. -/
structure FaithfulScroll (moved turned : Int) : Prop where
  near : 256 * turned - 120 * 256 < 120 * moved ∧ 120 * moved < 256 * turned + 120 * 256
  returns : turned = 0 → moved = 0

/-- The rotation is one that `on_mouse_event` gets right. -/
def WholeNotches (r : Int) : Prop := r = 0 ∨ r = 120 ∨ r = 240 ∨ r = -240

/-! ### What one event does -/

variable {x : Xkb σ} {d : Desk σ}

theorem axisMoved_append (rs : List InputRequest) (r : InputRequest) :
    axisMoved (rs ++ [r]) = axisMoved rs + r.axisValue := by
  rw [axisMoved, List.map_append, List.sum_append, axisMoved]
  exact congrArg _ (Int.add_zero _)

theorem moved_request (d : Desk σ) (r : InputRequest) :
    axisMoved (d.request r).requests = axisMoved d.requests + r.axisValue :=
  axisMoved_append d.requests r

theorem moved_pointerMotion (d : Desk σ) (px py : UInt32) :
    axisMoved (d.inputPointerMotion px py).requests = axisMoved d.requests := by
  rw [Desk.inputPointerMotion, moved_request, moved_request]
  exact (Int.add_zero _).trans (Int.add_zero _)

theorem moved_mouseButton (d : Desk σ) (flags mask : UInt16) (button : UInt32) :
    axisMoved (d.mouseButton flags mask button).requests = axisMoved d.requests := by
  rw [Desk.mouseButton]
  split
  · rw [Desk.inputPointerButton, moved_request, moved_request]
    exact (Int.add_zero _).trans (Int.add_zero _)
  · rfl

theorem moved_keyboardKey (d : Desk σ) (x : Xkb σ) (key : UInt32) (pressed : Bool) :
    axisMoved (d.inputKeyboardKey x key pressed).requests = axisMoved d.requests := by
  rw [Desk.inputKeyboardKey]
  dsimp only
  rw [moved_request]
  change axisMoved (d.request _).requests + _ = _
  rw [moved_request]
  exact (Int.add_zero _).trans (Int.add_zero _)

theorem moved_pointerAxis (d : Desk σ) (value : Int) :
    axisMoved (d.inputPointerAxis value).requests = axisMoved d.requests + value * 256 := by
  rw [Desk.inputPointerAxis, moved_request, moved_request]
  exact Int.add_zero _

theorem moved_mouseEvent (d : Desk σ) (flags px py : UInt16) :
    axisMoved (d.onMouseEvent flags px py).requests =
      axisMoved d.requests + if flags &&& ptrFlagsWheel ≠ 0 then notches flags * 256 else 0 := by
  have hmotion : axisMoved (if flags &&& ptrFlagsMove ≠ 0 then
      d.inputPointerMotion px.toUInt32 py.toUInt32 else d).requests = axisMoved d.requests := by
    split
    · exact moved_pointerMotion ..
    · rfl
  rw [Desk.onMouseEvent]
  dsimp only
  split
  · rw [moved_pointerAxis, moved_mouseButton, moved_mouseButton, moved_mouseButton, hmotion]
    rfl
  · rw [moved_mouseButton, moved_mouseButton, moved_mouseButton, hmotion, Int.add_zero]

theorem moved_step (x : Xkb σ) (d : Desk σ) (e : DeskEvent) :
    axisMoved (d.step x e).requests =
      axisMoved d.requests + (e.wheelFlags.toList.map notches).sum * 256 := by
  cases e with
  | worker e => exact (Int.add_zero _).symm
  | keyboard flags code => exact (moved_keyboardKey ..).trans (Int.add_zero _).symm
  | extendedMouse flags px py => exact (moved_pointerMotion ..).trans (Int.add_zero _).symm
  | mouse flags px py =>
    change axisMoved (d.onMouseEvent flags px py).requests = _
    rw [moved_mouseEvent, DeskEvent.wheelFlags]
    split
    · rw [Option.toList_some, List.map_singleton, List.sum_singleton]
    · rfl

/-- The movement of a run is the sum of what its wheel events are taken for. -/
theorem moved_run (x : Xkb σ) (d : Desk σ) (es : List DeskEvent) :
    axisMoved ((desk x).run d es).requests =
      axisMoved d.requests + ((wheelFlags es).map notches).sum * 256 := by
  induction es generalizing d with
  | nil => exact (Int.add_zero _).symm
  | cons e es ih =>
    have hflags : wheelFlags (e :: es) = e.wheelFlags.toList ++ wheelFlags es := by
      rw [wheelFlags, List.filterMap_cons]
      cases e.wheelFlags <;> rfl
    change axisMoved ((desk x).run (d.step x e) es).requests = _
    rw [ih, moved_step, hflags, List.map_append, List.sum_append, Int.add_mul, Int.add_assoc]

/-! ### One rotation -/

theorem bits_lt (flags : UInt16) : (flags &&& 0x01FF).toNat < 512 := by
  rw [UInt16.toNat_and]
  exact Nat.lt_succ_of_le Nat.and_le_right

/-- The sign bit is one of the nine bits. -/
theorem negative_iff (flags : UInt16) :
    flags &&& ptrFlagsWheelNegative ≠ 0 ↔ 256 ≤ (flags &&& 0x01FF).toNat := by
  have hbit : flags &&& ptrFlagsWheelNegative = (flags &&& 0x01FF) &&& 0x0100 := by
    rw [UInt16.and_assoc]
    rfl
  have hbits := bits_lt flags
  have hall : ∀ n < 512, n &&& 256 = 0 ↔ ¬ 256 ≤ n := by decide +kernel
  rw [hbit, Ne, ← UInt16.toNat_inj, UInt16.toNat_and]
  change ¬ (flags &&& 0x01FF).toNat &&& 256 = 0 ↔ _
  rw [hall _ hbits, not_not]

theorem rotation_bounds (flags : UInt16) : -256 ≤ rotation flags ∧ rotation flags < 256 := by
  have hbits := bits_lt flags
  rw [rotation]
  split
  · omega
  · omega

theorem notches_eq (flags : UInt16) :
    notches flags = if 0 ≤ rotation flags then rotation flags / 120 else
      -((rotation flags + 512) / 120) := by
  have hbits := bits_lt flags
  rw [notches]
  simp only [negative_iff]
  rw [rotation]
  generalize (flags &&& 0x01FF).toNat = bits at hbits ⊢
  have hquot : (bits : Int).tdiv 120 = bits / 120 :=
    Int.tdiv_eq_ediv_of_nonneg (Int.natCast_nonneg bits)
  split
  · next hnegative =>
    rw [if_neg (Nat.not_lt.2 hnegative), Int.neg_tdiv, hquot, if_neg (by omega)]
    omega
  · next hpositive =>
    rw [if_pos (Nat.lt_of_not_le hpositive), hquot, if_pos (Int.natCast_nonneg bits)]

/-- `on_mouse_event` gets exactly these rotations right. -/
theorem notches_exact_iff (flags : UInt16) :
    120 * notches flags = rotation flags ↔ WholeNotches (rotation flags) := by
  obtain ⟨hlo, hhi⟩ := rotation_bounds flags
  rw [notches_eq, WholeNotches]
  split
  · omega
  · omega

/-! ### Sequences -/

/-- Rotations that `on_mouse_event` gets right add up. -/
theorem turned_of_whole (h : ∀ f ∈ fs, WholeNotches (rotation f)) :
    120 * (fs.map notches).sum = turned fs := by
  induction fs with
  | nil => rfl
  | cons f fs ih =>
    have hhead := (notches_exact_iff f).2 (h f List.mem_cons_self)
    have htail := ih fun g hg => h g (List.mem_cons_of_mem f hg)
    rw [turned] at htail ⊢
    rw [List.map_cons, List.map_cons, List.sum_cons, List.sum_cons, Int.mul_add, hhead, htail]

theorem wheelFlags_replicate (n : Nat) (hf : f &&& ptrFlagsWheel ≠ 0) :
    wheelFlags (List.replicate n (.mouse f 0 0)) = List.replicate n f := by
  rw [wheelFlags, List.filterMap_replicate_of_some]
  rw [DeskEvent.wheelFlags, if_pos hf]

theorem worker_mouseEvent (d : Desk σ) (flags px py : UInt16) :
    (d.onMouseEvent flags px py).worker = d.worker := by
  have hbutton (d : Desk σ) (mask : UInt16) (button : UInt32) :
      (d.mouseButton flags mask button).worker = d.worker := by
    rw [Desk.mouseButton]
    split <;> rfl
  have hmotion : (if flags &&& ptrFlagsMove ≠ 0 then
      d.inputPointerMotion px.toUInt32 py.toUInt32 else d).worker = d.worker := by
    split <;> rfl
  rw [Desk.onMouseEvent]
  dsimp only
  split
  · change (Desk.mouseButton _ flags _ _).worker = _
    rw [hbutton, hbutton, hbutton, hmotion]
  · rw [hbutton, hbutton, hbutton, hmotion]

theorem legal_replicate (hd : d.worker.exited = false ∧ d.worker.client.isSome = true)
    (f : UInt16) (n : Nat) : (desk x).Legal d (List.replicate n (.mouse f 0 0)) := by
  induction n generalizing d with
  | zero => trivial
  | succ n ih =>
    refine ⟨hd, ih ?_⟩
    change (d.onMouseEvent f 0 0).worker.exited = false ∧
      (d.onMouseEvent f 0 0).worker.client.isSome = true
    rw [worker_mouseEvent]
    exact hd

/-- While a client is attached, scrolling is faithful over every run whose wheel events have
flags in `F`, if and only if each of them turns the wheel by 0, 1, 2 or -2 notches. -/
theorem scrolling_faithful_iff (x : Xkb σ) (d : Desk σ)
    (hd : d.worker.exited = false ∧ d.worker.client.isSome = true) (F : UInt16 → Prop)
    (hF : ∀ f, F f → f &&& ptrFlagsWheel ≠ 0) :
    (∀ es, (desk x).Legal d es → (∀ f ∈ wheelFlags es, F f) →
        FaithfulScroll (axisMoved ((desk x).run d es).requests - axisMoved d.requests)
          (turned (wheelFlags es))) ↔
      ∀ f, F f → WholeNotches (rotation f) := by
  constructor
  · intro h f hf
    have hflags := wheelFlags_replicate 120 (hF f hf)
    have hfaithful := h (List.replicate 120 (.mouse f 0 0)) (legal_replicate hd f 120) (by
      rw [hflags]
      intro g hg
      rw [List.eq_of_mem_replicate hg]
      exact hf)
    obtain ⟨habove, hbelow⟩ := hfaithful.near
    rw [moved_run, hflags, turned, List.map_replicate, List.map_replicate, List.sum_replicate_int,
      List.sum_replicate_int] at habove hbelow
    rw [← notches_exact_iff]
    omega
  · intro h es _ hes
    have hsum := turned_of_whole fun f hf => h f (hes f hf)
    rw [moved_run]
    exact ⟨by omega, by omega⟩

/-- A client that is being served, and its devices. -/
def scrollingDesk (x : Xkb σ) : Desk σ :=
  (desk x).run (.start x true false false 800 600)
    ((plainClient (.basic 800 600 true false)).map .worker)

/-- A keyboard without modifiers. -/
def plainXkb : Xkb Unit := ⟨(), fun _ _ _ => (), fun _ => ⟨0, 0, 0, 0⟩⟩

/-- A mouse that turns its wheel forward, a notch at a time. -/
theorem scrolling_faithful_iff_forward : (∀ es, (desk plainXkb).Legal (scrollingDesk plainXkb) es →
    (∀ f ∈ wheelFlags es, f = 0x0278) →
      FaithfulScroll (axisMoved ((desk plainXkb).run (scrollingDesk plainXkb) es).requests -
        axisMoved (scrollingDesk plainXkb).requests) (turned (wheelFlags es))) ↔
      ∀ f, f = 0x0278 → WholeNotches (rotation f) :=
  scrolling_faithful_iff plainXkb (scrollingDesk plainXkb) (by decide +kernel) (· = 0x0278)
    fun _ hf => hf ▸ by decide

/-- One notch back moves the axis three notches, and one notch forth takes back one of them. -/
theorem scroll_does_not_return :
    let es := [.mouse 0x0388 0 0, .mouse 0x0278 0 0]
    (desk plainXkb).Legal (scrollingDesk plainXkb) es ∧
      (wheelFlags es).map rotation = [-120, 120] ∧
      ((desk plainXkb).run (scrollingDesk plainXkb) es).requests =
        [.axis (-3 * 256), .frame, .axis 256, .frame] ∧
      ¬ FaithfulScroll (axisMoved ((desk plainXkb).run (scrollingDesk plainXkb) es).requests -
        axisMoved (scrollingDesk plainXkb).requests) (turned (wheelFlags es)) := by
  refine ⟨by decide +kernel, by decide +kernel, by decide +kernel, fun h => ?_⟩
  have hback := h.returns (by decide +kernel)
  revert hback
  decide +kernel

end Wlrdp
