import Mathlib.Data.Nat.Bitwise
import Wlrdp.SizeCoherence

namespace Wlrdp
set_option autoImplicit true

variable {w w' : Worker} {e : Event}

/-! ### The rounding -/

theorem and_mask_sixteen (h : n < 2 ^ 32) : n &&& 4294967280 = n / 16 * 16 := by
  have hmask : 4294967280 = (2 ^ 28 - 1) <<< 4 := by decide
  have hdiv : n / 16 * 16 = (n >>> 4) <<< 4 := by
    rw [Nat.shiftRight_eq_div_pow, Nat.shiftLeft_eq]
  apply Nat.eq_of_testBit_eq
  intro i
  rw [hmask, hdiv, Nat.testBit_and, Nat.testBit_shiftLeft, Nat.testBit_shiftLeft,
    Nat.testBit_shiftRight, Nat.testBit_two_pow_sub_one]
  by_cases hi : 4 ≤ i
  · rw [Nat.add_sub_cancel' hi, decide_eq_true hi, Bool.true_and, Bool.true_and]
    by_cases hlt : i < 32
    · rw [decide_eq_true (show i - 4 < 28 by omega), Bool.and_true]
    · have hbit : n.testBit i = false :=
        Nat.testBit_lt_two_pow (h.trans_le (Nat.pow_le_pow_right (by decide) (Nat.not_lt.1 hlt)))
      rw [hbit, Bool.false_and]
  · simp [hi]

/-- The rounding of `on_peer_resize` adds in 32 bits. -/
theorem toNat_roundUp16 (x : UInt32) :
    (roundUp16 x).toNat = (x.toNat + 15) % 2 ^ 32 / 16 * 16 := by
  have hmask : (~~~15 : UInt32).toNat = 4294967280 := by decide
  rw [roundUp16, UInt32.toNat_and, hmask, UInt32.toNat_add]
  exact and_mask_sixteen (Nat.mod_lt _ (by decide))

/-- What the users of a stored length rely on, next to a request for it. -/
structure SaneLength (requested stored : UInt32) : Prop where
  positive : 0 < stored.toNat
  multiple : 16 ∣ stored.toNat
  covers : requested.toNat ≤ stored.toNat
  bound : stored.toNat ≤ 65535

/-- A requested length that the rounding takes to a sane one. -/
def inRange (x : UInt32) : Bool := 1 ≤ x.toNat && x.toNat ≤ 65520

theorem roundUp16_sane_iff (x : UInt32) : SaneLength x (roundUp16 x) ↔ inRange x = true := by
  have hx := x.toNat_lt
  have hr := toNat_roundUp16 x
  rw [inRange, Bool.and_eq_true, decide_eq_true_eq, decide_eq_true_eq]
  constructor
  · rintro ⟨h₁, _, h₃, h₄⟩
    omega
  · rintro ⟨h₁, h₂⟩
    constructor <;> omega

/-- A length that its users can take as it is: the corner of the surface does not wrap, and the
conversions to `int` and to 16 bits keep it. -/
structure SafeLength (stored : UInt32) : Prop where
  corner : (stored - 1).toNat + 1 = stored.toNat
  int : stored.toInt32.toInt = stored.toNat
  short : stored.toUInt16.toNat = stored.toNat

theorem SaneLength.safe (h : SaneLength requested stored) : SafeLength stored := by
  obtain ⟨hpos, _, _, hbound⟩ := h
  constructor
  · have hle : 1 ≤ stored := hpos
    rw [UInt32.toNat_sub_of_le _ _ hle]
    exact Nat.sub_add_cancel hpos
  · have hlt : 2 * stored.toBitVec.toNat < 2 ^ 32 := by
      have hn : stored.toBitVec.toNat = stored.toNat := rfl
      omega
    exact BitVec.toInt_eq_toNat_of_lt hlt
  · rw [UInt32.toNat_toUInt16]
    exact Nat.mod_eq_of_lt (Nat.lt_succ_of_le hbound)

/-! ### What a resize stores -/

/-- `RECTANGLE_16`. -/
structure Rectangle16 where
  left : UInt16
  top : UInt16
  right : UInt16
  bottom : UInt16
deriving DecidableEq

/-- The region that `h264_encode` and `progressive_encode` mark as changed. -/
def Encoder.region (enc : Encoder) : Rectangle16 where
  left := 0
  top := 0
  right := enc.width.toUInt16
  bottom := enc.height.toUInt16

/-- The rectangle is the whole picture of the encoder. -/
def Rectangle16.isWhole (rect : Rectangle16) (enc : Encoder) : Prop :=
  rect.left = 0 ∧ rect.top = 0 ∧ rect.right.toNat = enc.width.toNat ∧
    rect.bottom.toNat = enc.height.toNat

namespace Worker

/-- Every copy of the size: of the session, the input module, the attached client and the
encoder in use. -/
def storedSizes (w : Worker) : List (UInt32 × UInt32) :=
  [(w.width, w.height), (w.inputWidth, w.inputHeight)] ++
    (w.client.map fun c => (c.ctx.width, c.ctx.height)).toList ++
    if w.encoderInitialized then [(w.encoder.width, w.encoder.height)] else []

end Worker

/-- Every size in the worker is sane for the request, and its users can take it. -/
structure Sanitised (width height : UInt32) (w : Worker) : Prop where
  sizes : ∀ s ∈ w.storedSizes, (SaneLength width s.1 ∧ SafeLength s.1) ∧
    SaneLength height s.2 ∧ SafeLength s.2
  region : w.encoderInitialized = true → w.encoder.region.isWhole w.encoder

/-- The ways in which a client can deliver a size. -/
inductive SizeDelivery
  | activate
  | desktopResize
  | remoteMonitors (monitors : List MonitorDef)
  | dispMonitorLayout (monitors : List MonitorLayout)
deriving DecidableEq

def SizeDelivery.event (d : SizeDelivery) (r : ResizeTurn) : Event :=
  match d with
  | .activate => .activate r
  | .desktopResize => .desktopResize r
  | .remoteMonitors monitors => .remoteMonitors monitors r
  | .dispMonitorLayout monitors => .dispMonitorLayout monitors r

/-- The delivery leaves every stored size as it was, or stores sane ones. -/
def Worker.Sanitises (w : Worker) (d : SizeDelivery) (r : ResizeTurn) : Prop :=
  (w.step (d.event r)).storedSizes = w.storedSizes ∨
    ∃ size ∈ w.resizeTarget (d.event r), Sanitised size.1 size.2 (w.step (d.event r))

/-- The session has the length already that the request comes to in 32 bits. -/
def isCurrent (current requested : UInt32) : Bool :=
  current.toNat = (requested.toNat + 15) % 2 ^ 32 / 16 * 16

/-- The request of the delivery, if there is one, is for the current size or in range. -/
def Worker.safeDelivery (w : Worker) (d : SizeDelivery) (r : ResizeTurn) : Bool :=
  (w.resizeTarget (d.event r)).all fun size =>
    isCurrent w.width size.1 && isCurrent w.height size.2 || inRange size.1 && inRange size.2

theorem sameSize_iff_isCurrent (w : Worker) (width height : UInt32) :
    w.sameSize width height = (isCurrent w.width width && isCurrent w.height height) := by
  have hlength : ∀ current requested : UInt32,
      decide (current = roundUp16 requested) = isCurrent current requested := by
    intro current requested
    rw [isCurrent, ← toNat_roundUp16]
    exact decide_eq_decide.2 UInt32.toNat_inj.symm
  rw [Worker.sameSize, hlength, hlength]

theorem onPeerResize_size (h : w.sameSize width height = false) (scale : UInt32)
    (r : ResizeTurn) :
    (onPeerResize w width height scale r).width = roundUp16 width ∧
      (onPeerResize w width height scale r).height = roundUp16 height := by
  rw [onPeerResize_eq h]
  dsimp only
  split <;> exact resizeTo_size ..

theorem SizesAgree.stored (h : SizesAgree w) : ∀ s ∈ w.storedSizes, s = (w.width, w.height) := by
  intro s hs
  rcases List.mem_append.1 hs with hs | hs
  · rcases List.mem_append.1 hs with hs | hs
    · rcases List.mem_pair.1 hs with rfl | rfl
      · rfl
      · rw [h.input.1, h.input.2]
    · obtain ⟨c, hc, rfl⟩ := Option.map_eq_some_iff.1 (Option.mem_toList.1 hs)
      rw [(h.client c hc).1, (h.client c hc).2]
  · split at hs
    · next hi =>
      obtain ⟨hw, hh⟩ := h.encoder hi
      rw [List.mem_singleton.1 hs, hw, hh]
    · cases hs

/-- After a resize that takes place, everything is as the two rounded lengths are. -/
theorem onPeerResize_sanitised_iff (h : w.sameSize width height = false) (scale : UInt32)
    (r : ResizeTurn) :
    Sanitised width height (onPeerResize w width height scale r) ↔
      inRange width = true ∧ inRange height = true := by
  have hagree : SizesAgree (onPeerResize w width height scale r) := onPeerResize_agree h
  have hsize := onPeerResize_size h scale r
  constructor
  · intro hs
    obtain ⟨⟨hw, _⟩, hh, _⟩ := hs.sizes _ List.mem_cons_self
    rw [hsize.1] at hw
    rw [hsize.2] at hh
    exact ⟨(roundUp16_sane_iff _).1 hw, (roundUp16_sane_iff _).1 hh⟩
  · rintro ⟨hw, hh⟩
    have hsw : SaneLength width (roundUp16 width) := (roundUp16_sane_iff _).2 hw
    have hsh : SaneLength height (roundUp16 height) := (roundUp16_sane_iff _).2 hh
    constructor
    · intro s hs
      rw [hagree.stored s hs, hsize.1, hsize.2]
      exact ⟨⟨hsw, hsw.safe⟩, hsh, hsh.safe⟩
    · intro hi
      obtain ⟨hew, heh⟩ := hagree.encoder hi
      refine ⟨rfl, rfl, ?_, ?_⟩
      · rw [Encoder.region, hew, hsize.1]
        exact hsw.safe.short
      · rw [Encoder.region, heh, hsize.2]
        exact hsh.safe.short

/-- What a delivery does: it resizes the session to its request, if it makes one. -/
inductive Delivered (w : Worker) (d : SizeDelivery) (r : ResizeTurn) : Worker → Prop
  | ignored (ht : w.resizeTarget (d.event r) = none) (hs : w₁.storedSizes = w.storedSizes) :
      Delivered w d r w₁
  | resized (ht : w.resizeTarget (d.event r) = some (width, height))
      (hw : w₁.width = w.width) (hh : w₁.height = w.height)
      (hs : w₁.storedSizes = w.storedSizes) (scale : UInt32) :
      Delivered w d r (onPeerResize w₁ width height scale r)

theorem delivered_step (w : Worker) (d : SizeDelivery) (r : ResizeTurn) :
    Delivered w d r (w.step (d.event r)) := by
  cases d with
  | activate =>
    cases hc : w.client with
    | none =>
      have ht : w.resizeTarget (.activate r) = none := by
        rw [Worker.resizeTarget, hc, Option.bind_none]
      have hstep : w.step (.activate r) = w := by
        simp only [Worker.step, Worker.onClient, hc]
      exact .ignored ht (by rw [SizeDelivery.event, hstep])
    | some c =>
      have hstored : ({ w with client := some { c with ctx.activated := true } } :
          Worker).storedSizes = w.storedSizes := by
        rw [Worker.storedSizes, Worker.storedSizes, hc]
        rfl
      have hstep : w.step (.activate r) = onActivate w c r := by
        simp only [Worker.step, Worker.onClient, hc]
      simp only [SizeDelivery.event]
      rw [hstep, onActivate]
      dsimp only
      split
      · next hne =>
        refine .resized ?_ ?_ ?_ hstored _
        rotate_left
        · rfl
        · rfl
        simp only [SizeDelivery.event, Worker.resizeTarget, hc, Option.bind_some]
        exact if_pos hne
      · next heq =>
        refine .ignored ?_ hstored
        simp only [SizeDelivery.event, Worker.resizeTarget, hc, Option.bind_some]
        exact if_neg heq
  | desktopResize =>
    cases hc : w.client with
    | none =>
      have hstep : w.step (.desktopResize r) = w := by
        simp only [Worker.step, Worker.onClient, hc]
      refine .ignored ?_ (by rw [SizeDelivery.event, hstep])
      simp only [SizeDelivery.event, Worker.resizeTarget, hc, Option.map_none]
    | some c =>
      have hstep : w.step (.desktopResize r) = onDesktopResize w c r := by
        simp only [Worker.step, Worker.onClient, hc]
      simp only [SizeDelivery.event]
      rw [hstep, onDesktopResize]
      refine .resized ?_ rfl rfl rfl _
      simp only [SizeDelivery.event, Worker.resizeTarget, hc, Option.map_some]
  | remoteMonitors ms =>
    cases hc : w.client with
    | none =>
      have hstep : w.step (.remoteMonitors ms r) = w := by
        simp only [Worker.step, Worker.onClient, hc]
      refine .ignored ?_ (by rw [SizeDelivery.event, hstep])
      cases ms <;> simp only [SizeDelivery.event, Worker.resizeTarget, hc, Option.map_none]
    | some c =>
      have hstep : w.step (.remoteMonitors ms r) = onRemoteMonitors w c ms r := by
        simp only [Worker.step, Worker.onClient, hc]
      simp only [SizeDelivery.event]
      rw [hstep]
      cases ms with
      | nil => exact .ignored rfl rfl
      | cons m ms =>
        refine .resized ?_ rfl rfl rfl _
        simp only [SizeDelivery.event, Worker.resizeTarget, hc, Option.map_some]
  | dispMonitorLayout ms =>
    cases ms with
    | nil => exact .ignored rfl rfl
    | cons m ms => exact .resized rfl rfl rfl rfl _

/-- Of a resize that takes place, everything depends on the two lengths. -/
theorem sanitises_of_changed (ht : w.resizeTarget (d.event r) = some (width, height))
    (hc : w.sameSize width height = false) :
    w.Sanitises d r ↔ inRange width = true ∧ inRange height = true := by
  have hd : Delivered w d r (w.step (d.event r)) := delivered_step w d r
  rw [Worker.Sanitises, ht]
  generalize w.step (d.event r) = w' at hd
  cases hd with
  | ignored hn => cases ht.symm.trans hn
  | @resized width' height' w₁ hsome hw hh _ scale =>
    cases ht.symm.trans hsome
    have hchanged : w₁.sameSize width height = false := by
      rw [← hc, Worker.sameSize, Worker.sameSize, hw, hh]
    have hsize := onPeerResize_size hchanged scale r
    rw [← onPeerResize_sanitised_iff hchanged scale r]
    constructor
    · rintro (heq | ⟨size, hsize, hres⟩)
      · obtain ⟨hkw, hkh⟩ := Prod.mk.inj (List.cons.inj heq).1
        rw [hsize.1] at hkw
        rw [hsize.2] at hkh
        rw [Worker.sameSize, ← hkw, ← hkh, decide_eq_true rfl, decide_eq_true rfl] at hc
        cases hc
      · cases hsize
        exact hres
    · intro hres
      exact .inr ⟨_, rfl, hres⟩

/-- A delivered size is sanitised exactly if it comes to the current one, or both its lengths
are between 1 and 65520. -/
theorem resize_sanitised_iff (w : Worker) (d : SizeDelivery) (r : ResizeTurn) :
    w.Sanitises d r ↔ w.safeDelivery d r = true := by
  rw [Worker.safeDelivery]
  cases ht : w.resizeTarget (d.event r) with
  | none =>
    have hd : Delivered w d r (w.step (d.event r)) := delivered_step w d r
    refine iff_of_true (.inl ?_) rfl
    generalize w.step (d.event r) = w' at hd
    cases hd with
    | ignored _ hs => exact hs
    | resized hsome => cases ht.symm.trans hsome
  | some size =>
    obtain ⟨width, height⟩ := size
    rw [Option.all_some, Bool.or_eq_true, ← sameSize_iff_isCurrent, Bool.and_eq_true]
    cases hc : w.sameSize width height with
    | true =>
      have hd : Delivered w d r (w.step (d.event r)) := delivered_step w d r
      refine iff_of_true (.inl ?_) (.inl rfl)
      generalize w.step (d.event r) = w' at hd
      cases hd with
      | ignored _ hs => exact hs
      | @resized width' height' w₁ hsome hw hh hs scale =>
        cases ht.symm.trans hsome
        have hsame : w₁.sameSize width height = true := by
          rw [← hc, Worker.sameSize, Worker.sameSize, hw, hh]
        rw [onPeerResize_same hsame]
        exact hs
    | false =>
      rw [sanitises_of_changed ht hc]
      exact ⟨.inr, fun h => h.resolve_left Bool.false_ne_true⟩

/-- A client that is served, at 1008 by 704. -/
def servedClient : List Event :=
  plainClient (.basic 1000 700 true false) ++ [.startCapture ⟨.working, true⟩]

def servedDesk : Worker := worker.run (.start true false false 800 600) servedClient

/-- One monitor that begins at column 10. -/
def monitorTo (right : UInt32) : SizeDelivery := .remoteMonitors [⟨10, 0, right, 599⟩]

/-- A monitor whose right edge lies eight columns left of its left one comes to width 0, and
so does an empty one; of 70000 columns the encoder would mark 4464. -/
theorem odd_monitors_unsanitised :
    worker.Legal (.start true false false 800 600) (servedClient ++ [(monitorTo 2).event .done]) ∧
      ¬servedDesk.Sanitises (monitorTo 2) .done ∧ ¬servedDesk.Sanitises (monitorTo 9) .done ∧
      ¬servedDesk.Sanitises (monitorTo 70009) .done := by
  have hclient : servedDesk.client.isSome = true := by decide +kernel
  have htarget : ∀ right, servedDesk.resizeTarget ((monitorTo right).event .done) =
      some (right - 10 + 1, 599 - 0 + 1) := by
    intro right
    obtain ⟨c, hc⟩ := Option.isSome_iff_exists.1 hclient
    simp only [monitorTo, SizeDelivery.event, Worker.resizeTarget, hc, Option.map_some]
  have hodd : ∀ right, servedDesk.sameSize (right - 10 + 1) (599 - 0 + 1) = false →
      inRange (right - 10 + 1) = false → ¬servedDesk.Sanitises (monitorTo right) .done := by
    intro right hc hr h
    have hin := ((sanitises_of_changed (htarget right) hc).1 h).1
    rw [hr] at hin
    cases hin
  exact ⟨by decide +kernel, hodd 2 (by decide +kernel) (by decide),
    hodd 9 (by decide +kernel) (by decide), hodd 70009 (by decide +kernel) (by decide)⟩

end Wlrdp
