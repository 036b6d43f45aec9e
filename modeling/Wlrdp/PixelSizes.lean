import Wlrdp.CaptureBuffers
import Wlrdp.EncoderLifecycle

namespace Wlrdp
set_option autoImplicit true

/-! ### The buffers that hold pixels -/

/-- An encoder and a capture, which allocate for the sizes that they are told. -/
structure PixelBuffers where
  enc : Encoder
  capture : Capturing
deriving DecidableEq

def PixelBuffers.start : PixelBuffers := ⟨.zero ⟨.empty, []⟩, .start⟩

inductive PixelEvent
  | init (mode : EncoderMode) (width height : UInt32) (version : UInt8) (format : PixelFormat)
      (r : CodecSetup)
  | encode (pixels : Option UInt32) (stride : UInt32) (r : CodecRun)
  | requestKeyframe
  | destroy
  | capture (e : CaptureEvent)
deriving DecidableEq

def PixelBuffers.step (s : PixelBuffers) : PixelEvent → PixelBuffers
  | .init mode width height version format r =>
    { s with enc := (encoderInit s.enc mode width height version format r).2 }
  | .encode pixels stride r => { s with enc := (encoderEncode s.enc pixels stride r).2 }
  | .requestKeyframe => { s with enc := encoderRequestKeyframe s.enc }
  | .destroy => { s with enc := encoderDestroy s.enc }
  | .capture e => { s with capture := s.capture.step e }

/-- The two modules are used in any order, whatever the other side sends. -/
def pixelBuffers : System PixelBuffers PixelEvent := ⟨fun _ _ => True, PixelBuffers.step⟩

/-! ### Sizes -/

namespace Encoder

/-- The bytes of a line of the picture: `width * bpp / 8`, rounded up. -/
def lineBytes (enc : Encoder) : Nat :=
  (enc.width.toNat * enc.format.bitsPerPixel.toNat + 7) / 8

def pictureBytes (enc : Encoder) : Nat := enc.lineBytes * enc.height.toNat

/-- The modes in which an encode converts the picture. -/
def converts (enc : Encoder) : Bool :=
  match enc.mode with
  | .h264Freerdp | .progressive => false
  | .raw | .nsac | .h264Ffmpeg => true

/-- The encoder as it calls `freerdp_image_copy`, unless its buffer cannot grow. -/
def atImageCopy (enc : Encoder) (r : CodecRun) : Option Encoder :=
  let needed := enc.dstStride * enc.height
  if enc.convSize < needed then r.realloc.map (enc.growBuffer · needed) else some enc

/-- The sizes of the picture fit in 32 bits. -/
def fitsWord (enc : Encoder) : Bool :=
  enc.width.toNat * enc.format.bitsPerPixel.toNat + 7 < UInt32.size &&
    enc.pictureBytes < UInt32.size

end Encoder

/-- The size that `nsc_init` asks `Stream_New` for, if it gets there. -/
def nscStreamNew (mode : EncoderMode) (width height : UInt32) (r : CodecSetup) :
    Option UInt32 :=
  if mode = .nsac ∧ r.nscContextNew.isSome ∧ r.nscColorFormat then some (width * height * 4)
  else none

/-- The sizes of an encode that converts the picture: the line and the buffer as
`freerdp_image_copy` is called, and the output of a RAW encode. -/
structure ExactEncode (enc : Encoder) (pixels : Option UInt32) (stride : UInt32) (r : CodecRun)
    (e : Encoder) : Prop where
  line : e.dstStride.toNat = enc.lineBytes
  buffer : enc.pictureBytes ≤ e.convSize.toNat
  output : enc.codec = .none → (encoderEncode enc pixels stride r).1 = true →
    (encoderEncode enc pixels stride r).2.outLen.toNat = enc.pictureBytes

/-- No size that the step computes differs from the product that it stands for. -/
def ExactSizes (s : PixelBuffers) : PixelEvent → Prop
  | .init mode width height _ _ r =>
    ∀ n, nscStreamNew mode width height r = some n → n.toNat = width.toNat * height.toNat * 4
  | .encode pixels stride r =>
    s.enc.converts = true → ∀ e, s.enc.atImageCopy r = some e → ExactEncode s.enc pixels stride r e
  | .capture (.buffer id a r) =>
    s.capture.cap.has a = false →
      ∀ n, (frameBuffer s.capture.cap id a.width a.height a.stride r).pixels = some n →
        n.toNat = a.size
  | _ => True

/-- The sizes that the step needs fit in 32 bits. -/
def PixelBuffers.fitsWord (s : PixelBuffers) : PixelEvent → Bool
  | .init mode width height _ _ r =>
    (nscStreamNew mode width height r).isNone || width.toNat * height.toNat * 4 < UInt32.size
  | .encode _ _ r => !s.enc.converts || (s.enc.atImageCopy r).isNone || s.enc.fitsWord
  | .capture (.buffer _ a r) => s.capture.cap.has a || !r.ok || a.size < UInt32.size
  | _ => true

/-! ### The conversion buffer -/

variable {enc e e' : Encoder} {px : Option UInt32} {stride : UInt32} {r : CodecRun}

/-- The buffer is as large as the code wants it for the picture, or there is none. -/
def Encoder.Grown (enc : Encoder) : Prop :=
  enc.convSize = 0 ∨ enc.convSize = enc.dstStride * enc.height

/-- What an encode does to the picture's geometry and to the size of the buffer. -/
structure BufferKept (e e' : Encoder) : Prop where
  width : e'.width = e.width
  height : e'.height = e.height
  format : e'.format = e.format
  convSize : e'.convSize = e.convSize

theorem BufferKept.trans (h : BufferKept a b) (h' : BufferKept b c) : BufferKept a c :=
  ⟨h'.width.trans h.width, h'.height.trans h.height, h'.format.trans h.format,
    h'.convSize.trans h.convSize⟩

theorem BufferKept.grown (h : BufferKept e e') (hg : e.Grown) : e'.Grown := by
  have hneeded : e'.dstStride * e'.height = e.dstStride * e.height := by
    rw [Encoder.dstStride, Encoder.dstStride, h.width, h.height, h.format]
  rwa [Encoder.Grown, h.convSize, hneeded]

theorem useH264_kept (enc : Encoder) : BufferKept enc enc.useH264 := by
  rw [Encoder.useH264]
  split <;> exact ⟨rfl, rfl, rfl, rfl⟩

theorem useNsc_kept (enc : Encoder) : BufferKept enc enc.useNsc := by
  rw [Encoder.useNsc]
  split <;> split <;> exact ⟨rfl, rfl, rfl, rfl⟩

theorem useProgressive_kept (enc : Encoder) : BufferKept enc enc.useProgressive := by
  rw [Encoder.useProgressive]
  split <;> exact ⟨rfl, rfl, rfl, rfl⟩

theorem clearH264Metadata_kept (enc : Encoder) :
    BufferKept enc (encoderClearH264Metadata enc) := by
  rw [encoderClearH264Metadata_eq]
  exact ⟨rfl, rfl, rfl, rfl⟩

theorem h264Prepared_kept (enc : Encoder) (px : Option UInt32) (stride : UInt32) :
    BufferKept enc (enc.h264Prepared px stride) := by
  obtain ⟨hw, hh, hf, hc⟩ := clearH264Metadata_kept enc
  obtain ⟨hw', hh', hf', hc'⟩ := useH264_kept { encoderClearH264Metadata enc with
    outBuf := none, outLen := 0, auxBuf := none, auxLen := 0, avc444Lc := 0 }
  exact ⟨hw'.trans hw, hh'.trans hh, hf'.trans hf, hc'.trans hc⟩

theorem h264Compressed_kept (enc : Encoder) (r : CodecRun) :
    BufferKept enc (enc.h264Compressed r) := by
  obtain ⟨objects, he, _⟩ := obtainMetablock_eq enc r.metablock
  simp only [Encoder.h264Compressed]
  rw [he]
  split
  · obtain ⟨objects', he', _⟩ :=
      obtainMetablock_eq { enc with history.objects := objects } r.auxMetablock
    rw [he']
    exact ⟨rfl, rfl, rfl, rfl⟩
  · exact ⟨rfl, rfl, rfl, rfl⟩

theorem h264Encode_kept (enc : Encoder) (px : Option UInt32) (stride : UInt32) (r : CodecRun) :
    BufferKept enc (h264Encode enc px stride r).2 := by
  have hparts : h264Encode enc px stride r =
      let e := (enc.h264Prepared px stride).h264Compressed r
      if !r.compress then (false, encoderClearH264Metadata e) else
      (true, { e with isKeyframe := true }) := rfl
  have hkept := (h264Prepared_kept enc px stride).trans (h264Compressed_kept _ r)
  rw [hparts]
  dsimp only
  split
  · exact hkept.trans (clearH264Metadata_kept _)
  · exact ⟨hkept.width, hkept.height, hkept.format, hkept.convSize⟩

theorem progressiveEncode_kept (enc : Encoder) (px : Option UInt32) (stride : UInt32)
    (r : CodecRun) : BufferKept enc (progressiveEncode enc px stride r).2 := by
  obtain ⟨hw, hh, hf, hc⟩ := useProgressive_kept enc
  rw [progressiveEncode]
  split
  · exact ⟨rfl, rfl, rfl, rfl⟩
  · dsimp only
    split
    · exact ⟨hw, hh, hf, hc⟩
    · exact ⟨hw, hh, hf, hc⟩

/-- `freerdp_image_copy` decides what a conversion that gets there returns. -/
theorem convertPixels_eq (enc : Encoder) (px : Option UInt32) (stride : UInt32) (r : CodecRun) :
    convertPixels enc px stride r =
      match enc.atImageCopy r with
      | none => (false, enc)
      | some e => (r.imageCopy, e.read px stride) := by
  simp only [convertPixels, Encoder.atImageCopy]
  split
  · cases r.realloc with
    | none => rfl
    | some buf => rfl
  · rfl

/-- When `freerdp_image_copy` is called the buffer has the size that the code computed. -/
theorem atImageCopy_spec (hg : enc.Grown) (h : enc.atImageCopy r = some e) :
    e.width = enc.width ∧ e.height = enc.height ∧ e.format = enc.format ∧
      e.convSize = enc.dstStride * enc.height := by
  rw [Encoder.atImageCopy] at h
  split at h
  · obtain ⟨buf, _, rfl⟩ := Option.map_eq_some_iff.1 h
    rw [Encoder.growBuffer]
    cases enc.convBuf with
    | none => exact ⟨rfl, rfl, rfl, rfl⟩
    | some old => exact ⟨rfl, rfl, rfl, rfl⟩
  · next hlarge =>
    cases h
    refine ⟨rfl, rfl, rfl, ?_⟩
    rcases hg with hzero | hneeded
    · rw [hzero] at hlarge ⊢
      exact (UInt32.le_zero_iff.1 (UInt32.not_lt.1 hlarge)).symm
    · exact hneeded

theorem convertPixels_grown (hg : enc.Grown) (h : convertPixels enc px stride r = (ok, e)) :
    e.Grown ∧ e.width = enc.width ∧ e.height = enc.height ∧ e.format = enc.format := by
  rw [convertPixels_eq] at h
  cases hc : enc.atImageCopy r with
  | none =>
    rw [hc] at h
    cases h
    exact ⟨hg, rfl, rfl, rfl⟩
  | some copied =>
    rw [hc] at h
    cases h
    obtain ⟨hw, hh, hf, hsize⟩ := atImageCopy_spec hg hc
    refine ⟨.inr ?_, hw, hh, hf⟩
    rw [Encoder.dstStride] at hsize ⊢
    change copied.convSize =
      (copied.width * copied.format.bitsPerPixel + 7) / 8 * copied.height
    rw [hw, hh, hf]
    exact hsize

theorem rawEncode_grown (hg : enc.Grown) : (rawEncode enc px stride r).2.Grown := by
  simp only [rawEncode]
  cases hc : convertPixels enc px stride r with
  | mk ok e =>
    obtain ⟨hgrown, _⟩ := convertPixels_grown hg hc
    cases ok with
    | false => exact hgrown
    | true => exact hgrown

theorem nscEncode_grown (hg : enc.Grown) : (nscEncode enc px stride r).2.Grown := by
  simp only [nscEncode]
  cases hc : convertPixels enc px stride r with
  | mk ok e =>
    obtain ⟨hgrown, _⟩ := convertPixels_grown hg hc
    have hused := (useNsc_kept e).grown hgrown
    cases ok with
    | false => exact hgrown
    | true =>
      change (if !r.compress then (false, e.useNsc) else (true, { e.useNsc with
        outBuf := _, outLen := _, auxBuf := _, auxLen := _, isKeyframe := _ })).2.Grown
      split
      · exact hused
      · exact hused

theorem encoderEncode_grown (hg : enc.Grown) : (encoderEncode enc px stride r).2.Grown := by
  rw [encoderEncode]
  cases enc.mode with
  | raw => exact rawEncode_grown hg
  | nsac => exact nscEncode_grown hg
  | h264Ffmpeg => exact rawEncode_grown hg
  | h264Freerdp => exact (h264Encode_kept enc px stride r).grown hg
  | progressive => exact (progressiveEncode_kept enc px stride r).grown hg

theorem grown_step (s : PixelBuffers) (ev : PixelEvent) (hg : s.enc.Grown) :
    (s.step ev).enc.Grown := by
  cases ev with
  | init mode width height version format r => exact .inl encoderInit_spec.convSize
  | encode px stride r => exact encoderEncode_grown hg
  | requestKeyframe =>
    obtain ⟨objects, he⟩ := encoderRequestKeyframe_history s.enc
    change (encoderRequestKeyframe s.enc).Grown
    rw [he]
    exact hg
  | destroy =>
    change (encoderDestroy s.enc).Grown
    rw [encoderDestroy_eq]
    exact .inl rfl
  | capture ev => exact hg

/-! ### Products in 32 bits -/

/-- A product is computed exactly when it fits. -/
theorem toNat_mul_iff (a b : UInt32) :
    (a * b).toNat = a.toNat * b.toNat ↔ a.toNat * b.toNat < UInt32.size := by
  rw [UInt32.toNat_mul]
  exact Nat.mod_eq_iff_lt (by decide)

theorem dstStride_iff : enc.dstStride.toNat = enc.lineBytes ↔
    enc.width.toNat * enc.format.bitsPerPixel.toNat + 7 < UInt32.size := by
  rw [Encoder.dstStride, Encoder.lineBytes, UInt32.toNat_div, UInt32.toNat_add, UInt32.toNat_mul]
  generalize enc.width.toNat * enc.format.bitsPerPixel.toNat = bits
  change (bits % 4294967296 + 7) % 4294967296 / 8 = (bits + 7) / 8 ↔ bits + 7 < 4294967296
  omega

theorem fitsWord_iff : enc.fitsWord = true ↔ enc.dstStride.toNat = enc.lineBytes ∧
    enc.pictureBytes ≤ (enc.dstStride * enc.height).toNat := by
  rw [Encoder.fitsWord, Bool.and_eq_true, decide_eq_true_eq, decide_eq_true_eq, ← dstStride_iff]
  apply and_congr_right
  intro hline
  rw [Encoder.pictureBytes, UInt32.toNat_mul, hline]
  constructor
  · intro h
    exact Nat.le_of_eq (Nat.mod_eq_of_lt h).symm
  · intro h
    exact Nat.lt_of_le_of_lt h (Nat.mod_lt _ (by decide))

/-- In 32 bits the order of the three factors does not matter, and the stream fits if they do. -/
theorem streamSize_iff (width height : UInt32) :
    (width * height * 4).toNat = width.toNat * height.toNat * 4 ↔
      width.toNat * height.toNat * 4 < UInt32.size := by
  rw [UInt32.toNat_mul, UInt32.toNat_mul, Nat.mod_mul_mod]
  exact Nat.mod_eq_iff_lt (by decide)

theorem rawEncode_outLen (h : (rawEncode enc px stride r).1 = true) :
    (rawEncode enc px stride r).2.outLen = enc.dstStride * enc.height := by
  simp only [rawEncode] at h ⊢
  cases hc : convertPixels enc px stride r with
  | mk ok e =>
    rw [hc] at h
    cases ok with
    | false => cases h
    | true => rfl

theorem encoderEncode_outLen (hc : enc.codec = .none)
    (h : (encoderEncode enc px stride r).1 = true) :
    (encoderEncode enc px stride r).2.outLen = enc.dstStride * enc.height := by
  rw [encoderEncode] at h ⊢
  rw [Encoder.codec] at hc
  cases hm : enc.mode with
  | raw =>
    rw [hm] at h
    exact rawEncode_outLen h
  | h264Ffmpeg =>
    rw [hm] at h
    exact rawEncode_outLen h
  | nsac =>
    rw [hm] at hc
    cases hc
  | progressive =>
    rw [hm] at hc
    cases hc
  | h264Freerdp =>
    rw [hm] at hc
    simp only [h264Codec, avc444Codec] at hc
    split at hc
    · split at hc
      · cases hc
      · cases hc
    · cases hc

/-! ### What one step computes -/

theorem exactEncode_iff (hg : enc.Grown) (h : enc.atImageCopy r = some e) :
    ExactEncode enc px stride r e ↔ enc.fitsWord = true := by
  obtain ⟨hw, hh, hf, hsize⟩ := atImageCopy_spec hg h
  have hline : e.dstStride = enc.dstStride := by
    rw [Encoder.dstStride, Encoder.dstStride, hw, hf]
  rw [fitsWord_iff]
  constructor
  · rintro ⟨hline', hbuffer, _⟩
    rw [hline] at hline'
    rw [hsize] at hbuffer
    exact ⟨hline', hbuffer⟩
  · rintro ⟨hline', hbuffer⟩
    refine ⟨hline ▸ hline', hsize ▸ hbuffer, fun hc hok => ?_⟩
    rw [encoderEncode_outLen hc hok]
    apply Nat.le_antisymm
    · rw [Encoder.pictureBytes, UInt32.toNat_mul, hline']
      exact Nat.mod_le _ _
    · exact hbuffer

theorem exactMapping_iff {s : Capturing} {id : Nat} {a : Announcement} {r : ShmSetup} :
    (s.cap.has a = false → ∀ n,
      (frameBuffer s.cap id a.width a.height a.stride r).pixels = some n → n.toNat = a.size) ↔
      (s.cap.has a || !r.ok || decide (a.size < UInt32.size)) = true := by
  have hstep := frameBuffer_step s.cap id a.width a.height a.stride r
  generalize frameBuffer s.cap id a.width a.height a.stride r = cap at hstep ⊢
  cases hstep with
  | reused hg =>
    have hhas : s.cap.has a = true := hg
    rw [hhas]
    exact iff_of_true nofun rfl
  | mapped hg hr ha =>
    have hhas : s.cap.has a = false := hg
    rw [hhas, hr, ha.pixels, if_pos rfl]
    simp only [Bool.not_true, Bool.or_false, Bool.false_or, decide_eq_true_eq, Option.some.injEq,
      forall_eq', forall_const]
    exact toNat_mul_iff a.stride a.height
  | failed hg hr ha =>
    have hhas : s.cap.has a = false := hg
    rw [hhas, hr]
    refine iff_of_true (fun _ n hn => ?_) rfl
    cases ha.pixels.symm.trans hn

theorem exactSizes_iff (s : PixelBuffers) (ev : PixelEvent) (hg : s.enc.Grown) :
    ExactSizes s ev ↔ s.fitsWord ev = true := by
  cases ev with
  | init mode width height version format r =>
    rw [ExactSizes, PixelBuffers.fitsWord, nscStreamNew]
    split
    · simp only [Option.some.injEq, forall_eq', Option.isNone_some, Bool.false_or,
        decide_eq_true_eq]
      exact streamSize_iff width height
    · exact iff_of_true nofun rfl
  | encode px stride r =>
    rw [ExactSizes, PixelBuffers.fitsWord]
    cases s.enc.converts with
    | false => exact iff_of_true nofun rfl
    | true =>
      cases hc : s.enc.atImageCopy r with
      | none =>
        refine iff_of_true (fun _ e he => ?_) rfl
        cases he
      | some e =>
        simp only [forall_const, Option.some.injEq, forall_eq', Bool.not_true, Bool.false_or,
          Option.isNone_some]
        exact exactEncode_iff hg hc
  | requestKeyframe => exact iff_of_true trivial rfl
  | destroy => exact iff_of_true trivial rfl
  | capture ev =>
    cases ev with
    | buffer id a r => exact exactMapping_iff
    | requestFrame frame => exact iff_of_true trivial rfl
    | bufferDone id => exact iff_of_true trivial rfl
    | ready id => exact iff_of_true trivial rfl
    | failed id => exact iff_of_true trivial rfl
    | destroy => exact iff_of_true trivial rfl

/-- The sizes computed in a sequence of initialisations, encodes and announcements are exact if
and only if the products fit in 32 bits wherever the code computes them. -/
theorem pixel_sizes_exact_iff (es : List PixelEvent) :
    pixelBuffers.Along ExactSizes .start es ↔
      pixelBuffers.Along (fun s e => s.fitsWord e = true) .start es :=
  System.along_congr (E := fun _ _ => True) (fun s ev hg _ => grown_step s ev hg)
    (fun s ev hg _ => exactSizes_iff s ev hg) (.inl rfl) (System.along_of_forall fun _ _ => trivial)

/-- Every constructor fails, so that the encoder is a RAW one. -/
def noCodec : CodecSetup := ⟨none, false, none, false, none, false, none⟩

def copiedOnce : CodecRun := ⟨some 1, true, true, true, 0, 0, 0, .zero, .zero⟩

/-- A picture of 32768 lines of 2^17 bytes: the size wraps to 0, and `freerdp_image_copy` is told
to write the 2^32 bytes into a buffer that was never allocated. There is no output either. -/
theorem picture_size_wraps :
    let es := [.init .raw 32768 32768 0 .bgrx32 noCodec, .encode none 131072 copiedOnce]
    ¬ pixelBuffers.Along ExactSizes .start es ∧
      (pixelBuffers.run .start es).enc.pictureBytes = 4294967296 ∧
      (pixelBuffers.run .start es).enc.outBuf = none ∧
      (pixelBuffers.run .start es).enc.outLen = 0 ∧
      (pixelBuffers.run .start es).enc.convBuf = none := by
  refine ⟨fun h => ?_, by decide +kernel, by decide +kernel, by decide +kernel, by decide +kernel⟩
  obtain ⟨_, hencode, _⟩ := h
  have hfits := (exactSizes_iff _ _ (.inl rfl)).1 hencode
  revert hfits
  decide +kernel

end Wlrdp
