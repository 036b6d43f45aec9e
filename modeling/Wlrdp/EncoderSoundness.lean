import Wlrdp.EncoderSemantics

namespace Wlrdp
set_option autoImplicit true

def h264Codec (version : UInt8) : Codec :=
  if version ≠ 0 then avc444Codec version else .avc420

/-- The codec that the mode and the AVC444 version of an encoder stand for. -/
def Encoder.codec (enc : Encoder) : Codec :=
  match enc.mode with
  | .h264Freerdp => h264Codec enc.avc444Version
  | .progressive => .caprogressive
  | .nsac => .nscodec
  | _ => .none

/-- A conversion buffer with a size is there. -/
def Encoder.Backed (enc : Encoder) : Prop := enc.convSize ≠ 0 → enc.convBuf.isSome = true

/-- Two encoders that agree on everything fixed by `encoder_init`. -/
structure SameSetup (e e' : Encoder) : Prop where
  mode : e'.mode = e.mode
  width : e'.width = e.width
  height : e'.height = e.height
  version : e'.avc444Version = e.avc444Version

theorem SameSetup.refl (e : Encoder) : SameSetup e e := ⟨rfl, rfl, rfl, rfl⟩

theorem SameSetup.trans (h : SameSetup a b) (h' : SameSetup b c) : SameSetup a c :=
  ⟨h'.mode.trans h.mode, h'.width.trans h.width, h'.height.trans h.height,
    h'.version.trans h.version⟩

/-- What any encode does: it keeps the setup, passes over the pixels at most once, and after
a success with output the output buffer holds the whole picture in the given codec. -/
structure EncodeStep (codec : Codec) (px : Option UInt32) (stride : UInt32)
    (e : Encoder) (ok : Bool) (e' : Encoder) : Prop where
  setup : SameSetup e e'
  reads : e'.history.reads = e.history.reads ∨
    e'.history.reads = ⟨px, e.width, e.height, stride⟩ :: e.history.reads
  backed : e.Backed → e'.Backed
  outBuf : ok = true → e.Backed → ¬ (e'.outLen = 0 ∧ e'.auxLen = 0) →
    e'.outBuf = some ⟨codec, e.width, e.height⟩

theorem freeH264Metablock_setup (enc : Encoder) (m : Metablock) :
    SameSetup enc (freeH264Metablock enc m) := by
  simp only [freeH264Metablock]
  split <;> exact ⟨rfl, rfl, rfl, rfl⟩

theorem encoderClearH264Metadata_setup (enc : Encoder) :
    SameSetup enc (encoderClearH264Metadata enc) := by
  have h := freeH264Metablock_setup enc enc.h264Meta
  have h' := h.trans (freeH264Metablock_setup _ (freeH264Metablock enc enc.h264Meta).h264AuxMeta)
  exact ⟨h'.mode, h'.width, h'.height, h'.version⟩

@[simp] theorem freeH264Metablock_reads (enc : Encoder) (m : Metablock) :
    (freeH264Metablock enc m).history.reads = enc.history.reads := by
  simp only [freeH264Metablock]
  split <;> rfl

@[simp] theorem encoderClearH264Metadata_reads (enc : Encoder) :
    (encoderClearH264Metadata enc).history.reads = enc.history.reads := by
  simp only [encoderClearH264Metadata, freeH264Metablock_reads]

theorem convertPixels_spec (h : convertPixels enc px stride r = (ok, enc')) :
    SameSetup enc enc' ∧ enc'.h264Meta = enc.h264Meta ∧
      (enc'.history.reads = enc.history.reads ∨
        enc'.history.reads = ⟨px, enc.width, enc.height, stride⟩ :: enc.history.reads) := by
  simp only [convertPixels] at h
  grind [Encoder.acquire, Encoder.release, Encoder.read, SameSetup]

/-- After a conversion the buffer is there, and large enough for the picture. -/
theorem convertPixels_backed (h : convertPixels enc px stride r = (ok, enc'))
    (hb : enc.Backed) :
    enc'.Backed ∧ (ok = true → ¬ enc'.convSize < enc.dstStride * enc.height) := by
  simp only [Encoder.Backed] at hb ⊢
  simp only [convertPixels] at h
  have hself : ¬ enc.dstStride * enc.height < enc.dstStride * enc.height := UInt32.lt_irrefl _
  grind [Encoder.acquire, Encoder.release, Encoder.read]

theorem convBuf_of_needed {enc : Encoder} (hb : enc.Backed) (hsize : ¬ enc.convSize < needed)
    (hn : needed ≠ 0) :
    enc.convBuf.isSome = true := by
  apply hb
  intro hz
  rw [hz] at hsize
  exact hn (UInt32.le_zero_iff.1 (UInt32.not_lt.1 hsize))

theorem rawEncode_spec (h : rawEncode enc px stride r = (ok, enc')) :
    EncodeStep .none px stride enc ok enc' ∧ enc'.h264Meta = enc.h264Meta := by
  simp only [rawEncode] at h
  cases hc : convertPixels enc px stride r with
  | mk converted enc₁ =>
    obtain ⟨hs, hm, hr⟩ := convertPixels_spec hc
    have hb := convertPixels_backed hc
    simp only [hc] at h
    cases converted with
    | false =>
      obtain ⟨rfl, rfl⟩ := h
      exact ⟨⟨hs, hr, fun hbacked => (hb hbacked).1, fun h => by cases h⟩, hm⟩
    | true =>
      obtain ⟨rfl, rfl⟩ := h
      refine ⟨⟨⟨hs.mode, hs.width, hs.height, hs.version⟩, hr, fun hbacked => (hb hbacked).1,
        fun _ hbacked hlen => ?_⟩, hm⟩
      obtain ⟨hbacked', hsize⟩ := hb hbacked
      have hneeded : enc.dstStride * enc.height ≠ 0 := fun hz => hlen ⟨hz, rfl⟩
      have hsome := convBuf_of_needed hbacked' (hsize rfl) hneeded
      obtain ⟨buf, hbuf⟩ := Option.isSome_iff_exists.1 hsome
      simp only [hbuf, hs.width, hs.height, Option.map_some]

theorem nscEncode_spec (h : nscEncode enc px stride r = (ok, enc')) :
    EncodeStep .nscodec px stride enc ok enc' := by
  simp only [nscEncode] at h
  cases hc : convertPixels enc px stride r with
  | mk converted enc₁ =>
    obtain ⟨hs, hm, hr⟩ := convertPixels_spec hc
    have hb := convertPixels_backed hc
    simp only [hc] at h
    simp only [Encoder.Backed] at hb
    grind [Encoder.use, SameSetup, EncodeStep, Encoder.Backed]

theorem progressiveEncode_spec (h : progressiveEncode enc px stride r = (ok, enc')) :
    EncodeStep .caprogressive px stride enc ok enc' := by
  simp only [progressiveEncode] at h
  grind [Encoder.use, Encoder.read, SameSetup, EncodeStep, Encoder.Backed]

theorem encoderClearH264Metadata_conv (enc : Encoder) :
    (encoderClearH264Metadata enc).convBuf = enc.convBuf ∧
      (encoderClearH264Metadata enc).convSize = enc.convSize := by
  simp only [encoderClearH264Metadata, freeH264Metablock]
  grind [Encoder.release]

theorem h264Encode_conv (h : h264Encode enc px stride r = (ok, enc')) :
    enc'.convBuf = enc.convBuf ∧ enc'.convSize = enc.convSize := by
  have hb := encoderClearH264Metadata_conv enc
  simp only [h264Encode] at h
  generalize encoderClearH264Metadata enc = e₁ at h hb
  have hconv := fun e => encoderClearH264Metadata_conv e
  grind [Encoder.use, Encoder.read, Encoder.acquire, Encoder.obtainMetablock]

theorem h264Encode_spec (h : h264Encode enc px stride r = (ok, enc')) :
    EncodeStep (h264Codec enc.avc444Version) px stride enc ok enc' := by
  obtain ⟨hbuf, hsize⟩ := h264Encode_conv h
  have hbacked : enc.Backed → enc'.Backed := by
    rw [Encoder.Backed, Encoder.Backed, hbuf, hsize]
    exact id
  have hc := encoderClearH264Metadata_setup enc
  have hr := encoderClearH264Metadata_reads enc
  simp only [h264Encode] at h
  generalize encoderClearH264Metadata enc = e₁ at h hc hr
  have hclear := fun e => encoderClearH264Metadata_setup e
  clear hbuf hsize
  grind [Encoder.use, Encoder.read, Encoder.acquire, Encoder.obtainMetablock, SameSetup,
    EncodeStep, h264Codec, encoderClearH264Metadata_reads]

theorem encoderEncode_spec (h : encoderEncode enc px stride r = (ok, enc')) :
    EncodeStep enc.codec px stride enc ok enc' := by
  simp only [encoderEncode] at h
  simp only [Encoder.codec]
  cases hm : enc.mode with
  | raw => rw [hm] at h; exact (rawEncode_spec h).1
  | nsac => rw [hm] at h; exact nscEncode_spec h
  | h264Ffmpeg => rw [hm] at h; exact (rawEncode_spec h).1
  | h264Freerdp => rw [hm] at h; exact h264Encode_spec h
  | progressive => rw [hm] at h; exact progressiveEncode_spec h

/-- A RAW encode does not touch the H.264 metadata. -/
theorem encoderEncode_raw_metadata (h : encoderEncode enc px stride r = (ok, enc'))
    (hm : enc.mode = .raw) : enc'.h264Meta = enc.h264Meta := by
  rw [encoderEncode, hm] at h
  exact (rawEncode_spec h).2

/-- The constructors that `encoder_init` calls for the mode all succeed. -/
def CodecSetup.delivers (r : CodecSetup) : EncoderMode → Bool
  | .raw => true
  | .nsac => r.nscContextNew.isSome && r.nscColorFormat && r.streamNew.isSome
  | .h264Ffmpeg => false
  | .h264Freerdp => r.h264ContextNew.isSome && r.h264ContextReset
  | .progressive => r.progressiveContextNew.isSome && r.progressiveCreateSurface

/-- An attempt to set up one codec: it succeeds exactly when the constructors do, and then
the mode is the codec's; nothing else that matters to an encode changes. -/
structure SetupStep (mode : EncoderMode) (r : CodecSetup) (e : Encoder) (ok : Bool)
    (e' : Encoder) : Prop where
  result : ok = r.delivers mode
  mode : ok = true → e'.mode = mode
  width : e'.width = e.width
  height : e'.height = e.height
  version : e'.avc444Version = e.avc444Version
  h264Meta : e'.h264Meta = e.h264Meta
  reads : e'.history.reads = e.history.reads
  convSize : e'.convSize = e.convSize

theorem h264Init_spec (h : h264Init e r = (ok, e')) : SetupStep .h264Freerdp r e ok e' := by
  simp only [h264Init] at h
  grind [SetupStep, Encoder.acquire, Encoder.release, CodecSetup.delivers]

theorem progressiveInit_spec (h : progressiveInit e r = (ok, e')) :
    SetupStep .progressive r e ok e' := by
  simp only [progressiveInit] at h
  grind [SetupStep, Encoder.acquire, Encoder.release, CodecSetup.delivers]

theorem nscInit_spec (h : nscInit e r = (ok, e')) : SetupStep .nsac r e ok e' := by
  simp only [nscInit] at h
  grind [SetupStep, Encoder.acquire, Encoder.release, CodecSetup.delivers]

/-- The encoder that `encoder_init` leaves behind. -/
structure InitStep (mode : EncoderMode) (width height : UInt32) (version : UInt8)
    (r : CodecSetup) (e e' : Encoder) : Prop where
  mode : e'.mode = if r.delivers mode then mode else .raw
  width : e'.width = width
  height : e'.height = height
  version : e'.avc444Version = version
  h264Meta : e'.h264Meta = .zero
  reads : e'.history.reads = e.history.reads
  convSize : e'.convSize = 0

theorem InitStep.backed (h : InitStep m w hgt v r e e') : e'.Backed := fun hn =>
  absurd h.convSize hn

theorem SetupStep.initStep (h : SetupStep m r (enc.cleared w hgt v f) ok e₁) :
    InitStep m w hgt v r enc (if ok then (true, e₁) else rawInit e₁).2 := by
  have hok := h.result
  cases ok with
  | true =>
    refine ⟨?_, h.width, h.height, h.version, h.h264Meta, h.reads, h.convSize⟩
    rw [← hok]
    exact h.mode rfl
  | false =>
    refine ⟨?_, h.width, h.height, h.version, h.h264Meta, h.reads, h.convSize⟩
    rw [← hok]
    rfl

theorem encoderInit_ok : (encoderInit enc mode w h v f r).1 = true := by
  simp only [encoderInit, rawInit]
  grind

theorem encoderInit_spec : InitStep mode w h v r enc (encoderInit enc mode w h v f r).2 := by
  simp only [encoderInit]
  cases mode with
  | raw => exact ⟨rfl, rfl, rfl, rfl, rfl, rfl, rfl⟩
  | h264Ffmpeg => exact ⟨rfl, rfl, rfl, rfl, rfl, rfl, rfl⟩
  | nsac => exact (nscInit_spec rfl).initStep
  | h264Freerdp => exact (h264Init_spec rfl).initStep
  | progressive => exact (progressiveInit_spec rfl).initStep

theorem encoderRequestKeyframe_history (enc : Encoder) :
    ∃ objects, encoderRequestKeyframe enc = { enc with history.objects := objects } := by
  rw [encoderRequestKeyframe]
  split <;> exact ⟨_, rfl⟩

/-- Asking for a keyframe resets the codec context and nothing else. -/
theorem InitStep.requestKeyframe (h : InitStep m w hgt v r e e') :
    InitStep m w hgt v r e (encoderRequestKeyframe e') := by
  obtain ⟨objects, he⟩ := encoderRequestKeyframe_history e'
  rw [he]
  exact ⟨h.mode, h.width, h.height, h.version, h.h264Meta, h.reads, h.convSize⟩

@[simp] theorem encoderDestroy_reads (enc : Encoder) :
    (encoderDestroy enc).history.reads = enc.history.reads := by
  have h := encoderClearH264Metadata_reads enc
  simp only [encoderDestroy]
  generalize encoderClearH264Metadata enc = e₁ at h ⊢
  rw [← h]
  simp only [Encoder.zero, nscCleanup, rawCleanup, Encoder.release]
  grind

end Wlrdp
