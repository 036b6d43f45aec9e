import Wlrdp.HandlerMoves

namespace Wlrdp
set_option autoImplicit true

variable {enc enc' : Encoder} {w w' : Worker}

/-! ### What an encoder owns -/

def Metablock.owned (m : Metablock) : List EncoderObject := (m.regions.map .metablock).toList

namespace Encoder

/-- The contexts and buffers of the codecs, in the order in which `encoder_destroy` frees
them. -/
def contexts (enc : Encoder) : List EncoderObject :=
  (enc.h264Ctx.map .h264).toList ++ ((enc.progCtx.map .progressive).toList ++
    ((enc.nscStream.map .nscStream).toList ++ ((enc.nscCtx.map .nsc).toList ++
      (enc.convBuf.map .convBuf).toList)))

/-- Every object that a field of the encoder refers to. -/
def owned (enc : Encoder) : List EncoderObject :=
  enc.h264Meta.owned ++ (enc.h264AuxMeta.owned ++ enc.contexts)

end Encoder

/-- The fields account for every live object, and a codec has its context exactly if it is the
mode. -/
structure EncoderInv (enc : Encoder) : Prop where
  owns : enc.history.objects.Owns enc.owned
  h264 : enc.h264Ctx.isSome = decide (enc.mode = .h264Freerdp)
  progressive : enc.progCtx.isSome = decide (enc.mode = .progressive)
  nsc : enc.nscCtx.isSome = decide (enc.mode = .nsac)
  nscStream : enc.nscStream.isSome = decide (enc.mode = .nsac)

/-- Mode and codec contexts are as before. -/
structure SameContexts (e e' : Encoder) : Prop where
  mode : e'.mode = e.mode
  h264 : e'.h264Ctx = e.h264Ctx
  progressive : e'.progCtx = e.progCtx
  nsc : e'.nscCtx = e.nscCtx
  nscStream : e'.nscStream = e.nscStream

theorem EncoderInv.same (h : EncoderInv enc) (hs : SameContexts enc enc')
    (ho : enc'.history.objects.Owns enc'.owned) : EncoderInv enc' := by
  obtain ⟨_, h₁, h₂, h₃, h₄⟩ := h
  refine ⟨ho, ?_, ?_, ?_, ?_⟩
  · rwa [hs.h264, hs.mode]
  · rwa [hs.progressive, hs.mode]
  · rwa [hs.nsc, hs.mode]
  · rwa [hs.nscStream, hs.mode]

theorem EncoderInv.zero (h : history.objects.Owns []) : EncoderInv (.zero history) :=
  ⟨h, rfl, rfl, rfl, rfl⟩

/-! ### Releasing -/

theorem freeH264Metablock_eq (enc : Encoder) (m : Metablock) : freeH264Metablock enc m =
    { enc with history.objects := enc.history.objects.releaseAll m.owned } := by
  obtain ⟨n, regions⟩ := m
  cases regions with
  | none => rfl
  | some h => rfl

theorem encoderClearH264Metadata_eq (enc : Encoder) : encoderClearH264Metadata enc =
    { enc with
      h264Meta := .zero, h264AuxMeta := .zero
      history.objects :=
        enc.history.objects.releaseAll (enc.h264Meta.owned ++ enc.h264AuxMeta.owned) } := by
  rw [encoderClearH264Metadata, freeH264Metablock_eq, freeH264Metablock_eq,
    Ledger.releaseAll_append]

/-- Clearing the metadata leaves the contexts. -/
theorem EncoderInv.cleared (h : EncoderInv enc) :
    (encoderClearH264Metadata enc).history.objects.Owns enc.contexts := by
  rw [encoderClearH264Metadata_eq]
  have howns : enc.history.objects.Owns
      ((enc.h264Meta.owned ++ enc.h264AuxMeta.owned) ++ enc.contexts) := by
    rw [List.append_assoc]
    exact h.owns
  exact howns.releaseAll

theorem EncoderInv.clear (h : EncoderInv enc) : EncoderInv (encoderClearH264Metadata enc) := by
  have hcleared := h.cleared
  rw [encoderClearH264Metadata_eq] at hcleared ⊢
  exact h.same ⟨rfl, rfl, rfl, rfl, rfl⟩ hcleared

namespace Encoder

/-- The part of `encoder_destroy` about the H.264 context. -/
def freeH264 (enc : Encoder) : Encoder :=
  match enc.h264Ctx with
  | some h => { enc.release (.h264 h) with h264Ctx := none }
  | none => enc

/-- The part of `encoder_destroy` about the Progressive context. -/
def freeProgressive (enc : Encoder) : Encoder :=
  match enc.progCtx with
  | some h => { enc.release (.progressive h) with progCtx := none }
  | none => enc

theorem freeH264_eq (enc : Encoder) : enc.freeH264 =
    { enc with
      h264Ctx := none
      history.objects := enc.history.objects.releaseAll (enc.h264Ctx.map .h264).toList } := by
  rw [freeH264]
  cases hc : enc.h264Ctx with
  | none => cases enc; cases hc; rfl
  | some h => rfl

theorem freeProgressive_eq (enc : Encoder) : enc.freeProgressive =
    { enc with
      progCtx := none
      history.objects := enc.history.objects.releaseAll (enc.progCtx.map .progressive).toList } := by
  rw [freeProgressive]
  cases hc : enc.progCtx with
  | none => cases enc; cases hc; rfl
  | some h => rfl

end Encoder

theorem nscCleanup_eq (enc : Encoder) : nscCleanup enc =
    { enc with
      nscStream := none, nscCtx := none
      history.objects := enc.history.objects.releaseAll
        ((enc.nscStream.map .nscStream).toList ++ (enc.nscCtx.map .nsc).toList) } := by
  rw [nscCleanup]
  cases hs : enc.nscStream with
  | none =>
    cases hc : enc.nscCtx with
    | none => cases enc; cases hs; cases hc; rfl
    | some h => cases enc; cases hs; cases hc; rfl
  | some h =>
    cases hc : enc.nscCtx with
    | none => cases enc; cases hs; cases hc; rfl
    | some h => cases enc; cases hs; cases hc; rfl

theorem rawCleanup_eq (enc : Encoder) : rawCleanup enc =
    { enc with
      convBuf := none, convSize := 0
      history.objects := enc.history.objects.releaseAll (enc.convBuf.map .convBuf).toList } := by
  rw [rawCleanup]
  cases enc.convBuf with
  | none => rfl
  | some h => rfl

theorem encoderDestroy_eq (enc : Encoder) : encoderDestroy enc =
    .zero { enc.history with objects := enc.history.objects.releaseAll enc.owned } := by
  have hparts : encoderDestroy enc = .zero
      (rawCleanup (nscCleanup (encoderClearH264Metadata enc).freeH264.freeProgressive)).history := rfl
  rw [hparts, encoderClearH264Metadata_eq, Encoder.freeH264_eq, Encoder.freeProgressive_eq,
    nscCleanup_eq, rawCleanup_eq]
  simp only [Encoder.owned, Encoder.contexts, Ledger.releaseAll_append]

/-- `encoder_destroy` releases everything. -/
theorem EncoderInv.destroyed (h : EncoderInv enc) :
    (encoderDestroy enc).history.objects.Owns [] := by
  rw [encoderDestroy_eq]
  have howns : enc.history.objects.Owns (enc.owned ++ []) := by
    rw [List.append_nil]
    exact h.owns
  exact howns.releaseAll

theorem EncoderInv.destroy (h : EncoderInv enc) : EncoderInv (encoderDestroy enc) := by
  have howns := h.destroyed
  rw [encoderDestroy_eq] at howns ⊢
  exact .zero howns

/-! ### Encoding -/

/-- Using a live object changes nothing. -/
theorem Encoder.use_eq (h : enc.history.objects.Owns as) (ho : o ∈ as) : enc.use o = enc := by
  rw [Encoder.use, h.use ho]

namespace Encoder

/-- Everything but the conversion buffer. -/
def unbuffered (enc : Encoder) : List EncoderObject :=
  enc.h264Meta.owned ++ (enc.h264AuxMeta.owned ++ ((enc.h264Ctx.map .h264).toList ++
    ((enc.progCtx.map .progressive).toList ++ ((enc.nscStream.map .nscStream).toList ++
      (enc.nscCtx.map .nsc).toList))))

theorem owned_eq (enc : Encoder) :
    enc.owned = enc.unbuffered ++ (enc.convBuf.map .convBuf).toList := by
  simp only [owned, contexts, unbuffered, List.append_assoc]

/-- The part of an encode that grows the conversion buffer. -/
def growBuffer (enc : Encoder) (buf : Handle) (needed : UInt32) : Encoder :=
  let enc := match enc.convBuf with
    | some old => enc.release (.convBuf old)
    | none => enc
  { enc.acquire (.convBuf buf) with convBuf := some buf, convSize := needed }

end Encoder

theorem EncoderInv.growBuffer (h : EncoderInv enc) (buf : Handle) (needed : UInt32) :
    EncoderInv (enc.growBuffer buf needed) := by
  have howns := h.owns
  rw [enc.owned_eq] at howns
  rw [Encoder.growBuffer]
  cases hc : enc.convBuf with
  | none =>
    rw [hc] at howns
    refine h.same ⟨rfl, rfl, rfl, rfl, rfl⟩ ?_
    rw [Encoder.owned_eq]
    exact howns.acquire
  | some old =>
    rw [hc] at howns
    have hreleased : (enc.history.objects.release (.convBuf old)).Owns (enc.unbuffered ++ []) :=
      howns.release
    refine h.same ⟨rfl, rfl, rfl, rfl, rfl⟩ ?_
    rw [Encoder.owned_eq]
    exact hreleased.acquire

theorem EncoderInv.read (h : EncoderInv enc) (px : Option UInt32) (stride : UInt32) :
    EncoderInv (enc.read px stride) := ⟨h.owns, h.h264, h.progressive, h.nsc, h.nscStream⟩

theorem convertPixels_inv (h : EncoderInv enc) (px : Option UInt32) (stride : UInt32)
    (r : CodecRun) : EncoderInv (convertPixels enc px stride r).2 := by
  simp only [convertPixels]
  split
  · cases r.realloc with
    | none => exact h
    | some buf => exact (h.growBuffer buf _).read px stride
  · exact h.read px stride

theorem rawEncode_inv (h : EncoderInv enc) (px : Option UInt32) (stride : UInt32)
    (r : CodecRun) : EncoderInv (rawEncode enc px stride r).2 := by
  have hconv := convertPixels_inv h px stride r
  simp only [rawEncode]
  cases hc : convertPixels enc px stride r with
  | mk ok e =>
    rw [hc] at hconv
    cases ok with
    | false => exact hconv
    | true => exact ⟨hconv.owns, hconv.h264, hconv.progressive, hconv.nsc, hconv.nscStream⟩

theorem mem_slot {k : Handle → EncoderObject} {f : Option Handle} (hf : f = some x) :
    k x ∈ (f.map k).toList := by
  rw [hf]
  exact List.mem_singleton_self _

namespace Encoder

/-- The use of the NSCodec context and its stream by `nsc_compose_message`. -/
def useNsc (enc : Encoder) : Encoder :=
  let enc := match enc.nscStream with
    | some h => enc.use (.nscStream h)
    | none => enc
  match enc.nscCtx with
  | some h => enc.use (.nsc h)
  | none => enc

def useProgressive (enc : Encoder) : Encoder :=
  match enc.progCtx with
  | some h => enc.use (.progressive h)
  | none => enc

def useH264 (enc : Encoder) : Encoder :=
  match enc.h264Ctx with
  | some h => enc.use (.h264 h)
  | none => enc

end Encoder

theorem EncoderInv.useNsc (h : EncoderInv enc) : enc.useNsc = enc := by
  have hstream : (match enc.nscStream with
      | some h => enc.use (.nscStream h)
      | none => enc) = enc := by
    cases hs : enc.nscStream with
    | none => rfl
    | some x =>
      apply Encoder.use_eq h.owns
      rw [Encoder.owned, Encoder.contexts]
      simp only [List.mem_append]
      exact .inr (.inr (.inr (.inr (.inl (mem_slot hs)))))
  rw [Encoder.useNsc, hstream]
  cases hn : enc.nscCtx with
  | none => rfl
  | some x =>
    apply Encoder.use_eq h.owns
    rw [Encoder.owned, Encoder.contexts]
    simp only [List.mem_append]
    exact .inr (.inr (.inr (.inr (.inr (.inl (mem_slot hn))))))

theorem EncoderInv.useProgressive (h : EncoderInv enc) : enc.useProgressive = enc := by
  rw [Encoder.useProgressive]
  cases hp : enc.progCtx with
  | none => rfl
  | some x =>
    apply Encoder.use_eq h.owns
    rw [Encoder.owned, Encoder.contexts]
    simp only [List.mem_append]
    exact .inr (.inr (.inr (.inl (mem_slot hp))))

theorem EncoderInv.useH264 (h : EncoderInv enc) : enc.useH264 = enc := by
  rw [Encoder.useH264]
  cases hc : enc.h264Ctx with
  | none => rfl
  | some x =>
    apply Encoder.use_eq h.owns
    rw [Encoder.owned, Encoder.contexts]
    simp only [List.mem_append]
    exact .inr (.inr (.inl (mem_slot hc)))

theorem nscEncode_inv (h : EncoderInv enc) (px : Option UInt32) (stride : UInt32)
    (r : CodecRun) : EncoderInv (nscEncode enc px stride r).2 := by
  have hconv := convertPixels_inv h px stride r
  simp only [nscEncode]
  cases hc : convertPixels enc px stride r with
  | mk ok e =>
    rw [hc] at hconv
    cases ok with
    | false => exact hconv
    | true =>
      change EncoderInv (if !r.compress then (false, e.useNsc) else (true, { e.useNsc with
        outBuf := _, outLen := _, auxBuf := _, auxLen := _, isKeyframe := _ })).2
      rw [hconv.useNsc]
      split
      · exact hconv
      · exact ⟨hconv.owns, hconv.h264, hconv.progressive, hconv.nsc, hconv.nscStream⟩

theorem progressiveEncode_inv (h : EncoderInv enc) (px : Option UInt32) (stride : UInt32)
    (r : CodecRun) : EncoderInv (progressiveEncode enc px stride r).2 := by
  have hparts : progressiveEncode enc px stride r =
      if !r.regionUnion then (false, enc) else
      let e := enc.useProgressive.read px stride
      if !r.compress then (false, { e with outBuf := none, outLen := 0 }) else
      (true, { e with
        outBuf := some ⟨.caprogressive, e.width, e.height⟩, outLen := r.outLen
        auxBuf := none, auxLen := 0, isKeyframe := true }) := rfl
  obtain ⟨howns, h₁, h₂, h₃, h₄⟩ := h.read px stride
  rw [hparts, h.useProgressive]
  split
  · exact h
  · dsimp only
    split
    · exact ⟨howns, h₁, h₂, h₃, h₄⟩
    · exact ⟨howns, h₁, h₂, h₃, h₄⟩

/-- A metablock that a codec returns is owned from then on. -/
theorem obtainMetablock_eq (enc : Encoder) (m : Metablock) :
    ∃ objects, enc.obtainMetablock m = { enc with history.objects := objects } ∧
      ∀ as bs, enc.history.objects.Owns (as ++ bs) → objects.Owns (as ++ (m.owned ++ bs)) := by
  rw [Encoder.obtainMetablock, Metablock.owned]
  cases m.regions with
  | none => exact ⟨enc.history.objects, rfl, fun _ _ h => h⟩
  | some h => exact ⟨_, rfl, fun _ _ howns => howns.acquire⟩

namespace Encoder

/-- `h264_encode` up to the compression. -/
def h264Prepared (enc : Encoder) (px : Option UInt32) (stride : UInt32) : Encoder :=
  let enc := encoderClearH264Metadata enc
  let enc := { enc with outBuf := none, outLen := 0, auxBuf := none, auxLen := 0, avc444Lc := 0 }
  enc.useH264.read px stride

/-- What the compression of `h264_encode` stores. -/
def h264Compressed (enc : Encoder) (r : CodecRun) : Encoder :=
  if enc.avc444Version ≠ 0 then
    let stream := ⟨avc444Codec enc.avc444Version, enc.width, enc.height⟩
    let enc := (enc.obtainMetablock r.metablock).obtainMetablock r.auxMetablock
    { enc with
      outBuf := some stream, outLen := r.outLen, auxBuf := some stream, auxLen := r.auxLen
      avc444Lc := r.avc444Lc, h264Meta := r.metablock, h264AuxMeta := r.auxMetablock }
  else
    let enc := enc.obtainMetablock r.metablock
    { enc with
      outBuf := some ⟨.avc420, enc.width, enc.height⟩, outLen := r.outLen
      h264Meta := r.metablock }

end Encoder

theorem EncoderInv.h264Prepared (h : EncoderInv enc) (px : Option UInt32) (stride : UInt32) :
    EncoderInv (enc.h264Prepared px stride) ∧ (enc.h264Prepared px stride).h264Meta = .zero ∧
      (enc.h264Prepared px stride).h264AuxMeta = .zero := by
  obtain ⟨howns, h₁, h₂, h₃, h₄⟩ := h.clear
  have hclear := encoderClearH264Metadata_eq enc
  rw [Encoder.h264Prepared]
  generalize encoderClearH264Metadata enc = e at *
  have hreset : EncoderInv { e with
      outBuf := none, outLen := 0, auxBuf := none, auxLen := 0, avc444Lc := 0 } :=
    ⟨howns, h₁, h₂, h₃, h₄⟩
  rw [hreset.useH264]
  refine ⟨hreset.read px stride, ?_, ?_⟩
  · rw [hclear]
    rfl
  · rw [hclear]
    rfl

theorem EncoderInv.h264Compressed (h : EncoderInv enc) (hm : enc.h264Meta = .zero)
    (ha : enc.h264AuxMeta = .zero) (r : CodecRun) : EncoderInv (enc.h264Compressed r) := by
  have hown := h.owns
  rw [Encoder.owned, hm, ha] at hown
  obtain ⟨objects, he, hobjects⟩ := obtainMetablock_eq enc r.metablock
  have hmain : objects.Owns (r.metablock.owned ++ enc.contexts) := hobjects [] _ hown
  simp only [Encoder.h264Compressed]
  rw [he]
  split
  · obtain ⟨objects', he', hobjects'⟩ :=
      obtainMetablock_eq { enc with history.objects := objects } r.auxMetablock
    rw [he']
    exact h.same ⟨rfl, rfl, rfl, rfl, rfl⟩ (hobjects' _ _ hmain)
  · refine h.same ⟨rfl, rfl, rfl, rfl, rfl⟩ ?_
    change objects.Owns (r.metablock.owned ++ (enc.h264AuxMeta.owned ++ enc.contexts))
    rw [ha]
    exact hmain

theorem h264Encode_inv (h : EncoderInv enc) (px : Option UInt32) (stride : UInt32)
    (r : CodecRun) : EncoderInv (h264Encode enc px stride r).2 := by
  have hparts : h264Encode enc px stride r =
      let e := (enc.h264Prepared px stride).h264Compressed r
      if !r.compress then (false, encoderClearH264Metadata e) else
      (true, { e with isKeyframe := true }) := rfl
  obtain ⟨hprepared, hm, ha⟩ := h.h264Prepared px stride
  have hcompressed := hprepared.h264Compressed hm ha r
  rw [hparts]
  dsimp only
  split
  · exact hcompressed.clear
  · obtain ⟨howns, h₁, h₂, h₃, h₄⟩ := hcompressed
    exact ⟨howns, h₁, h₂, h₃, h₄⟩

theorem encoderEncode_inv (h : EncoderInv enc) (px : Option UInt32) (stride : UInt32)
    (r : CodecRun) : EncoderInv (encoderEncode enc px stride r).2 := by
  rw [encoderEncode]
  cases enc.mode with
  | raw => exact rawEncode_inv h px stride r
  | nsac => exact nscEncode_inv h px stride r
  | h264Ffmpeg => exact rawEncode_inv h px stride r
  | h264Freerdp => exact h264Encode_inv h px stride r
  | progressive => exact progressiveEncode_inv h px stride r

/-! ### Setting up -/

theorem Encoder.release_acquire (enc : Encoder) (o : EncoderObject) :
    (enc.acquire o).release o = enc := by
  rw [Encoder.acquire, Encoder.release, Ledger.release_acquire]

/-- The fallback of `encoder_init`. -/
def settled (p : Bool × Encoder) : Encoder := if p.1 then p.2 else (rawInit p.2).2

theorem h264Init_inv (h : enc.history.objects.Owns []) (r : CodecSetup) :
    EncoderInv (settled (h264Init (enc.cleared width height version format) r)) := by
  rw [h264Init]
  cases r.h264ContextNew with
  | none => exact ⟨h, rfl, rfl, rfl, rfl⟩
  | some x =>
    dsimp only
    rw [Encoder.release_acquire]
    cases r.h264ContextReset with
    | false => exact ⟨h, rfl, rfl, rfl, rfl⟩
    | true =>
      have howns : enc.history.objects.Owns ([] ++ []) := h
      exact ⟨howns.acquire, rfl, rfl, rfl, rfl⟩

theorem progressiveInit_inv (h : enc.history.objects.Owns []) (r : CodecSetup) :
    EncoderInv (settled (progressiveInit (enc.cleared width height version format) r)) := by
  rw [progressiveInit]
  cases r.progressiveContextNew with
  | none => exact ⟨h, rfl, rfl, rfl, rfl⟩
  | some x =>
    dsimp only
    rw [Encoder.release_acquire]
    cases r.progressiveCreateSurface with
    | false => exact ⟨h, rfl, rfl, rfl, rfl⟩
    | true =>
      have howns : enc.history.objects.Owns ([] ++ []) := h
      exact ⟨howns.acquire, rfl, rfl, rfl, rfl⟩

theorem nscInit_inv (h : enc.history.objects.Owns []) (r : CodecSetup) :
    EncoderInv (settled (nscInit (enc.cleared width height version format) r)) := by
  rw [nscInit]
  cases r.nscContextNew with
  | none => exact ⟨h, rfl, rfl, rfl, rfl⟩
  | some x =>
    dsimp only
    rw [Encoder.release_acquire]
    cases r.nscColorFormat with
    | false => exact ⟨h, rfl, rfl, rfl, rfl⟩
    | true =>
      cases r.streamNew with
      | none => exact ⟨h, rfl, rfl, rfl, rfl⟩
      | some stream =>
        have howns : enc.history.objects.Owns ([] ++ []) := h
        have hnsc : (enc.history.objects.acquire (.nsc x)).Owns ([] ++ [.nsc x]) := howns.acquire
        exact ⟨hnsc.acquire, rfl, rfl, rfl, rfl⟩

/-- Without an owned object, `encoder_init` owns what the mode that it ends up in needs. -/
theorem encoderInit_inv (h : enc.history.objects.Owns []) (mode : EncoderMode)
    (width height : UInt32) (version : UInt8) (format : PixelFormat) (r : CodecSetup) :
    EncoderInv (encoderInit enc mode width height version format r).2 := by
  have hsettled : ∀ {p : Bool × Encoder}, EncoderInv (settled p) →
      EncoderInv (if p.1 then (true, p.2) else rawInit p.2).2 := by
    rintro ⟨ok, e⟩ hp
    cases ok with
    | false => exact hp
    | true => exact hp
  simp only [encoderInit]
  cases mode with
  | raw => exact ⟨h, rfl, rfl, rfl, rfl⟩
  | h264Ffmpeg => exact ⟨h, rfl, rfl, rfl, rfl⟩
  | nsac => exact hsettled (nscInit_inv h r)
  | h264Freerdp => exact hsettled (h264Init_inv h r)
  | progressive => exact hsettled (progressiveInit_inv h r)

theorem EncoderInv.requestKeyframe (h : EncoderInv enc) : encoderRequestKeyframe enc = enc := by
  have h₁ := h.useH264
  have h₂ := h.useProgressive
  rw [Encoder.useH264] at h₁
  rw [Encoder.useProgressive] at h₂
  rw [encoderRequestKeyframe]
  split
  · next hc =>
    rw [hc] at h₁
    exact h₁
  · next hp =>
    rw [hp] at h₂
    exact h₂
  · rfl

/-! ### The encoder of a session -/

/-- What `init_encoder_for_client` hands to `encoder_init`. -/
def Worker.releasedEncoder (w : Worker) : Encoder :=
  if w.encoderInitialized then encoderDestroy w.encoder else w.encoder

/-- What an event can do to the encoder of the session. -/
inductive EncoderStep (w : Worker) : Worker → Prop
  | kept (he : v.encoder = w.encoder) (hi : v.encoderInitialized = w.encoderInitialized)
      (hx : v.exited = w.exited) : EncoderStep w v
  | began (he : u.encoder = w.encoder) (hi : u.encoderInitialized = w.encoderInitialized)
      (h : v.encoder = (initEncoderForClient u r).encoder) (hi' : v.encoderInitialized = true)
      (hx : v.exited = w.exited) : EncoderStep w v
  | encoded (he : encoderEncode w.encoder px stride r = (ok, v.encoder))
      (hi : w.encoderInitialized = true) (hi' : v.encoderInitialized = true)
      (hx : v.exited = w.exited) : EncoderStep w v
  | left (he : v.encoder = w.releasedEncoder) : EncoderStep w v

/-- The encoder is in order, and owns nothing while it is not in use. -/
structure EncoderOwned (w : Worker) : Prop where
  inv : EncoderInv w.encoder
  idle : w.encoderInitialized = false → w.encoder.history.objects.Owns []
  exited : w.exited = true → w.encoder.history.objects.Owns []

theorem EncoderOwned.start : EncoderOwned (.start standalone clipboard audio width height) :=
  ⟨.zero .empty, fun _ => .empty, fun _ => .empty⟩

theorem EncoderOwned.released (h : EncoderOwned w) :
    EncoderInv w.releasedEncoder ∧ w.releasedEncoder.history.objects.Owns [] := by
  rw [Worker.releasedEncoder]
  cases hi : w.encoderInitialized with
  | true => exact ⟨h.inv.destroy, h.inv.destroyed⟩
  | false => exact ⟨h.inv, h.idle hi⟩

/-- The encoder that `init_encoder_for_client` asks for a keyframe. -/
def Worker.freshEncoder (w : Worker) (r : CodecSetup) : Encoder :=
  (encoderInit w.releasedEncoder w.encoderRequest.1 w.width w.height w.encoderRequest.2
    w.encoderFormat r).2

theorem freshEncoder_inv (h : w.releasedEncoder.history.objects.Owns []) (r : CodecSetup) :
    EncoderInv (w.freshEncoder r) := encoderInit_inv h ..

theorem initEncoderForClient_inv (h : w.releasedEncoder.history.objects.Owns [])
    (r : CodecSetup) : EncoderInv (initEncoderForClient w r).encoder := by
  have hfresh := freshEncoder_inv h r
  simp only [initEncoderForClient]
  rw [encoderInit_ok, if_pos rfl]
  change EncoderInv (encoderRequestKeyframe (w.freshEncoder r))
  rw [hfresh.requestKeyframe]
  exact hfresh

theorem EncoderOwned.after (h : EncoderOwned w) (hx : w.exited = false) (hs : EncoderStep w w') :
    EncoderOwned w' := by
  have hrunning : w'.exited = w.exited → w'.exited = true →
      w'.encoder.history.objects.Owns [] := by
    intro hx' ht
    rw [hx', hx] at ht
    cases ht
  have hused : w'.encoderInitialized = true → w'.encoderInitialized = false →
      w'.encoder.history.objects.Owns [] := by
    intro hi hf
    rw [hi] at hf
    cases hf
  cases hs with
  | kept he hi hx' =>
    refine ⟨?_, ?_, hrunning hx'⟩
    · rw [he]; exact h.inv
    · rw [he, hi]; exact h.idle
  | began he hi hw hi' hx' =>
    have howns := h.released.2
    rw [Worker.releasedEncoder, ← he, ← hi] at howns
    refine ⟨?_, hused hi', hrunning hx'⟩
    rw [hw]
    exact initEncoderForClient_inv howns _
  | @encoded px stride r _ _ he _ hi' hx' =>
    have henc := encoderEncode_inv h.inv px stride r
    rw [he] at henc
    exact ⟨henc, hused hi', hrunning hx'⟩
  | left he =>
    obtain ⟨hinv, howns⟩ := h.released
    rw [← he] at hinv howns
    exact ⟨hinv, fun _ => howns, fun _ => howns⟩

/-! ### What every event does to the encoder -/

theorem attachClient_kept (w : Worker) (r : AttachTurn) :
    (attachClient w r).encoder = w.encoder ∧
      (attachClient w r).encoderInitialized = w.encoderInitialized ∧
      (attachClient w r).exited = w.exited := by
  rw [attachClient]
  split
  · exact ⟨rfl, rfl, rfl⟩
  · dsimp only
    split <;> exact ⟨rfl, rfl, rfl⟩

theorem resizeTo_kept (w : Worker) (width height scale : UInt32) (r : ResizeTurn) :
    (w.resizeTo width height scale r).encoder = w.encoder ∧
      (w.resizeTo width height scale r).encoderInitialized = w.encoderInitialized ∧
      (w.resizeTo width height scale r).exited = w.exited := by
  simp only [Worker.resizeTo, Worker.onPeer]
  split <;> exact ⟨rfl, rfl, rfl⟩

theorem onPeerResize_encoder (w : Worker) (width height scale : UInt32) (r : ResizeTurn) :
    EncoderStep w (onPeerResize w width height scale r) := by
  cases hs : w.sameSize width height with
  | true =>
    rw [onPeerResize_same hs]
    exact .kept rfl rfl rfl
  | false =>
    obtain ⟨he, hi, hx⟩ := resizeTo_kept w (roundUp16 width) (roundUp16 height) scale r
    rw [onPeerResize_eq hs]
    dsimp only
    split
    · exact .began he hi rfl (initEncoderForClient_initialized ..) hx
    · exact .kept he hi hx

theorem startCapture_encoder (w : Worker) (c : Client) (r : ActivationTurn) :
    EncoderStep w (startCapture w c r) := by
  rw [startCapture_eq, beginCaptureIf]
  split
  · exact .began (u := { w with
      clientActive := true, frameIntervalMs := frameIntervalDefaultMs }) rfl rfl rfl
      (initEncoderForClient_initialized ..) rfl
  · exact .kept rfl rfl rfl

theorem frameStep_encoder {u : Worker} (he : u.encoder = w.encoder)
    (hi : u.encoderInitialized = w.encoderInitialized) (hx : u.exited = w.exited)
    (h : FrameStep u px width height stride r w') : EncoderStep w w' := by
  have hinit (hs : u.serving = true) : u.encoderInitialized = true :=
    (Bool.and_eq_true_iff.1 hs).2
  cases h with
  | ignored => exact .kept he hi hx
  | throttled _ _ hw =>
    subst hw
    exact .kept he hi hx
  | unsent hs _ hc hw =>
    subst hw
    exact .encoded (he ▸ hc) (hi ▸ hinit hs) (hinit hs) hx
  | sent hs _ _ hc _ _ _ hw =>
    subst hw
    exact .encoded (he ▸ hc) (hi ▸ hinit hs) (hinit hs) hx

theorem Change.encoder (h : Change w w') : EncoderStep w w' := by
  cases h with
  | resized => exact onPeerResize_encoder ..
  | attached r =>
    obtain ⟨he, hi, hx⟩ := attachClient_kept w r
    exact .kept he hi hx
  | disconnected => exact .left rfl

theorem Move.encoder (h : Move w e w') : EncoderStep w w' := by
  cases h with
  | aside hs => exact .kept hs.encoder hs.encoderInitialized hs.exited
  | client => exact .kept rfl rfl rfl
  | changed hs => exact hs.encoder
  | started => exact startCapture_encoder ..
  | framed hs hf => exact frameStep_encoder hs.encoder hs.encoderInitialized hs.exited hf

/-! ### Every run of the session -/

/-- The context that the mode of an encoder dispatches to exists. -/
def Encoder.Dispatches (enc : Encoder) : Prop :=
  match enc.mode with
  | .h264Freerdp => enc.h264Ctx.isSome = true
  | .progressive => enc.progCtx.isSome = true
  | .nsac => enc.nscCtx.isSome = true ∧ enc.nscStream.isSome = true
  | .raw | .h264Ffmpeg => True

def EncoderObject.isContext : EncoderObject → Bool
  | .h264 _ | .progressive _ | .nsc _ => true
  | .nscStream _ | .convBuf _ | .metablock _ => false

theorem EncoderInv.dispatches (h : EncoderInv enc) : enc.Dispatches := by
  rw [Encoder.Dispatches]
  split
  · next hm =>
    rw [h.h264, hm]
    rfl
  · next hm =>
    rw [h.progressive, hm]
    rfl
  · next hm =>
    rw [h.nsc, h.nscStream, hm]
    exact ⟨rfl, rfl⟩
  · trivial
  · trivial

theorem filter_contexts {k : Handle → EncoderObject} (h : ∀ x, (k x).isContext = b)
    (f : Option Handle) :
    ((f.map k).toList.filter EncoderObject.isContext).length = (f.isSome && b).toNat := by
  cases f with
  | none => rfl
  | some x =>
    change ([k x].filter EncoderObject.isContext).length = b.toNat
    rw [List.filter_cons, h]
    cases b <;> rfl

theorem filter_metablock (m : Metablock) :
    (m.owned.filter EncoderObject.isContext).length = 0 := by
  rw [Metablock.owned, filter_contexts (b := false) fun _ => rfl, Bool.and_false]
  rfl

/-- The modes exclude each other, and so do the contexts. -/
theorem EncoderInv.single (h : EncoderInv enc) :
    (enc.history.objects.live.filter EncoderObject.isContext).length ≤ 1 := by
  have h₁ := filter_contexts (b := true) (fun x => (rfl : (EncoderObject.h264 x).isContext = _))
    enc.h264Ctx
  have h₂ := filter_contexts (b := true)
    (fun x => (rfl : (EncoderObject.progressive x).isContext = _)) enc.progCtx
  have h₃ := filter_contexts (b := false)
    (fun x => (rfl : (EncoderObject.nscStream x).isContext = _)) enc.nscStream
  have h₄ := filter_contexts (b := true) (fun x => (rfl : (EncoderObject.nsc x).isContext = _))
    enc.nscCtx
  have h₅ := filter_contexts (b := false)
    (fun x => (rfl : (EncoderObject.convBuf x).isContext = _)) enc.convBuf
  rw [h.h264] at h₁
  rw [h.progressive] at h₂
  rw [h.nsc] at h₄
  rw [(h.owns.live.filter _).length_eq]
  simp only [Encoder.owned, Encoder.contexts, List.filter_append, List.length_append,
    filter_metablock, h₁, h₂, h₃, h₄, h₅]
  cases enc.mode <;> simp

/-- What the encoder of a session guarantees: its fields account for every live object, none was
released twice or used after its release, each dispatch finds its context, and only one codec
context exists at a time, since `encoder_init` starts from nothing. -/
structure Worker.EncoderSafe (w : Worker) : Prop where
  live : w.encoder.history.objects.live.Perm w.encoder.owned
  faults : w.encoder.history.objects.faults = []
  encode : w.encoder.Dispatches
  requestKeyframe : ∀ r, (w.freshEncoder r).Dispatches
  single : (w.encoder.history.objects.live.filter EncoderObject.isContext).length ≤ 1
  handedOver : w.releasedEncoder.history.objects.live = []
  idle : w.encoderInitialized = false → w.encoder.history.objects.live = []
  exited : w.exited = true → w.encoder.history.objects.live = []

theorem Change.exited (h : Change w w') : w'.exited = w.exited := by
  cases h with
  | @resized width height scale r =>
    cases hs : w.sameSize width height with
    | true => rw [onPeerResize_same hs]
    | false =>
      rw [onPeerResize_eq hs]
      dsimp only
      split
      · exact (resizeTo_kept ..).2.2
      · exact (resizeTo_kept ..).2.2
  | attached r => exact (attachClient_kept w r).2.2
  | disconnected => rfl

theorem Move.exited (h : Move w e w') : w'.exited = w.exited := by
  cases h with
  | aside hs => exact hs.exited
  | client => rfl
  | changed hs => exact hs.exited
  | started =>
    rw [startCapture_eq, beginCaptureIf]
    split
    · rfl
    · rfl
  | framed hs hf =>
    cases hf with
    | ignored => exact hs.exited
    | throttled _ _ hw => rw [hw]; exact hs.exited
    | unsent _ _ _ hw => rw [hw]; exact hs.exited
    | sent _ _ _ _ _ _ _ hw => rw [hw]; exact hs.exited

theorem EncoderOwned.handled (h : EncoderOwned w) (hx : w.exited = false)
    (hs : Handled w e w') : EncoderOwned w' := by
  cases hs with
  | moved hs => exact h.after hx hs.encoder
  | followed hs hs' => exact (h.after hx hs.encoder).after (hs.exited.trans hx) hs'.encoder
  | exited => exact h.after hx (.left rfl)

theorem encoderOwned_step (w : Worker) (e : Event) (h : EncoderOwned w)
    (he : worker.enabled w e) : EncoderOwned (worker.step w e) :=
  h.handled he.1 (handled_step w e)

theorem EncoderOwned.safe (h : EncoderOwned w) : w.EncoderSafe where
  live := h.inv.owns.live
  faults := h.inv.owns.faults
  encode := h.inv.dispatches
  requestKeyframe r := (freshEncoder_inv h.released.2 r).dispatches
  single := h.inv.single
  handedOver := h.released.2.nothing
  idle hi := (h.idle hi).nothing
  exited hx := (h.exited hx).nothing

/-- Throughout every run of a session, its encoder is safe; at the end everything that was
obtained for it has been released. -/
theorem encoder_lifecycle (standalone clipboard audio : Bool) (width height : UInt32)
    (hl : worker.Legal (.start standalone clipboard audio width height) es) :
    worker.Always Worker.EncoderSafe (.start standalone clipboard audio width height) es := by
  have hinv := System.always_of_legal encoderOwned_step .start hl
  exact hinv.mono fun _ => EncoderOwned.safe

/-- A client is served a frame and leaves, and the session ends. -/
theorem encoder_lifecycle_served : worker.Always Worker.EncoderSafe
    (.start true false false 800 600)
    (plainClient (.basic 800 600 true false) ++
      [.startCapture ⟨.working, true⟩] ++ frameEvents 0 800 600 3200 1000 ++
        [.checkFailed, .cleanup]) :=
  encoder_lifecycle true false false 800 600 (by decide +kernel)

end Wlrdp
