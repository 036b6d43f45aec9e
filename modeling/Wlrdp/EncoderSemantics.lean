import Wlrdp.Ledgers

namespace Wlrdp
set_option autoImplicit true

abbrev Handle := Nat

inductive EncoderMode
  | raw | nsac | h264Ffmpeg | h264Freerdp | progressive
deriving DecidableEq

/-- The codecs that can be announced to a client. -/
inductive Codec
  | avc420 | avc444 | avc444v2 | caprogressive | nscodec | none
deriving DecidableEq

inductive PixelFormat
  | unset | bgrx32 | bgr24 | rgb16
deriving DecidableEq

/-- `FreeRDPGetBitsPerPixel`. -/
def PixelFormat.bitsPerPixel : PixelFormat → UInt32
  | .unset => 0
  | .bgrx32 => 32
  | .bgr24 => 24
  | .rgb16 => 16

/-- What the bytes of an output buffer are: the codec that wrote them and the size of the
picture they encode. -/
structure Bitstream where
  codec : Codec
  width : UInt32
  height : UInt32
deriving DecidableEq

/-- `RDPGFX_H264_METABLOCK`: the number of region rectangles and the arrays it owns. -/
structure Metablock where
  numRegionRects : UInt32
  regions : Option Handle
deriving DecidableEq

def Metablock.zero : Metablock := ⟨0, none⟩

inductive EncoderObject
  | h264 (h : Handle) | progressive (h : Handle) | nsc (h : Handle) | nscStream (h : Handle)
  | convBuf (h : Handle) | metablock (h : Handle)
deriving DecidableEq

/-- One pass of a codec over the pixels: `pixels` is the length of the mapping it was given,
or `none` for a null pointer. -/
structure PixelRead where
  pixels : Option UInt32
  width : UInt32
  height : UInt32
  stride : UInt32
deriving DecidableEq

/-- What an encoder has done so far. No C field corresponds to it. -/
structure EncoderHistory where
  objects : Ledger EncoderObject
  reads : List PixelRead
deriving DecidableEq

/-- `struct wlrdp_encoder`. -/
structure Encoder where
  mode : EncoderMode
  width : UInt32
  height : UInt32
  format : PixelFormat
  avc444Version : UInt8
  outBuf : Option Bitstream
  outLen : UInt32
  auxBuf : Option Bitstream
  auxLen : UInt32
  isKeyframe : Bool
  avc444Lc : UInt8
  h264Meta : Metablock
  h264AuxMeta : Metablock
  h264Ctx : Option Handle
  progCtx : Option Handle
  nscCtx : Option Handle
  nscStream : Option Handle
  convBuf : Option Handle
  convSize : UInt32
  history : EncoderHistory
deriving DecidableEq

/-- The result of `memset(enc, 0, sizeof(*enc))`. -/
def Encoder.zero (history : EncoderHistory) : Encoder where
  mode := .raw
  width := 0
  height := 0
  format := .unset
  avc444Version := 0
  outBuf := none
  outLen := 0
  auxBuf := none
  auxLen := 0
  isKeyframe := false
  avc444Lc := 0
  h264Meta := .zero
  h264AuxMeta := .zero
  h264Ctx := none
  progCtx := none
  nscCtx := none
  nscStream := none
  convBuf := none
  convSize := 0
  history := history

def Encoder.acquire (enc : Encoder) (o : EncoderObject) : Encoder :=
  { enc with history.objects := enc.history.objects.acquire o }

def Encoder.release (enc : Encoder) (o : EncoderObject) : Encoder :=
  { enc with history.objects := enc.history.objects.release o }

def Encoder.use (enc : Encoder) (o : EncoderObject) : Encoder :=
  { enc with history.objects := enc.history.objects.use o }

/-- Results of the codec constructors that one `encoder_init` may call. -/
structure CodecSetup where
  h264ContextNew : Option Handle
  h264ContextReset : Bool
  progressiveContextNew : Option Handle
  progressiveCreateSurface : Bool
  nscContextNew : Option Handle
  nscColorFormat : Bool
  streamNew : Option Handle
deriving DecidableEq

/-- Results of the library calls that one `encoder_encode` may make. -/
structure CodecRun where
  realloc : Option Handle
  imageCopy : Bool
  regionUnion : Bool
  compress : Bool
  outLen : UInt32
  auxLen : UInt32
  avc444Lc : UInt8
  metablock : Metablock
  auxMetablock : Metablock
deriving DecidableEq

def freeH264Metablock (enc : Encoder) (m : Metablock) : Encoder :=
  match m.regions with
  | some h => enc.release (.metablock h)
  | none => enc

def encoderClearH264Metadata (enc : Encoder) : Encoder :=
  let enc := freeH264Metablock enc enc.h264Meta
  let enc := freeH264Metablock enc enc.h264AuxMeta
  { enc with h264Meta := .zero, h264AuxMeta := .zero }

def rawInit (enc : Encoder) : Bool × Encoder := (true, { enc with mode := .raw })

def nscInit (enc : Encoder) (r : CodecSetup) : Bool × Encoder :=
  match r.nscContextNew with
  | none => (false, enc)
  | some nsc =>
    let enc := enc.acquire (.nsc nsc)
    if !r.nscColorFormat then (false, enc.release (.nsc nsc)) else
    match r.streamNew with
    | none => (false, enc.release (.nsc nsc))
    | some stream =>
      let enc := enc.acquire (.nscStream stream)
      (true, { enc with nscCtx := some nsc, nscStream := some stream, mode := .nsac })

def h264Init (enc : Encoder) (r : CodecSetup) : Bool × Encoder :=
  match r.h264ContextNew with
  | none => (false, { enc with h264Ctx := none })
  | some h =>
    let enc := enc.acquire (.h264 h)
    if !r.h264ContextReset then (false, { enc.release (.h264 h) with h264Ctx := none }) else
    (true, { enc with h264Ctx := some h, mode := .h264Freerdp })

def progressiveInit (enc : Encoder) (r : CodecSetup) : Bool × Encoder :=
  match r.progressiveContextNew with
  | none => (false, { enc with progCtx := none })
  | some h =>
    let enc := enc.acquire (.progressive h)
    if !r.progressiveCreateSurface then
      (false, { enc.release (.progressive h) with progCtx := none })
    else (true, { enc with progCtx := some h, mode := .progressive })

/-- The first lines of `encoder_init`. -/
def Encoder.cleared (enc : Encoder) (width height : UInt32) (avc444Version : UInt8)
    (format : PixelFormat) : Encoder :=
  { Encoder.zero enc.history with
    width := width, height := height, format := format, avc444Version := avc444Version }

/-- `encoder_init`: when the constructor of the requested codec fails, RAW takes its place
and the call still succeeds. -/
def encoderInit (enc : Encoder) (mode : EncoderMode) (width height : UInt32)
    (avc444Version : UInt8) (format : PixelFormat) (r : CodecSetup) : Bool × Encoder :=
  let enc := enc.cleared width height avc444Version format
  let (ok, enc) := match mode with
    | .h264Freerdp => h264Init enc r
    | .progressive => progressiveInit enc r
    | .nsac => nscInit enc r
    | _ => (false, enc)
  if ok then (true, enc) else rawInit enc

def encoderRequestKeyframe (enc : Encoder) : Encoder :=
  match enc.mode, enc.h264Ctx, enc.progCtx with
  | .h264Freerdp, some h, _ => enc.use (.h264 h)
  | .progressive, _, some h => enc.use (.progressive h)
  | _, _, _ => enc

def Encoder.dstStride (enc : Encoder) : UInt32 :=
  (enc.width * enc.format.bitsPerPixel + 7) / 8

def Encoder.read (enc : Encoder) (pixels : Option UInt32) (stride : UInt32) : Encoder :=
  { enc with history.reads := ⟨pixels, enc.width, enc.height, stride⟩ :: enc.history.reads }

/-- The part that `raw_encode` and `nsc_encode` share: grow the conversion buffer if it is too
small and copy the picture into it. -/
def convertPixels (enc : Encoder) (pixels : Option UInt32) (stride : UInt32) (r : CodecRun) :
    Bool × Encoder :=
  let needed := enc.dstStride * enc.height
  let (ok, enc) :=
    if enc.convSize < needed then
      match r.realloc with
      | none => (false, enc)
      | some buf =>
        let enc := match enc.convBuf with
          | some old => enc.release (.convBuf old)
          | none => enc
        (true, { enc.acquire (.convBuf buf) with convBuf := some buf, convSize := needed })
    else (true, enc)
  if ok then (r.imageCopy, enc.read pixels stride) else (false, enc)

def rawEncode (enc : Encoder) (pixels : Option UInt32) (stride : UInt32) (r : CodecRun) :
    Bool × Encoder :=
  let needed := enc.dstStride * enc.height
  let (ok, enc) := convertPixels enc pixels stride r
  if !ok then (false, enc) else
  (true, { enc with
    outBuf := enc.convBuf.map fun _ => ⟨.none, enc.width, enc.height⟩, outLen := needed
    auxBuf := none, auxLen := 0, isKeyframe := true })

def nscEncode (enc : Encoder) (pixels : Option UInt32) (stride : UInt32) (r : CodecRun) :
    Bool × Encoder :=
  let (ok, enc) := convertPixels enc pixels stride r
  if !ok then (false, enc) else
  let enc := match enc.nscStream with
    | some h => enc.use (.nscStream h)
    | none => enc
  let enc := match enc.nscCtx with
    | some h => enc.use (.nsc h)
    | none => enc
  if !r.compress then (false, enc) else
  (true, { enc with
    outBuf := some ⟨.nscodec, enc.width, enc.height⟩, outLen := r.outLen
    auxBuf := none, auxLen := 0, isKeyframe := true })

/-- The codec that `avc444_compress` runs for its version argument. -/
def avc444Codec (version : UInt8) : Codec := if version = 2 then .avc444v2 else .avc444

def Encoder.obtainMetablock (enc : Encoder) (m : Metablock) : Encoder :=
  match m.regions with
  | some h => enc.acquire (.metablock h)
  | none => enc

def h264Encode (enc : Encoder) (pixels : Option UInt32) (stride : UInt32) (r : CodecRun) :
    Bool × Encoder :=
  let enc := encoderClearH264Metadata enc
  let enc := { enc with outBuf := none, outLen := 0, auxBuf := none, auxLen := 0, avc444Lc := 0 }
  let enc := match enc.h264Ctx with
    | some h => enc.use (.h264 h)
    | none => enc
  let enc := enc.read pixels stride
  let enc :=
    if enc.avc444Version ≠ 0 then
      let stream := ⟨avc444Codec enc.avc444Version, enc.width, enc.height⟩
      let enc := (enc.obtainMetablock r.metablock).obtainMetablock r.auxMetablock
      { enc with
        outBuf := some stream, outLen := r.outLen, auxBuf := some stream, auxLen := r.auxLen
        avc444Lc := r.avc444Lc, h264Meta := r.metablock, h264AuxMeta := r.auxMetablock }
    else
      let enc := enc.obtainMetablock r.metablock
      { enc with
        outBuf := some ⟨.avc420, enc.width, enc.height⟩, outLen := r.outLen
        h264Meta := r.metablock }
  if !r.compress then (false, encoderClearH264Metadata enc) else
  (true, { enc with isKeyframe := true })

def progressiveEncode (enc : Encoder) (pixels : Option UInt32) (stride : UInt32)
    (r : CodecRun) : Bool × Encoder :=
  if !r.regionUnion then (false, enc) else
  let enc := match enc.progCtx with
    | some h => enc.use (.progressive h)
    | none => enc
  let enc := enc.read pixels stride
  if !r.compress then (false, { enc with outBuf := none, outLen := 0 }) else
  (true, { enc with
    outBuf := some ⟨.caprogressive, enc.width, enc.height⟩, outLen := r.outLen
    auxBuf := none, auxLen := 0, isKeyframe := true })

def encoderEncode (enc : Encoder) (pixels : Option UInt32) (stride : UInt32) (r : CodecRun) :
    Bool × Encoder :=
  match enc.mode with
  | .h264Freerdp => h264Encode enc pixels stride r
  | .progressive => progressiveEncode enc pixels stride r
  | .nsac => nscEncode enc pixels stride r
  | _ => rawEncode enc pixels stride r

def nscCleanup (enc : Encoder) : Encoder :=
  let enc := match enc.nscStream with
    | some h => { enc.release (.nscStream h) with nscStream := none }
    | none => enc
  match enc.nscCtx with
  | some h => { enc.release (.nsc h) with nscCtx := none }
  | none => enc

def rawCleanup (enc : Encoder) : Encoder :=
  let enc := match enc.convBuf with
    | some h => enc.release (.convBuf h)
    | none => enc
  { enc with convBuf := none, convSize := 0 }

def encoderDestroy (enc : Encoder) : Encoder :=
  let enc := encoderClearH264Metadata enc
  let enc := match enc.h264Ctx with
    | some h => { enc.release (.h264 h) with h264Ctx := none }
    | none => enc
  let enc := match enc.progCtx with
    | some h => { enc.release (.progressive h) with progCtx := none }
    | none => enc
  let enc := rawCleanup (nscCleanup enc)
  .zero enc.history

end Wlrdp
