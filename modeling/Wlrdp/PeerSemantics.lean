import Wlrdp.EncoderSemantics

namespace Wlrdp
set_option autoImplicit true

inductive SendMode
  | surfaceBits | gfxAvc420 | gfxAvc444 | gfxAvc444v2 | gfxProgressive
deriving DecidableEq

inductive ChannelKind
  | vcm | gfx | disp | cliprdr | rdpsnd
deriving DecidableEq

/-- A virtual channel manager or channel context, and the client it was made for. -/
structure Channel where
  kind : ChannelKind
  handle : Handle
  owner : Nat
deriving DecidableEq

/-- The channel objects allocated and not freed, and those opened and not closed. -/
structure Channels where
  objects : Ledger Channel
  links : Ledger Channel
deriving DecidableEq

namespace Channels

def empty : Channels := ⟨.empty, .empty⟩

/-- A constructor returned the object. -/
def obtain (c : Channels) (o : Channel) : Channels := { c with objects := c.objects.acquire o }

def free (c : Channels) (o : Channel) : Channels := { c with objects := c.objects.release o }

def opened (c : Channels) (o : Channel) : Channels := { c with links := c.links.acquire o }

def close (c : Channels) (o : Channel) : Channels := { c with links := c.links.release o }

end Channels

/-- The settings of a connection that the session reads. FreeRDP fills them in. -/
structure Settings where
  nscodec : Bool
  osMajorType : UInt32
  desktopWidth : UInt32
  desktopHeight : UInt32
  desktopScaleFactor : UInt32
  colorDepth : UInt32
  supportGraphicsPipeline : Bool
deriving DecidableEq

/-- `struct wlrdp_peer_context`. `clipboard` says whether the pointer to the session's
clipboard is set; `bringUpFailed` records whether the last step of the graphics bring-up
failed and has no C field. -/
structure PeerContext where
  width : UInt32
  height : UInt32
  activated : Bool
  gfxContext : Option Handle
  gfxVcm : Option Handle
  gfxSurfaceId : UInt16
  gfxOpened : Bool
  gfxReady : Bool
  gfxFrameId : UInt32
  dispContext : Option Handle
  dispOpened : Bool
  cliprdrContext : Option Handle
  cliprdrOpened : Bool
  clipboard : Bool
  rdpsndContext : Option Handle
  rdpsndOpened : Bool
  rdpsndReady : Bool
  sendMode : SendMode
  pixelFormat : PixelFormat
  vcmEventFd : Option Nat
  bringUpFailed : Bool
deriving DecidableEq

/-- The context that `freerdp_peer_context_new` and `rdp_peer_init` prepare, with the fields
that the session fills in before `Initialize`. -/
def PeerContext.new (width height : UInt32) (clipboard : Bool) : PeerContext where
  width := width
  height := height
  activated := false
  gfxContext := none
  gfxVcm := none
  gfxSurfaceId := 0
  gfxOpened := false
  gfxReady := false
  gfxFrameId := 0
  dispContext := none
  dispOpened := false
  cliprdrContext := none
  cliprdrOpened := false
  clipboard := clipboard
  rdpsndContext := none
  rdpsndOpened := false
  rdpsndReady := false
  sendMode := .surfaceBits
  pixelFormat := .unset
  vcmEventFd := none
  bringUpFailed := false

/-- `RDPGFX_CAPSET`. -/
structure CapSet where
  version : UInt32
  flags : UInt32
deriving DecidableEq

def capVersion81 : UInt32 := 0x00080105
def capVersion10 : UInt32 := 0x000A0002
def capVersion107 : UInt32 := 0x000A0701
def capsFlagAvc420Enabled : UInt32 := 0x10
def capsFlagAvcDisabled : UInt32 := 0x20

def osMajorTypeMacintosh : UInt32 := 3
def osMajorTypeIos : UInt32 := 5
def osMajorTypeOsx : UInt32 := 6

/-- The codec-specific part of a surface command: for AVC420 the metablock and length of the
stream, for AVC444 the size of its first part, the LC byte and both streams. -/
inductive CommandExtra
  | none
  | avc420 (metablock : Metablock) (length : UInt32)
  | avc444 (cbAvc420EncodedBitstream1 : UInt32) (lc : UInt8) (metablock : Metablock)
      (length : UInt32) (auxMetablock : Metablock) (auxLength : UInt32)
deriving DecidableEq

/-- A `RDPGFX_SURFACE_COMMAND` for the rectangle from the origin to `(right, bottom)`. -/
structure SurfaceCommand where
  surfaceId : UInt16
  codecId : Codec
  format : PixelFormat
  right : UInt32
  bottom : UInt32
  length : UInt32
  data : Option Bitstream
  extra : CommandExtra
deriving DecidableEq

/-- A `SURFACE_BITS_COMMAND` at the origin. The size in its `bmp` has 16 bits. -/
structure SurfaceBitsCommand where
  destRight : UInt32
  destBottom : UInt32
  width : UInt16
  height : UInt16
  bpp : UInt32
  codecId : Codec
  bitmapDataLength : UInt32
  bitmapData : Option Bitstream
deriving DecidableEq

inductive GfxPdu
  | capsConfirm (capsSet : Option CapSet)
  | resetGraphics (width height right bottom : UInt32)
  | createSurface (surfaceId width height : UInt16)
  | mapSurfaceToOutput (surfaceId : UInt16)
  | deleteSurface (surfaceId : UInt16)
  | startFrame (frameId : UInt32)
  | surfaceCommand (cmd : SurfaceCommand)
  | endFrame (frameId : UInt32)
deriving DecidableEq

inductive SessionStatus
  | ready | active | disconnected | terminated
deriving DecidableEq

/-- What the session does to the outside, in order. `stored` notes that a channel context was
stored and what its field held before. -/
inductive Output
  | gfx (context : Option Handle) (pdu : GfxPdu) (ok : Bool)
  | surfaceBits (cmd : SurfaceBitsCommand) (ok : Bool)
  | stored (kind : ChannelKind) (replaced : Option Handle)
  | serverFormatList (context : Handle)
  | selectFormat (context : Option Handle) (format : Nat)
  | sendSamples (context : Handle) (frames : UInt32) (ok : Bool)
  | wlrRandr (width height scale : UInt32) (ok : Bool)
  | status (s : SessionStatus)
deriving DecidableEq

/-- A peer as its callbacks see it: the connection, the `cliprdr_context` of the session's
clipboard, the channel objects that exist and the output so far. -/
structure Peer where
  id : Nat
  settings : Settings
  ctx : PeerContext
  cliprdr : Option Handle
  chans : Channels
  out : List Output
deriving DecidableEq

namespace Peer

def emit (p : Peer) (o : Output) : Peer := { p with out := p.out ++ [o] }

def gfxPdu (p : Peer) (pdu : GfxPdu) (ok : Bool) : Peer := p.emit (.gfx p.ctx.gfxContext pdu ok)

def channel (p : Peer) (kind : ChannelKind) (h : Handle) : Channel := ⟨kind, h, p.id⟩

end Peer

/-! ### Graphics channel -/

def isMacosClient (osMajor : UInt32) : Bool :=
  osMajor = osMajorTypeMacintosh || osMajor = osMajorTypeOsx || osMajor = osMajorTypeIos

/-- The rank of one capability set in the loop of `gfx_caps_advertise`. -/
def capRank (mac : Bool) (cap : CapSet) : Int :=
  if capVersion10 ≤ cap.version then
    if cap.flags &&& capsFlagAvcDisabled = 0 then
      if mac then 2 else if capVersion107 ≤ cap.version then 4 else 3
    else 0
  else if capVersion81 ≤ cap.version ∧ cap.flags &&& capsFlagAvc420Enabled ≠ 0 then 2
  else if capVersion81 ≤ cap.version then 1
  else 0

/-- The loop of `gfx_caps_advertise`, at index `i` with the best rank and choice so far. -/
def scanCaps (mac : Bool) : List CapSet → Nat → Int → Nat → Int × Nat
  | [], _, best, chosen => (best, chosen)
  | cap :: caps, i, best, chosen =>
    let rank := capRank mac cap
    if best < rank then scanCaps mac caps (i + 1) rank i
    else scanCaps mac caps (i + 1) best chosen

def modeOfRank (rank : Int) : SendMode :=
  if rank = 4 then .gfxAvc444v2
  else if rank = 3 then .gfxAvc444
  else if rank = 2 then .gfxAvc420
  else if rank = 1 then .gfxProgressive
  else .surfaceBits

/-- The send mode that a list of capability sets selects. -/
def advertisedMode (settings : Settings) (caps : List CapSet) : SendMode :=
  modeOfRank (scanCaps (isMacosClient settings.osMajorType) caps 0 (-1) 0).1

/-- Which of the PDUs of `gfx_create_surface` are sent successfully. -/
structure SurfaceSetup where
  resetGraphics : Bool
  createSurface : Bool
  mapSurfaceToOutput : Bool
deriving DecidableEq

def SurfaceSetup.ok (r : SurfaceSetup) : Bool := r.createSurface && r.mapSurfaceToOutput

def gfxCreateSurface (p : Peer) (width height : UInt32) (r : SurfaceSetup) : Bool × Peer :=
  let p := p.gfxPdu (.resetGraphics width height (width - 1) (height - 1)) r.resetGraphics
  let p := p.gfxPdu (.createSurface 1 width.toUInt16 height.toUInt16) r.createSurface
  if !r.createSurface then (false, p) else
  let p := p.gfxPdu (.mapSurfaceToOutput 1) r.mapSurfaceToOutput
  if !r.mapSurfaceToOutput then (false, p) else
  (true, { p with ctx.gfxSurfaceId := 1 })

def closeGfx (p : Peer) (deleteSurface : Bool) : Peer :=
  match p.ctx.gfxContext with
  | none => p
  | some gfx =>
    let o := p.channel .gfx gfx
    let id := p.ctx.gfxSurfaceId
    { p with
      ctx.gfxContext := none
      chans := (if p.ctx.gfxOpened then p.chans.close o else p.chans).free o
      out := p.out ++
        if id ≠ 0 then [Output.gfx (some gfx) (.deleteSurface id) deleteSurface] else [] }

def closeRdpsnd (p : Peer) : Peer :=
  match p.ctx.rdpsndContext with
  | none => p
  | some rdpsnd =>
    let o := p.channel .rdpsnd rdpsnd
    { p with
      ctx.rdpsndContext := none, ctx.rdpsndOpened := false, ctx.rdpsndReady := false
      chans := (if p.ctx.rdpsndOpened then p.chans.close o else p.chans).free o }

def clipboardCloseCliprdr (p : Peer) : Peer :=
  match p.cliprdr with
  | none => p
  | some cliprdr =>
    let o := p.channel .cliprdr cliprdr
    { p with cliprdr := none, chans := (p.chans.close o).free o }

def closeCliprdr (p : Peer) : Peer :=
  if p.ctx.cliprdrOpened && p.ctx.clipboard then
    { clipboardCloseCliprdr p with ctx.cliprdrContext := none, ctx.cliprdrOpened := false }
  else p

def closeDisp (p : Peer) : Peer :=
  match p.ctx.dispContext with
  | none => p
  | some disp =>
    let o := p.channel .disp disp
    { p with
      ctx.dispContext := none
      chans := (if p.ctx.dispOpened then p.chans.close o else p.chans).free o }

def closeVcm (p : Peer) : Peer :=
  match p.ctx.gfxVcm with
  | none => p
  | some vcm =>
    let o := p.channel .vcm vcm
    { p with ctx.gfxVcm := none, chans := (p.chans.close o).free o }

/-- `gfx_cleanup`: `deleteSurface` is the ignored result of its first PDU. -/
def gfxCleanup (p : Peer) (deleteSurface : Bool) : Peer :=
  let p := closeVcm (closeDisp (closeCliprdr (closeRdpsnd (closeGfx p deleteSurface))))
  { p with
    ctx.gfxOpened := false, ctx.gfxReady := false, ctx.gfxSurfaceId := 0
    ctx.dispOpened := false }

/-- Results of the sends that one `gfx_caps_advertise` may make. -/
structure CapsResult where
  capsConfirm : Bool
  surface : SurfaceSetup
  deleteSurface : Bool
deriving DecidableEq

def gfxCapsAdvertise (p : Peer) (caps : List CapSet) (r : CapsResult) : Peer :=
  let (rank, chosen) := scanCaps (isMacosClient p.settings.osMajorType) caps 0 (-1) 0
  let p := { p with ctx.sendMode := modeOfRank rank }
  let p := p.gfxPdu (.capsConfirm caps[chosen]?) r.capsConfirm
  if !r.capsConfirm then
    { p with ctx.bringUpFailed := p.ctx.bringUpFailed || !p.ctx.gfxReady }
  else if p.ctx.gfxSurfaceId = 0 then
    match gfxCreateSurface p p.ctx.width p.ctx.height r.surface with
    | (true, p) => { p with ctx.gfxReady := true, ctx.bringUpFailed := false }
    | (false, p) =>
      gfxCleanup { p with ctx.sendMode := .surfaceBits, ctx.bringUpFailed := true }
        r.deleteSurface
  else p

/-- Results of the calls that `vcm_init` may make. -/
structure VcmSetup where
  openServer : Option Handle
  managerOpen : Bool
  eventFd : Option Nat
deriving DecidableEq

/-- `vcm_init`. A manager whose transport fails to open is closed with `WTSCloseServer`. -/
def vcmInit (p : Peer) (r : VcmSetup) : Bool × Peer :=
  match r.openServer with
  | none => (false, { p with ctx.bringUpFailed := true })
  | some vcm =>
    let o := p.channel .vcm vcm
    let p := { p with
      ctx.gfxVcm := some vcm, ctx.vcmEventFd := r.eventFd, chans := p.chans.obtain o }
    if !r.managerOpen then
      (false, { p with
        ctx.gfxVcm := none, ctx.bringUpFailed := true, chans := p.chans.free o })
    else (true, { p with ctx.bringUpFailed := false, chans := p.chans.opened o })

/-- Results of making a channel context and opening it. -/
structure ChannelSetup where
  contextNew : Option Handle
  opens : Bool
deriving DecidableEq

def ChannelSetup.ok (r : ChannelSetup) : Bool := r.contextNew.isSome && r.opens

def gfxOpen (p : Peer) (r : ChannelSetup) : Bool × Peer :=
  match r.contextNew with
  | none => (false, { p with ctx.bringUpFailed := true })
  | some gfx =>
    let o := p.channel .gfx gfx
    let p := { p with
      ctx.gfxContext := some gfx, ctx.gfxSurfaceId := 0, ctx.gfxFrameId := 0
      ctx.gfxOpened := false
      chans := p.chans.obtain o, out := p.out ++ [Output.stored .gfx p.ctx.gfxContext] }
    if !r.opens then
      (false, { p with
        ctx.gfxContext := none, ctx.bringUpFailed := true, chans := p.chans.free o })
    else
      (true, { p with
        ctx.gfxOpened := true, ctx.bringUpFailed := false, chans := p.chans.opened o })

def dispOpen (p : Peer) (r : ChannelSetup) : Bool × Peer :=
  match r.contextNew with
  | none => (false, p)
  | some disp =>
    let o := p.channel .disp disp
    let p := { p with chans := p.chans.obtain o }
    if !r.opens then (false, { p with chans := p.chans.free o }) else
    (true, { p with
      ctx.dispContext := some disp, ctx.dispOpened := true
      chans := p.chans.opened o, out := p.out ++ [Output.stored .disp p.ctx.dispContext] })

def clipboardOpenCliprdr (p : Peer) (r : ChannelSetup) : Bool × Peer :=
  match r.contextNew with
  | none => (false, p)
  | some cliprdr =>
    let o := p.channel .cliprdr cliprdr
    let p := { p with chans := p.chans.obtain o }
    if !r.opens then (false, { p with chans := p.chans.free o }) else
    (true, { p with
      cliprdr := some cliprdr
      chans := p.chans.opened o, out := p.out ++ [Output.stored .cliprdr p.cliprdr] })

/-- Results of making, initialising and starting an RDPSND context. -/
structure RdpsndSetup where
  contextNew : Option Handle
  initialized : Bool
  started : Bool
deriving DecidableEq

def RdpsndSetup.ok (r : RdpsndSetup) : Bool := r.contextNew.isSome && r.initialized && r.started

def rdpsndOpen (p : Peer) (r : RdpsndSetup) : Bool × Peer :=
  match r.contextNew with
  | none => (false, p)
  | some rdpsnd =>
    let o := p.channel .rdpsnd rdpsnd
    let p := { p with chans := p.chans.obtain o }
    if !r.initialized then (false, { p with chans := p.chans.free o }) else
    if !r.started then (false, { p with chans := p.chans.free o }) else
    (true, { p with
      ctx.rdpsndContext := some rdpsnd, ctx.rdpsndOpened := true
      chans := p.chans.opened o, out := p.out ++ [Output.stored .rdpsnd p.ctx.rdpsndContext] })

/-- `WTSVirtualChannelManagerGetDrdynvcState`. -/
inductive DrdynvcState
  | none | initialized | ready | failed
deriving DecidableEq

/-- Results of the calls that one `rdp_peer_check_vcm` may make. -/
structure VcmCheck where
  checkFileDescriptor : Bool
  drdynvcState : DrdynvcState
  gfx : ChannelSetup
  disp : ChannelSetup
  cliprdr : ChannelSetup
  rdpsnd : RdpsndSetup
  deleteSurface : Bool
deriving DecidableEq

/-- The clipboard part of the last block of `rdp_peer_check_vcm`. -/
def openCliprdr (p : Peer) (r : ChannelSetup) : Peer :=
  if !p.ctx.clipboard then p else
  match clipboardOpenCliprdr p r with
  | (true, p) => { p with ctx.cliprdrContext := p.cliprdr, ctx.cliprdrOpened := true }
  | (false, p) => p

/-- The last block of `rdp_peer_check_vcm`: all four channels are opened, whatever becomes of
the ones before. -/
def openChannels (p : Peer) (r : VcmCheck) : Peer :=
  (rdpsndOpen (openCliprdr (dispOpen (gfxOpen p r.gfx).2 r.disp).2 r.cliprdr) r.rdpsnd).2

def rdpPeerCheckVcm (p : Peer) (r : VcmCheck) : Bool × Peer :=
  if p.ctx.gfxVcm = none then (true, p)
  else if p.ctx.gfxOpened || p.ctx.gfxReady then (r.checkFileDescriptor, p)
  else if !r.checkFileDescriptor then
    (true, gfxCleanup { p with ctx.bringUpFailed := true } r.deleteSurface)
  else if r.drdynvcState = .failed then
    (true, gfxCleanup { p with ctx.bringUpFailed := true } r.deleteSurface)
  else if r.drdynvcState ≠ .ready then (true, p)
  else (true, openChannels p r)

/-! ### Sending -/

/-- Which PDUs of one GFX frame are sent successfully. -/
structure FrameSend where
  startFrame : Bool
  surfaceCommand : Bool
  endFrame : Bool
  surfaceBits : Bool
deriving DecidableEq

/-- The PDU sequence of the three `send_gfx_*` functions around one surface command. -/
def sendGfxFrame (p : Peer) (codecId : Codec) (data : Option Bitstream) (extra : CommandExtra)
    (len width height : UInt32) (r : FrameSend) : Bool × Peer :=
  let p := { p with ctx.gfxFrameId := p.ctx.gfxFrameId + 1 }
  let p := p.gfxPdu (.startFrame p.ctx.gfxFrameId) r.startFrame
  if !r.startFrame then (false, p) else
  let p := p.gfxPdu (.surfaceCommand
    { surfaceId := p.ctx.gfxSurfaceId, codecId := codecId, format := p.ctx.pixelFormat
      right := width, bottom := height, length := len, data := data, extra := extra })
    r.surfaceCommand
  if !r.surfaceCommand then (false, p) else
  (r.endFrame, p.gfxPdu (.endFrame p.ctx.gfxFrameId) r.endFrame)

/-- A frame as `rdp_peer_send_frame` receives it from the encoder. -/
structure EncodedFrame where
  data : Option Bitstream
  len : UInt32
  auxData : Option Bitstream
  auxLen : UInt32
  metablock : Metablock
  auxMetablock : Metablock
  avc444Lc : UInt8
deriving DecidableEq

def sendGfxAvc420 (p : Peer) (f : EncodedFrame) (width height : UInt32) (r : FrameSend) :
    Bool × Peer :=
  if f.metablock.numRegionRects = 0 ∨ f.len = 0 then (true, p) else
  sendGfxFrame p .avc420 f.data (.avc420 f.metablock f.len) f.len width height r

def sendGfxAvc444 (p : Peer) (f : EncodedFrame) (width height : UInt32) (isAvc444v2 : Bool)
    (r : FrameSend) : Bool × Peer :=
  if f.len = 0 ∧ f.auxLen = 0 then (true, p) else
  let metablock1Size := 4 + f.metablock.numRegionRects * 10
  sendGfxFrame p (if isAvc444v2 then .avc444v2 else .avc444) f.data
    (.avc444 (metablock1Size + f.len) f.avc444Lc f.metablock f.len f.auxMetablock f.auxLen)
    (f.len + f.auxLen) width height r

def sendGfxProgressive (p : Peer) (f : EncodedFrame) (width height : UInt32) (r : FrameSend) :
    Bool × Peer :=
  if f.data = none ∨ f.len = 0 then (true, p) else
  sendGfxFrame p .caprogressive f.data .none f.len width height r

def sendSurfaceBits (p : Peer) (f : EncodedFrame) (width height : UInt32) (r : FrameSend) :
    Bool × Peer :=
  (r.surfaceBits, p.emit (.surfaceBits
    { destRight := width, destBottom := height
      width := width.toUInt16, height := height.toUInt16
      bpp := p.ctx.pixelFormat.bitsPerPixel
      codecId := if p.settings.nscodec then .nscodec else .none
      bitmapDataLength := f.len, bitmapData := f.data } r.surfaceBits))

def rdpPeerSendFrame (p : Peer) (f : EncodedFrame) (width height : UInt32) (r : FrameSend) :
    Bool × Peer :=
  if p.ctx.gfxReady then
    match p.ctx.sendMode with
    | .gfxAvc444v2 => sendGfxAvc444 p f width height true r
    | .gfxAvc444 => sendGfxAvc444 p f width height false r
    | .gfxAvc420 => sendGfxAvc420 p f width height r
    | .gfxProgressive => sendGfxProgressive p f width height r
    | .surfaceBits => sendSurfaceBits p f width height r
  else sendSurfaceBits p f width height r

/-! ### The rest of the interface -/

def rdpPeerGetSendMode (ctx : PeerContext) : SendMode :=
  if !ctx.gfxReady then .surfaceBits else ctx.sendMode

def rdpPeerGetVcmFd (ctx : PeerContext) : Option Nat :=
  if ctx.gfxVcm = none then none else ctx.vcmEventFd

def rdpPeerUpdateSize (p : Peer) (width height : UInt32) (r : SurfaceSetup) : Peer :=
  let p := { p with ctx.width := width, ctx.height := height }
  if p.ctx.gfxReady && p.ctx.gfxContext.isSome then (gfxCreateSurface p width height r).2 else p

/-- The pixel format that `on_post_connect` derives from the colour depth. -/
def formatOfDepth (depth : UInt32) : PixelFormat :=
  if depth = 32 then .bgrx32
  else if depth = 24 then .bgr24
  else if depth = 16 then .rgb16
  else .bgrx32

/-- An `AUDIO_FORMAT` of the client. -/
structure AudioFormat where
  wFormatTag : UInt16
  nChannels : UInt16
  nSamplesPerSec : UInt32
  wBitsPerSample : UInt16
deriving DecidableEq

def waveFormatPcm : UInt16 := 1

def AudioFormat.compatible (f : AudioFormat) : Bool :=
  f.wFormatTag = waveFormatPcm && f.nChannels = 2 && f.nSamplesPerSec = 44100 &&
    f.wBitsPerSample = 16

def onRdpsndActivated (p : Peer) (clientFormats : List AudioFormat) : Peer :=
  match clientFormats.findIdx? AudioFormat.compatible with
  | none => p
  | some i =>
    { p.emit (.selectFormat p.ctx.rdpsndContext i) with ctx.rdpsndReady := true }

def rdpPeerSendAudio (p : Peer) (nFrames : UInt32) (ok : Bool) : Bool × Peer :=
  match p.ctx.rdpsndReady, p.ctx.rdpsndContext with
  | true, some rdpsnd => (ok, p.emit (.sendSamples rdpsnd nFrames ok))
  | _, _ => (false, p)

def onPostConnect (p : Peer) (r : VcmSetup) : Peer :=
  let p := { p with ctx.pixelFormat := formatOfDepth p.settings.colorDepth }
  if p.settings.supportGraphicsPipeline then (vcmInit p r).2 else p

end Wlrdp
