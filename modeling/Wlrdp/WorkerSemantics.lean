import Wlrdp.CaptureSemantics
import Wlrdp.PeerSemantics
import Wlrdp.TransitionSystems

namespace Wlrdp
set_option autoImplicit true

def frameIntervalMinMs : UInt32 := 16
def frameIntervalMaxMs : UInt32 := 100
def frameIntervalDefaultMs : UInt32 := 33

/-- A `freerdp_peer` of the session. `connected` says whether FreeRDP has called
`PostConnect`. -/
structure Client where
  id : Nat
  connected : Bool
  settings : Settings
  ctx : PeerContext
deriving DecidableEq

/-- `struct wlrdp_server`. Descriptors are `none` for -1. The last rows have no C field: the
channel objects in existence, the clients made so far and those whose context was freed, and
the output. -/
structure Worker where
  standalone : Bool
  width : UInt32
  height : UInt32
  capture : Capture
  inputWidth : UInt32
  inputHeight : UInt32
  encoder : Encoder
  cliprdr : Option Handle
  clipboardActive : Bool
  audioActive : Bool
  client : Option Client
  vcmFd : Option Nat
  clientActive : Bool
  encoderInitialized : Bool
  lastFrameMs : UInt64
  frameIntervalMs : UInt32
  running : Bool
  exited : Bool
  channels : Channels
  nextClient : Nat
  freedClients : List Nat
  out : List Output
deriving DecidableEq

/-- The session worker as it enters its event loop. -/
def Worker.start (standalone clipboardActive audioActive : Bool) (width height : UInt32) :
    Worker where
  standalone := standalone
  width := width
  height := height
  capture := .init
  inputWidth := width
  inputHeight := height
  encoder := .zero ⟨.empty, []⟩
  cliprdr := none
  clipboardActive := clipboardActive
  audioActive := audioActive
  client := none
  vcmFd := none
  clientActive := false
  encoderInitialized := false
  lastFrameMs := 0
  frameIntervalMs := frameIntervalDefaultMs
  running := true
  exited := false
  channels := .empty
  nextClient := 0
  freedClients := []
  out := if standalone then [] else [Output.status .ready]

namespace Worker

def emit (w : Worker) (o : Output) : Worker := { w with out := w.out ++ [o] }

/-- The peer that the callbacks of `c` see. -/
def peer (w : Worker) (c : Client) : Peer where
  id := c.id
  settings := c.settings
  ctx := c.ctx
  cliprdr := w.cliprdr
  chans := w.channels
  out := w.out

def setPeer (w : Worker) (c : Client) (p : Peer) : Worker :=
  { w with
    client := some { c with ctx := p.ctx }, cliprdr := p.cliprdr, channels := p.chans
    out := p.out }

/-- Runs a peer function for the attached client, if there is one. -/
def onPeer (w : Worker) (f : Peer → Peer) : Worker :=
  match w.client with
  | none => w
  | some c => w.setPeer c (f (w.peer c))

def requestFrame (w : Worker) (frame : Bool) : Worker :=
  { w with capture := (captureRequestFrame w.capture frame).2 }

end Worker

/-! ### Encoder set-up -/

/-- The mode and the AVC444 version that `init_encoder_for_client` asks for. -/
def Client.encoderRequest (c : Client) : EncoderMode × UInt8 :=
  match rdpPeerGetSendMode c.ctx with
  | .gfxAvc444v2 => (.h264Freerdp, 2)
  | .gfxAvc444 => (.h264Freerdp, 1)
  | .gfxAvc420 => (.h264Freerdp, 0)
  | .gfxProgressive => (.progressive, 0)
  | .surfaceBits => if c.settings.nscodec then (.nsac, 0) else (.raw, 0)

namespace Worker

def encoderRequest (w : Worker) : EncoderMode × UInt8 :=
  match w.client with
  | none => (.raw, 0)
  | some c => c.encoderRequest

def encoderFormat (w : Worker) : PixelFormat :=
  match w.client with
  | none => .bgrx32
  | some c => c.ctx.pixelFormat

end Worker

def initEncoderForClient (w : Worker) (r : CodecSetup) : Worker :=
  let enc := if w.encoderInitialized then encoderDestroy w.encoder else w.encoder
  let (ok, enc) := encoderInit enc w.encoderRequest.1 w.width w.height w.encoderRequest.2
    w.encoderFormat r
  { w with
    encoder := if ok then encoderRequestKeyframe enc else enc, encoderInitialized := ok }

/-! ### Frames -/

/-- What one call of `on_frame_ready` meets: three readings of the clock, the codec, the sends
and the next `capture_output`. -/
structure FrameTurn where
  now : UInt64
  sent : UInt64
  last : UInt64
  encode : CodecRun
  send : FrameSend
  frame : Bool
deriving DecidableEq

/-- `target` of the adaptive frame rate. -/
def frameTarget (encodeTime : UInt64) : UInt32 :=
  let target := (encodeTime * 2).toUInt32
  let target := if target < frameIntervalMinMs then frameIntervalMinMs else target
  if frameIntervalMaxMs < target then frameIntervalMaxMs else target

def Encoder.frame (enc : Encoder) : EncodedFrame where
  data := enc.outBuf
  len := enc.outLen
  auxData := enc.auxBuf
  auxLen := enc.auxLen
  metablock := enc.h264Meta
  auxMetablock := enc.h264AuxMeta
  avc444Lc := enc.avc444Lc

/-- `on_frame_ready` is about to encode: a client is being served and the frame is due. -/
def Worker.frameDue (w : Worker) (r : FrameTurn) : Bool :=
  w.clientActive && w.client.isSome && w.encoderInitialized &&
    !(r.now - w.lastFrameMs < w.frameIntervalMs.toUInt64)

/-- What `on_frame_ready` does outside the session: it reads the clock, and it calls
`rdp_peer_send_frame`. -/
inductive FrameAct
  | nowMs (t : UInt64)
  | sendFrame (frame : EncodedFrame) (width height : UInt32)
deriving DecidableEq

/-- `on_frame_ready`, with what it does outside the session, in order. -/
def onFrameReadyActs (w : Worker) (pixels : Option UInt32) (width height stride : UInt32)
    (r : FrameTurn) : Worker × List FrameAct :=
  if !w.clientActive || w.client.isNone || !w.encoderInitialized then (w, []) else
  if r.now - w.lastFrameMs < w.frameIntervalMs.toUInt64 then
    (w.requestFrame r.frame, [.nowMs r.now])
  else
  let (ok, enc) := encoderEncode w.encoder pixels stride r.encode
  let w := { w with encoder := enc }
  if !ok then (w.requestFrame r.frame, [.nowMs r.now]) else
  if enc.outLen = 0 ∧ enc.auxLen = 0 then (w.requestFrame r.frame, [.nowMs r.now]) else
  let w := w.onPeer fun p => (rdpPeerSendFrame p enc.frame width height r.send).2
  let w := { w with
    frameIntervalMs := (w.frameIntervalMs * 3 + frameTarget (r.sent - r.now)) / 4
    lastFrameMs := r.last }
  (w.requestFrame r.frame,
    [.nowMs r.now, .sendFrame enc.frame width height, .nowMs r.sent, .nowMs r.last])

def onFrameReady (w : Worker) (pixels : Option UInt32) (width height stride : UInt32)
    (r : FrameTurn) : Worker :=
  (onFrameReadyActs w pixels width height stride r).1

/-- `frame_ready` with the callback it runs. -/
def frameReady (w : Worker) (id : Nat) (r : FrameTurn) : Worker :=
  let w := { w with capture := w.capture.destroyFrame id }
  onFrameReady w w.capture.pixels w.capture.width w.capture.height w.capture.stride r

/-! ### Resizing -/

/-- What one resize meets: the exit of `wlr-randr`, the surface PDUs and the codec
constructors. -/
structure ResizeTurn where
  wlrRandr : Bool
  surface : SurfaceSetup
  setup : CodecSetup
deriving DecidableEq

def roundUp16 (x : UInt32) : UInt32 := (x + 15) &&& ~~~15

def onPeerResize (w : Worker) (width height scale : UInt32) (r : ResizeTurn) : Worker :=
  let width := roundUp16 width
  let height := roundUp16 height
  if w.width = width ∧ w.height = height then w else
  let w := w.emit (.wlrRandr width height scale r.wlrRandr)
  let w := { w with width := width, height := height }
  let w := w.onPeer fun p => rdpPeerUpdateSize p width height r.surface
  let w := { w with inputWidth := width, inputHeight := height }
  if w.encoderInitialized then initEncoderForClient w r.setup else w

def getDesktopScale (settings : Settings) : UInt32 :=
  if settings.desktopScaleFactor = 0 then 100 else settings.desktopScaleFactor

def onDesktopResize (w : Worker) (c : Client) (r : ResizeTurn) : Worker :=
  onPeerResize w c.settings.desktopWidth c.settings.desktopHeight (getDesktopScale c.settings) r

/-- `MONITOR_DEF`: its signed coordinates as 32-bit patterns. -/
structure MonitorDef where
  left : UInt32
  top : UInt32
  right : UInt32
  bottom : UInt32
deriving DecidableEq

def onRemoteMonitors (w : Worker) (c : Client) (monitors : List MonitorDef) (r : ResizeTurn) :
    Worker :=
  match monitors with
  | [] => w
  | m :: _ =>
    onPeerResize w (m.right - m.left + 1) (m.bottom - m.top + 1) (getDesktopScale c.settings) r

/-- The fields of `DISPLAY_CONTROL_MONITOR_LAYOUT` that are read. -/
structure MonitorLayout where
  width : UInt32
  height : UInt32
  desktopScaleFactor : UInt32
deriving DecidableEq

def onDispMonitorLayout (w : Worker) (monitors : List MonitorLayout) (r : ResizeTurn) : Worker :=
  match monitors with
  | [] => w
  | m :: _ =>
    onPeerResize w m.width m.height
      (if m.desktopScaleFactor = 0 then 100 else m.desktopScaleFactor) r

def onActivate (w : Worker) (c : Client) (r : ResizeTurn) : Worker :=
  let c := { c with ctx.activated := true }
  let w := { w with client := some c }
  if c.settings.desktopWidth ≠ c.ctx.width ∨ c.settings.desktopHeight ≠ c.ctx.height then
    onPeerResize w c.settings.desktopWidth c.settings.desktopHeight
      (getDesktopScale c.settings) r
  else w

/-! ### Clients -/

/-- `disconnect_client`: it frees the peer context, but none of the channel objects that were
made for it. -/
def disconnectClient (w : Worker) : Worker :=
  { w with
    vcmFd := none
    client := none
    clientActive := w.clientActive && w.client.isNone
    freedClients := (w.client.map (·.id)).toList ++ w.freedClients
    encoder := if w.encoderInitialized then encoderDestroy w.encoder else w.encoder
    encoderInitialized := false
    out := w.out ++ if w.standalone then [] else [Output.status .disconnected] }

/-- Results of the calls that attach a client, and the settings it starts with. -/
structure AttachTurn where
  peerNew : Bool
  contextNew : Bool
  peerInit : Bool
  initialized : Bool
  settings : Settings
deriving DecidableEq

/-- The part that `accept_ipc_client` and `on_peer_accepted` share, from
`freerdp_peer_context_new` on. -/
def attachClient (w : Worker) (r : AttachTurn) : Worker :=
  if !r.contextNew then w else
  let id := w.nextClient
  let w := { w with nextClient := id + 1 }
  if !r.peerInit || !r.initialized then { w with freedClients := id :: w.freedClients } else
  let ctx := PeerContext.new w.width w.height w.clipboardActive
  { w with client := some ⟨id, false, r.settings, ctx⟩ }

def onPeerAccepted (w : Worker) (r : AttachTurn) : Worker :=
  if w.client.isSome then w else attachClient w r

inductive MsgType
  | newClient | disconnect | resize | status | shutdown | other
deriving DecidableEq

/-- A received message: its type and whether a descriptor came with it. -/
structure IpcMsg where
  type : MsgType
  peerFd : Option Nat
deriving DecidableEq

/-- `accept_ipc_client`: `msg` is `none` when `ipc_recv_msg` fails. -/
def acceptIpcClient (w : Worker) (msg : Option IpcMsg) (r : AttachTurn) : Worker :=
  match msg with
  | none => { w with running := false }
  | some msg =>
    if msg.type = .shutdown then { w with running := false } else
    if msg.type ≠ .newClient ∨ msg.peerFd = none then w else
    let w := disconnectClient w
    if !r.peerNew then w else attachClient w r

/-! ### Main loop -/

def epollAddVcm (w : Worker) (c : Client) : Worker :=
  match rdpPeerGetVcmFd c.ctx with
  | none => w
  | some fd => { w with vcmFd := some fd }

/-- The main loop's use of `rdp_peer_check_vcm`. -/
def checkVcm (w : Worker) (c : Client) (r : VcmCheck) : Worker :=
  let (ok, p) := rdpPeerCheckVcm (w.peer c) r
  let w := w.setPeer c p
  if !ok then disconnectClient w else w

/-- What the activation of a client meets. -/
structure ActivationTurn where
  setup : CodecSetup
  frame : Bool
deriving DecidableEq

def beginCapture (w : Worker) (r : ActivationTurn) : Worker :=
  let w := { w with clientActive := true, frameIntervalMs := frameIntervalDefaultMs }
  (initEncoderForClient w r.setup).requestFrame r.frame

def beginCaptureIf (w : Worker) (cond : Bool) (r : ActivationTurn) : Worker :=
  if cond && !w.clientActive then beginCapture w r else w

/-- The three activation blocks at the end of a main-loop iteration. -/
def startCapture (w : Worker) (c : Client) (r : ActivationTurn) : Worker :=
  let ctx := c.ctx
  let w := beginCaptureIf w (ctx.activated && (ctx.gfxVcm = none || ctx.gfxReady)) r
  let w := beginCaptureIf w (ctx.activated && ctx.gfxReady) r
  beginCaptureIf w (ctx.activated && ctx.gfxVcm = none && !ctx.gfxReady) r

def onWlClipboardChanged (w : Worker) : Worker :=
  if !w.clientActive then w else
  match w.cliprdr with
  | none => w
  | some cliprdr => w.emit (.serverFormatList cliprdr)

def onAudioData (w : Worker) (nFrames : UInt32) (ok : Bool) : Worker :=
  if !w.clientActive then w else w.onPeer fun p => (rdpPeerSendAudio p nFrames ok).2

/-- The code after `cleanup:` in `main`; `clipboard_destroy` clears its structure. -/
def cleanup (w : Worker) : Worker :=
  { w with
    client := none
    cliprdr := if w.clipboardActive then none else w.cliprdr
    freedClients := (w.client.map (·.id)).toList ++ w.freedClients
    out := w.out ++ if w.standalone then [] else [Output.status .terminated]
    encoder := if w.encoderInitialized then encoderDestroy w.encoder else w.encoder
    capture := captureDestroy w.capture
    exited := true }

/-! ### The worker as a transition system -/

/-- One handler run by the event loop, with everything its environment decides. -/
inductive Event
  | peerAccepted (r : AttachTurn)
  | ipcMessage (msg : Option IpcMsg) (r : AttachTurn)
  | settings (s : Settings)
  | postConnect (r : VcmSetup)
  | activate (r : ResizeTurn)
  | desktopResize (r : ResizeTurn)
  | remoteMonitors (monitors : List MonitorDef) (r : ResizeTurn)
  | dispMonitorLayout (monitors : List MonitorLayout) (r : ResizeTurn)
  | capsAdvertise (caps : List CapSet) (r : CapsResult)
  | rdpsndActivated (formats : List AudioFormat)
  | audioData (nFrames : UInt32) (ok : Bool)
  | wlClipboardChanged
  | clipboardFailed
  | checkFailed
  | updateClient
  | checkVcm (r : VcmCheck)
  | startCapture (r : ActivationTurn)
  | frameBuffer (id : Nat) (width height stride : UInt32) (r : ShmSetup)
  | frameBufferDone (id : Nat)
  | frameReady (id : Nat) (r : FrameTurn)
  | frameFailed (id : Nat)
  | signal
  | cleanup
deriving DecidableEq

namespace Worker

def onClient (w : Worker) (f : Client → Worker) : Worker :=
  match w.client with
  | none => w
  | some c => f c

def step (w : Worker) : Event → Worker
  | .peerAccepted r => onPeerAccepted w r
  | .ipcMessage msg r => acceptIpcClient w msg r
  | .settings s => w.onClient fun c => { w with client := some { c with settings := s } }
  | .postConnect r =>
    w.onClient fun c => w.setPeer { c with connected := true } (onPostConnect (w.peer c) r)
  | .activate r => w.onClient fun c => onActivate w c r
  | .desktopResize r => w.onClient fun c => onDesktopResize w c r
  | .remoteMonitors ms r => w.onClient fun c => onRemoteMonitors w c ms r
  | .dispMonitorLayout ms r => onDispMonitorLayout w ms r
  | .capsAdvertise caps r => w.onPeer fun p => gfxCapsAdvertise p caps r
  | .rdpsndActivated formats => w.onPeer fun p => onRdpsndActivated p formats
  | .audioData n ok => onAudioData w n ok
  | .wlClipboardChanged => onWlClipboardChanged w
  | .clipboardFailed => { w with clipboardActive := false }
  | .checkFailed => disconnectClient w
  | .updateClient => w.onClient fun c => epollAddVcm w c
  | .checkVcm r => w.onClient fun c => Wlrdp.checkVcm w c r
  | .startCapture r => w.onClient fun c => Wlrdp.startCapture w c r
  | .frameBuffer id width height stride r =>
    { w with capture := Wlrdp.frameBuffer w.capture id width height stride r }
  | .frameBufferDone id => { w with capture := Wlrdp.frameBufferDone w.capture id }
  | .frameReady id r => Wlrdp.frameReady w id r
  | .frameFailed id => { w with capture := Wlrdp.frameFailed w.capture id }
  | .signal => { w with running := false }
  | .cleanup => Wlrdp.cleanup w

/-- A constructor never returns an object that is still in existence. -/
def freshHandle (w : Worker) (kind : ChannelKind) : Option Handle → Bool
  | none => true
  | some h => w.channels.objects.live.all fun o => !(o.kind = kind && o.handle = h)

def freshHandles (w : Worker) (r : VcmCheck) : Bool :=
  w.freshHandle .gfx r.gfx.contextNew && w.freshHandle .disp r.disp.contextNew &&
    w.freshHandle .cliprdr r.cliprdr.contextNew && w.freshHandle .rdpsnd r.rdpsnd.contextNew

/-- When an event can happen: peer callbacks need an attached client, FreeRDP runs
`PostConnect` once and before `Activate`, a channel's callbacks need the channel to be open,
and frame events follow the screencopy protocol. -/
def admits (w : Worker) : Event → Bool
  | .peerAccepted _ => w.standalone
  | .ipcMessage _ _ => !w.standalone
  | .settings _ => w.client.isSome
  | .postConnect r => w.client.any (!·.connected) && w.freshHandle .vcm r.openServer
  | .activate _ => w.client.any (·.connected)
  | .desktopResize _ => w.client.isSome
  | .remoteMonitors _ _ => w.client.isSome
  | .dispMonitorLayout _ _ => w.client.any (·.ctx.dispOpened)
  | .capsAdvertise _ _ => w.client.any (·.ctx.gfxOpened)
  | .rdpsndActivated _ => w.client.any (·.ctx.rdpsndOpened)
  | .audioData _ _ => w.audioActive
  | .wlClipboardChanged => w.clipboardActive
  | .clipboardFailed => w.clipboardActive
  | .checkFailed => w.client.isSome
  | .updateClient => w.client.isSome
  | .checkVcm r => w.client.isSome && w.freshHandles r
  | .startCapture _ => w.client.isSome
  | .frameBuffer id width _ stride _ =>
    w.capture.mayAnnounce id && 4 * width.toNat ≤ stride.toNat
  | .frameBufferDone id => w.capture.mayFinishAnnouncing id
  | .frameReady id _ => w.capture.mayBeReady id
  | .frameFailed id => w.capture.mayFail id
  | .signal => true
  | .cleanup => true

def enabled (w : Worker) (e : Event) : Prop := w.exited = false ∧ w.admits e = true

instance (w : Worker) (e : Event) : Decidable (w.enabled e) :=
  inferInstanceAs (Decidable (_ ∧ _))

end Worker

def worker : System Worker Event := ⟨Worker.enabled, Worker.step⟩

instance (w : Worker) (e : Event) : Decidable (worker.enabled w e) :=
  inferInstanceAs (Decidable (w.enabled e))

/-! ### The main loop -/

/-- The callbacks that a channel may run at any time. -/
def Event.fromChannel : Event → Bool
  | .capsAdvertise _ _ | .rdpsndActivated _ | .dispMonitorLayout _ _ => true
  | _ => false

/-- The handlers of the descriptors that `epoll_wait` reports. -/
def Event.dispatched : Event → Bool
  | .peerAccepted _ | .ipcMessage _ _ | .audioData _ _ | .wlClipboardChanged | .clipboardFailed
  | .checkVcm _ | .frameBuffer _ _ _ _ _ | .frameBufferDone _ | .frameReady _ _ | .frameFailed _
  | .signal => true
  | e => e.fromChannel

/-- The callbacks of the peer's `CheckFileDescriptor`. -/
def Event.pumped : Event → Bool
  | .settings _ | .postConnect _ | .activate _ | .desktopResize _ | .remoteMonitors _ _ => true
  | e => e.fromChannel

/-- What one pass of the main loop meets. -/
structure Iteration where
  dispatched : List Event
  pumped : List Event
  checkFileDescriptor : Bool
  check : VcmCheck
  channel : List Event
  start : ActivationTurn
deriving DecidableEq

/-- The handlers that one pass of the main loop runs, in order. -/
def Worker.iteration (w : Worker) (i : Iteration) : List Event :=
  let w := worker.run w i.dispatched
  i.dispatched ++ if w.client.isNone then [] else
  let w := worker.run w i.pumped
  i.pumped ++ if !i.checkFileDescriptor then [.checkFailed] else
  let w := worker.run w [.updateClient, .checkVcm i.check]
  [.updateClient, .checkVcm i.check] ++ if w.client.isNone then [] else
  i.channel ++ [.startCapture i.start]

def mainLoop : System Worker Iteration where
  enabled w i := w.running = true ∧ i.dispatched.all Event.dispatched ∧ i.pumped.all Event.pumped ∧
    i.channel.all Event.fromChannel ∧ worker.Legal w (w.iteration i)
  step w i := worker.run w (w.iteration i)

instance (w : Worker) (i : Iteration) : Decidable (mainLoop.enabled w i) :=
  inferInstanceAs (Decidable (_ ∧ _ ∧ _ ∧ _ ∧ worker.Legal w (w.iteration i)))

/-! ### Outcomes that concrete runs are made of -/

def Settings.basic (width height : UInt32) (nscodec gfx : Bool) : Settings where
  nscodec := nscodec
  osMajorType := 0
  desktopWidth := width
  desktopHeight := height
  desktopScaleFactor := 100
  colorDepth := 32
  supportGraphicsPipeline := gfx

def AttachTurn.accepted (s : Settings) : AttachTurn := ⟨true, true, true, true, s⟩

def CodecSetup.working : CodecSetup := ⟨some 0, true, some 1, true, some 2, true, some 3⟩

def CodecSetup.broken : CodecSetup := ⟨none, false, none, false, none, false, none⟩

def ResizeTurn.done : ResizeTurn := ⟨true, ⟨true, true, true⟩, .working⟩

def ShmSetup.working (fd : Nat) : ShmSetup := ⟨some fd, true, true⟩

def CodecRun.encoded : CodecRun :=
  ⟨some 0, true, true, true, 100, 0, 0, ⟨1, none⟩, .zero⟩

/-- A frame that is due at the time `t` and reaches the client. -/
def FrameTurn.due (t : UInt64) : FrameTurn := ⟨t, t, t, .encoded, ⟨true, true, true, true⟩, true⟩

/-- A client that does without graphics channels, up to its activation. -/
def plainClient (s : Settings) : List Event :=
  [.peerAccepted (.accepted s), .postConnect ⟨none, false, none⟩, .activate .done]

/-- One frame from its buffer event to its ready event. -/
def frameEvents (id : Nat) (width height stride : UInt32) (t : UInt64) : List Event :=
  [.frameBuffer id width height stride (.working 5), .frameBufferDone id, .frameReady id (.due t)]

end Wlrdp
