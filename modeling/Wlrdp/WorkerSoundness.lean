import Wlrdp.EncoderSoundness
import Wlrdp.PeerSoundness
import Wlrdp.WorkerSemantics

namespace Wlrdp
set_option autoImplicit true

/-- A client that may be served: activated, and no longer negotiating graphics. -/
def Client.settled (c : Client) : Bool :=
  c.ctx.activated && (c.ctx.gfxVcm = none || c.ctx.gfxReady)

/-- What holds of an attached client between two handlers. -/
structure ClientInv (c : Client) : Prop where
  gfx : GfxInv c.ctx
  manager : c.connected = false → c.ctx.gfxVcm = none
  inactive : c.connected = false → c.ctx.activated = false

/-- What every handler makes of the attached client. -/
structure ClientStep (c c' : Client) : Prop where
  id : c'.id = c.id
  inv : ClientInv c → ClientInv c'
  settled : ClientInv c → c.settled = true → c'.settled = true

theorem ClientStep.refl (c : Client) : ClientStep c c := ⟨rfl, fun h => h, fun _ h => h⟩

theorem ClientStep.trans (h : ClientStep a b) (h' : ClientStep b c) : ClientStep a c :=
  ⟨h'.id.trans h.id, fun hi => h'.inv (h.inv hi),
    fun hi hs => h'.settled (h.inv hi) (h.settled hi hs)⟩

theorem Client.settled_iff (c : Client) :
    c.settled = true ↔ c.ctx.activated = true ∧ (c.ctx.gfxVcm = none ∨ c.ctx.gfxReady = true) := by
  simp only [Client.settled, Bool.and_eq_true, Bool.or_eq_true, decide_eq_true_eq]

theorem ClientInv.new (settings : Settings) :
    ClientInv ⟨n, false, settings, .new width height clipboard⟩ :=
  ⟨.new .., fun _ => rfl, fun _ => rfl⟩

theorem ClientInv.connected (h : ClientInv c) (hv : c.ctx.gfxVcm.isSome = true) :
    c.connected = true := by
  cases hc : c.connected with
  | true => rfl
  | false => rw [h.manager hc] at hv; cases hv

theorem ClientStep.same {p p' : Peer} (hs : SameGfx p p') (hp : p.ctx = c.ctx) :
    ClientStep c { c with ctx := p'.ctx } := by
  refine ⟨rfl, fun h => ⟨?_, ?_, ?_⟩, fun _ h => ?_⟩
  · exact GfxInv.same (hp ▸ h.gfx) hs
  · intro hc
    rw [hs.gfxVcm, hp]
    exact h.manager hc
  · intro hc
    rw [hs.activated, hp]
    exact h.inactive hc
  · rw [Client.settled_iff] at h ⊢
    rwa [hs.activated, hs.gfxVcm, hs.gfxReady, hp]

theorem ClientInv.ready (h : ClientInv c) (ho : c.ctx.gfxOpened = true)
    (hset : c.settled = true) : c.ctx.gfxReady = true ∧ c.ctx.gfxSurfaceId ≠ 0 := by
  have hr : c.ctx.gfxReady = true := by
    rcases ((Client.settled_iff c).1 hset).2 with hv | hr
    · have hv' := h.gfx.context (h.gfx.opened.1 ho)
      rw [hv] at hv'
      cases hv'
    · exact hr
  refine ⟨hr, ?_⟩
  rw [h.gfx.surface, hr]
  decide

/-- A client with an open graphics channel stays served: a surface exists as soon as the
pipeline is ready, so that a later advertisement creates none. -/
theorem ClientStep.caps {p p' : Peer} (hp : p.ctx = c.ctx) (ho : c.ctx.gfxOpened = true)
    (hs : CapsStep p mode r p') : ClientStep c { c with ctx := p'.ctx } := by
  refine ⟨rfl, fun h => ?_, fun h hset => ?_⟩
  · have hc := h.connected (h.gfx.context (h.gfx.opened.1 ho))
    refine ⟨GfxInv.caps (hp ▸ h.gfx) (hp ▸ ho) hs, fun hc' => ?_, fun hc' => ?_⟩
    · rw [hc] at hc'; cases hc'
    · rw [hc] at hc'; cases hc'
  · obtain ⟨hr, hsurf⟩ := h.ready ho hset
    rw [← hp] at hr hsurf
    rw [Client.settled_iff, ← hp] at hset
    rw [Client.settled_iff]
    cases hs with
    | unconfirmed => exact ⟨hset.1, .inr hr⟩
    | kept => exact ⟨hset.1, .inr hr⟩
    | created _ _ _ _ h₀ => exact absurd h₀ hsurf
    | fallback _ _ _ _ h₀ => exact absurd h₀ hsurf

theorem gfxOpen_keeps (p : Peer) (r : ChannelSetup) :
    (gfxOpen p r).2.ctx.gfxVcm = p.ctx.gfxVcm ∧
      (gfxOpen p r).2.ctx.activated = p.ctx.activated ∧
      (gfxOpen p r).2.ctx.gfxReady = p.ctx.gfxReady := by
  rw [gfxOpen]
  split
  · exact ⟨rfl, rfl, rfl⟩
  · dsimp only
    split <;> exact ⟨rfl, rfl, rfl⟩

theorem ClientStep.check {p p' : Peer} (hp : p.ctx = c.ctx) (hs : CheckStep p r ok p') :
    ClientStep c { c with ctx := p'.ctx } := by
  have hgfx : ClientInv c → GfxInv p'.ctx := fun h => GfxInv.check (hp ▸ h.gfx) hs
  cases hs with
  | settled => rw [hp]; exact .refl c
  | handshaking => rw [hp]; exact .refl c
  | fallback _ _ _ _ hp' =>
    have hc := cleaned_of_eq hp'
    refine ⟨rfl, fun h => ⟨hgfx h, fun _ => hc.gfxVcm, fun hc' => ?_⟩, fun h hset => ?_⟩
    · rw [hc.activated]
      exact hp ▸ h.inactive hc'
    · rw [Client.settled_iff] at hset ⊢
      exact ⟨hc.activated.trans (hp ▸ hset.1), .inl hc.gfxVcm⟩
  | opened _ _ hv ho hr =>
    obtain ⟨hv', ha', hr'⟩ := gfxOpen_keeps p r.gfx
    have hsame := openChannels_sameGfx p r
    refine ⟨rfl, fun h => ⟨hgfx h, fun hc' => ?_, fun hc' => ?_⟩, fun h hset => ?_⟩
    · have hc := h.connected (hp ▸ hv)
      rw [hc] at hc'
      cases hc'
    · rw [hsame.activated, ha', hp]
      exact h.inactive hc'
    · rw [Client.settled_iff] at hset ⊢
      rw [hsame.activated, hsame.gfxVcm, hsame.gfxReady, ha', hv', hr', hp]
      exact hset

theorem ClientStep.postConnect {p p' : Peer} (hp : p.ctx = c.ctx) (hc : c.connected = false)
    (hs : VcmStep p p') : ClientStep c { c with connected := true, ctx := p'.ctx } := by
  refine ⟨rfl, fun h => ?_, fun h hset => ?_⟩
  · have hnone : p.ctx.gfxContext = none := by
      cases hg : p.ctx.gfxContext with
      | none => rfl
      | some g =>
        have hv := h.gfx.context (by rw [← hp, hg]; rfl)
        rw [h.manager hc] at hv
        cases hv
    exact ⟨GfxInv.vcm (hp ▸ h.gfx) hnone hs, Bool.noConfusion, Bool.noConfusion⟩
  · rw [Client.settled_iff, h.inactive hc] at hset
    cases hset.1

theorem ClientStep.activate (hc : c.connected = true) :
    ClientStep c { c with ctx.activated := true } := by
  refine ⟨rfl, fun h => ⟨⟨h.gfx.ready, h.gfx.opened, h.gfx.context, h.gfx.surface⟩,
    h.manager, fun hc' => ?_⟩, fun _ h => ?_⟩
  · rw [hc] at hc'; cases hc'
  · rw [Client.settled_iff] at h ⊢
    exact ⟨rfl, h.2⟩

theorem ClientStep.sent (n : UInt32) : ClientStep c { c with ctx.gfxFrameId := n } :=
  ⟨rfl, fun h => ⟨⟨h.gfx.ready, h.gfx.opened, h.gfx.context, h.gfx.surface⟩, h.manager,
    h.inactive⟩, fun _ h => h⟩

theorem ClientStep.settings (s : Settings) : ClientStep c { c with settings := s } :=
  ⟨rfl, fun h => ⟨h.gfx, h.manager, h.inactive⟩, fun _ h => h⟩

/-! ### What an event asks for -/

/-- The size that a resize handler run by the event asks for, before it is rounded. -/
def Worker.resizeTarget (w : Worker) : Event → Option (UInt32 × UInt32)
  | .activate _ => w.client.bind fun c =>
    if c.settings.desktopWidth ≠ c.ctx.width ∨ c.settings.desktopHeight ≠ c.ctx.height then
      some (c.settings.desktopWidth, c.settings.desktopHeight)
    else none
  | .desktopResize _ =>
    w.client.map fun c => (c.settings.desktopWidth, c.settings.desktopHeight)
  | .remoteMonitors (m :: _) _ =>
    w.client.map fun _ => (m.right - m.left + 1, m.bottom - m.top + 1)
  | .dispMonitorLayout (m :: _) _ => some (m.width, m.height)
  | _ => none

def Worker.sameSize (w : Worker) (width height : UInt32) : Bool :=
  w.width = roundUp16 width && w.height = roundUp16 height

/-- The event changes the size of the desktop. -/
def Worker.resizes (w : Worker) (e : Event) : Bool :=
  (w.resizeTarget e).any fun s => !w.sameSize s.1 s.2

/-- The event starts serving the attached client. -/
def Worker.begins (w : Worker) : Event → Bool
  | .startCapture _ => w.client.any (·.settled) && !w.clientActive
  | _ => false

/-- The codec constructors that the event may call. -/
def Event.setup : Event → Option CodecSetup
  | .activate r | .desktopResize r | .remoteMonitors _ r | .dispMonitorLayout _ r => some r.setup
  | .startCapture r => some r.setup
  | _ => none

/-- The path that the next picture takes: the send mode and the NSCodec setting. -/
def Client.route (c : Client) : SendMode × Bool :=
  (rdpPeerGetSendMode c.ctx, c.settings.nscodec)

def Worker.route (w : Worker) : Option (SendMode × Bool) := w.client.map (·.route)

/-- The path that the event selects for a client that is being served. -/
def Worker.reroutes (w : Worker) : Event → Option (SendMode × Bool)
  | .settings s => w.client.map fun c => (rdpPeerGetSendMode c.ctx, s.nscodec)
  | .capsAdvertise caps _ =>
    w.client.map fun c => (advertisedMode c.settings caps, c.settings.nscodec)
  | _ => none

/-- The event neither sets up the encoder nor selects another path. -/
def Worker.keepsEncoder (w : Worker) (e : Event) : Bool :=
  !w.begins e && !w.resizes e && (w.reroutes e).isNone

/-- The event is about a captured frame, or ends the session. -/
def Event.capturing : Event → Bool
  | .frameBuffer .. | .frameBufferDone _ | .frameReady .. | .frameFailed _ | .cleanup => true
  | _ => false

def Worker.quiet (w : Worker) (e : Event) : Bool := !e.capturing && w.keepsEncoder e

/-! ### What a step can do -/

/-- What holds of the session between two handlers. -/
structure WorkerInv (w : Worker) : Prop where
  client : ∀ c, w.client = some c → ClientInv c
  active : w.clientActive = w.encoderInitialized
  settled : w.exited = false → w.encoderInitialized = true →
    ∃ c, w.client = some c ∧ c.settled = true

theorem WorkerInv.start : WorkerInv (.start standalone clipboard audio width height) :=
  ⟨fun _ hc => (by cases hc), rfl, fun _ hi => (by cases hi)⟩

/-- Capture and encoder are as before, and no picture was sent. -/
structure SameMedia (w w' : Worker) : Prop where
  width : w'.width = w.width
  height : w'.height = w.height
  capture : w'.capture = w.capture
  encoder : w'.encoder = w.encoder
  encoderInitialized : w'.encoderInitialized = w.encoderInitialized
  clientActive : w'.clientActive = w.clientActive
  exited : w'.exited = w.exited
  frames : framesOf w'.out = framesOf w.out

theorem SameMedia.refl (w : Worker) : SameMedia w w := ⟨rfl, rfl, rfl, rfl, rfl, rfl, rfl, rfl⟩

/-- The session after a change of size: the encoder, if there is one, is set up anew for it. -/
structure Resized (r : CodecSetup) (w w' : Worker) : Prop where
  capture : w'.capture = w.capture
  encoderInitialized : w'.encoderInitialized = w.encoderInitialized
  clientActive : w'.clientActive = w.clientActive
  exited : w'.exited = w.exited
  route : w'.route = w.route
  client : ∀ c', w'.client = some c' → ∃ c, w.client = some c ∧ ClientStep c c'
  isSome : w'.client.isSome = w.client.isSome
  frames : framesOf w'.out = framesOf w.out
  idle : w.encoderInitialized = false → w'.encoder = w.encoder
  encoder : w.encoderInitialized = true →
    InitStep w.encoderRequest.1 w'.width w'.height w.encoderRequest.2 r w.encoder w'.encoder

/-- The session after it started to serve its client. -/
structure Began (r : ActivationTurn) (w w' : Worker) : Prop where
  width : w'.width = w.width
  height : w'.height = w.height
  capture : w'.capture = (captureRequestFrame w.capture r.frame).2
  encoderInitialized : w'.encoderInitialized = true
  clientActive : w'.clientActive = true
  exited : w'.exited = w.exited
  client : w'.client = w.client
  frames : framesOf w'.out = framesOf w.out
  encoder : InitStep w.encoderRequest.1 w.width w.height w.encoderRequest.2 r.setup
    w.encoder w'.encoder

/-- The session after it dropped its client. -/
structure Left (w w' : Worker) : Prop where
  width : w'.width = w.width
  height : w'.height = w.height
  capture : w'.capture = w.capture
  encoderInitialized : w'.encoderInitialized = false
  clientActive : w'.clientActive = false
  exited : w'.exited = w.exited
  frames : framesOf w'.out = framesOf w.out
  reads : w'.encoder.history.reads = w.encoder.history.reads

/-- What an event can do to capture, encoder and pictures. -/
inductive MediaStep (w : Worker) : Event → Worker → Prop
  | kept (hq : w.quiet e = true) (hs : SameMedia w w') 
      (hr : w.encoderInitialized = true → w'.route = w.route) : MediaStep w e w'
  | rerouted (hs : SameMedia w w') (path : SendMode × Bool) (he : w.reroutes e = some path)
      (hr : w.encoderInitialized = true → w'.route = some path) : MediaStep w e w'
  | resized (hs : w.resizes e = true) (hr : e.setup = some r) (h : Resized r w w') :
      MediaStep w e w'
  | began (r : ActivationTurn) (hb : w.begins (.startCapture r) = true) (h : Began r w w') :
      MediaStep w (.startCapture r) w'
  | left (hq : w.quiet e = true) (h : Left w w') : MediaStep w e w'
  | frameBuffer (id : Nat) (width height stride : UInt32) (r : ShmSetup) :
      MediaStep w (.frameBuffer id width height stride r)
        { w with capture := Wlrdp.frameBuffer w.capture id width height stride r }
  | frameBufferDone (id : Nat) : MediaStep w (.frameBufferDone id)
      { w with capture := Wlrdp.frameBufferDone w.capture id }
  | frameReady (id : Nat) (r : FrameTurn) :
      MediaStep w (.frameReady id r) (Wlrdp.frameReady w id r)
  | frameFailed (id : Nat) : MediaStep w (.frameFailed id)
      { w with capture := Wlrdp.frameFailed w.capture id }
  | exited : MediaStep w .cleanup (Wlrdp.cleanup w)

theorem initEncoderForClient_initialized (w : Worker) (r : CodecSetup) :
    (initEncoderForClient w r).encoderInitialized = true := by
  simp only [initEncoderForClient]
  exact encoderInit_ok

theorem initEncoderForClient_encoder (w : Worker) (r : CodecSetup) :
    InitStep w.encoderRequest.1 w.width w.height w.encoderRequest.2 r w.encoder
      (initEncoderForClient w r).encoder := by
  have hinit : ∀ enc, InitStep w.encoderRequest.1 w.width w.height w.encoderRequest.2 r enc
      (encoderRequestKeyframe (encoderInit enc w.encoderRequest.1 w.width w.height
        w.encoderRequest.2 w.encoderFormat r).2) :=
    fun enc => encoderInit_spec.requestKeyframe
  simp only [initEncoderForClient]
  rw [encoderInit_ok, if_pos rfl]
  split
  · obtain ⟨h₁, h₂, h₃, h₄, h₅, h₆, h₇⟩ := hinit (encoderDestroy w.encoder)
    exact ⟨h₁, h₂, h₃, h₄, h₅, h₆.trans (encoderDestroy_reads _), h₇⟩
  · exact hinit w.encoder

theorem beginCaptureIf_active (h : w.clientActive = true) :
    beginCaptureIf w start r = w := by
  rw [beginCaptureIf, h, Bool.not_true, Bool.and_false, if_neg (by decide)]

/-- The first activation block subsumes the other two. -/
theorem startCapture_eq (w : Worker) (c : Client) (r : ActivationTurn) :
    startCapture w c r = beginCaptureIf w c.settled r := by
  have hstop : ∀ cond, c.settled = true →
      beginCaptureIf (beginCaptureIf w c.settled r) cond r = beginCaptureIf w c.settled r := by
    intro cond hset
    apply beginCaptureIf_active
    rw [hset]
    simp only [beginCaptureIf]
    cases ha : w.clientActive with
    | true => exact ha
    | false => rfl
  have hskip : ∀ w : Worker, beginCaptureIf w false r = w := fun _ => rfl
  change beginCaptureIf (beginCaptureIf (beginCaptureIf w c.settled r) _ r) _ r = _
  cases hset : c.settled with
  | true =>
    rw [hset] at hstop
    rw [hstop _ rfl, hstop _ rfl]
  | false =>
    have hready : (c.ctx.activated && c.ctx.gfxReady) = false := by
      simp only [Client.settled] at hset
      grind
    have hnone : (c.ctx.activated && decide (c.ctx.gfxVcm = none) && !c.ctx.gfxReady) = false := by
      simp only [Client.settled] at hset
      grind
    rw [hready, hnone, hskip, hskip]

theorem beginCapture_began (w : Worker) (r : ActivationTurn) : Began r w (beginCapture w r) :=
  ⟨rfl, rfl, rfl, initEncoderForClient_initialized _ _, rfl, rfl, rfl, rfl,
    initEncoderForClient_encoder { w with
      clientActive := true, frameIntervalMs := frameIntervalDefaultMs } r.setup⟩

theorem disconnectClient_left (h : WorkerInv w) (hx : w.exited = false) :
    Left w (disconnectClient w) := by
  refine ⟨rfl, rfl, rfl, rfl, ?_, rfl, framesOf_quiet fun o ho => ?_, ?_⟩
  · change (w.clientActive && w.client.isNone) = false
    cases hi : w.encoderInitialized with
    | false => rw [h.active, hi, Bool.false_and]
    | true =>
      obtain ⟨c, hc, _⟩ := h.settled hx hi
      rw [hc, Option.isNone_some, Bool.and_false]
  · split at ho
    · cases ho
    · rw [List.mem_singleton.1 ho]; rfl
  · change (if w.encoderInitialized then encoderDestroy w.encoder else w.encoder).history.reads = _
    split
    · exact encoderDestroy_reads _
    · rfl

theorem attachClient_media (w : Worker) (r : AttachTurn) : SameMedia w (attachClient w r) := by
  rw [attachClient]
  split
  · exact .refl w
  · dsimp only
    split <;> exact ⟨rfl, rfl, rfl, rfl, rfl, rfl, rfl, rfl⟩

theorem SameMedia.setPeer (hf : framesOf p.out = framesOf w.out) : SameMedia w (w.setPeer c p) :=
  ⟨rfl, rfl, rfl, rfl, rfl, rfl, rfl, hf⟩

theorem route_of_same {c : Client} {p p' : Peer} (hs : SameGfx p p') (hp : p.ctx = c.ctx) :
    ({ c with ctx := p'.ctx } : Client).route = c.route := by
  simp only [Client.route, rdpPeerGetSendMode]
  rw [hs.gfxReady, hs.sendMode, hp]

theorem onPeer_media {c : Client} (hq : w.quiet e = true) (hc : w.client = some c)
    (hs : SameGfx (w.peer c) p) : MediaStep w e (w.setPeer c p) := by
  refine .kept hq (.setPeer hs.frames) fun _ => ?_
  change some _ = w.client.map _
  rw [hc]
  exact congrArg some (route_of_same hs rfl)

theorem framesOf_wlrRandr : framesOf (out ++ [Output.wlrRandr a b c ok]) = framesOf out :=
  framesOf_quiet fun o ho => by rw [List.mem_singleton.1 ho]; rfl

theorem onPeerResize_same (h : w.sameSize width height = true) :
    onPeerResize w width height scale r = w := by
  simp only [Worker.sameSize] at h
  rw [onPeerResize, if_pos (by simpa using h)]

/-- `on_peer_resize` up to the new encoder. -/
def Worker.resizeTo (w : Worker) (width height scale : UInt32) (r : ResizeTurn) : Worker :=
  let w := w.emit (.wlrRandr width height scale r.wlrRandr)
  let w := { w with width := width, height := height }
  let w := w.onPeer fun p => rdpPeerUpdateSize p width height r.surface
  { w with inputWidth := width, inputHeight := height }

theorem onPeerResize_eq (h : w.sameSize width height = false) :
    onPeerResize w width height scale r =
      let w' := w.resizeTo (roundUp16 width) (roundUp16 height) scale r
      if w'.encoderInitialized then initEncoderForClient w' r.setup else w' := by
  simp only [Worker.sameSize] at h
  rw [onPeerResize, Worker.resizeTo, if_neg (by simpa using h)]

/-- What `on_peer_resize` does before it looks at the encoder. -/
structure ResizedTo (width height : UInt32) (w w' : Worker) : Prop where
  width : w'.width = width
  height : w'.height = height
  capture : w'.capture = w.capture
  encoder : w'.encoder = w.encoder
  encoderInitialized : w'.encoderInitialized = w.encoderInitialized
  clientActive : w'.clientActive = w.clientActive
  exited : w'.exited = w.exited
  frames : framesOf w'.out = framesOf w.out
  route : w'.route = w.route
  request : w'.encoderRequest = w.encoderRequest
  client : ∀ c', w'.client = some c' → ∃ c, w.client = some c ∧ ClientStep c c'
  isSome : w'.client.isSome = w.client.isSome

theorem encoderRequest_of_route {c c' : Client} (h : c'.route = c.route) :
    c'.encoderRequest = c.encoderRequest := by
  obtain ⟨hm, hn⟩ := Prod.mk.inj h
  simp only [Client.encoderRequest]
  rw [hm, hn]

theorem resizeTo_resizedTo (hc : ∀ c, w.client = some c → ClientInv c) :
    ResizedTo width height w (w.resizeTo width height scale r) := by
  simp only [Worker.resizeTo, Worker.onPeer]
  dsimp only [Worker.emit]
  cases hcl : w.client with
  | none =>
    refine ⟨rfl, rfl, rfl, rfl, rfl, rfl, rfl, framesOf_wlrRandr, ?_, ?_, fun _ h => ?_,
      congrArg Option.isSome hcl.symm⟩
    · simp only [Worker.route]
      rw [hcl]
    · simp only [Worker.encoderRequest]
      rw [hcl]
    · cases h
  | some c =>
    have hgfx : GfxInv ((w.emit (.wlrRandr width height scale r.wlrRandr)).peer c).ctx :=
      (hc c hcl).gfx
    obtain ⟨hs, _, _⟩ := rdpPeerUpdateSize_shape hgfx width height r.surface
    have hroute := route_of_same hs rfl
    refine ⟨rfl, rfl, rfl, rfl, rfl, rfl, rfl, hs.frames.trans framesOf_wlrRandr, ?_, ?_,
      fun c' h => ?_, ?_⟩
    · simp only [Worker.route]
      rw [hcl]
      exact congrArg some hroute
    · simp only [Worker.encoderRequest]
      rw [hcl]
      exact encoderRequest_of_route hroute
    · cases h
      exact ⟨c, hcl, .same hs rfl⟩
    · rw [hcl]
      rfl

theorem onPeerResize_resized (hc : ∀ c, w.client = some c → ClientInv c)
    (hs : w.sameSize width height = false) :
    Resized r.setup w (onPeerResize w width height scale r) := by
  have h : ResizedTo (roundUp16 width) (roundUp16 height) w
      (w.resizeTo (roundUp16 width) (roundUp16 height) scale r) := resizeTo_resizedTo hc
  rw [onPeerResize_eq hs]
  generalize w.resizeTo (roundUp16 width) (roundUp16 height) scale r = w' at h
  dsimp only
  cases hi : w'.encoderInitialized with
  | false =>
    have hi' : w.encoderInitialized = false := h.encoderInitialized ▸ hi
    refine ⟨h.capture, h.encoderInitialized, h.clientActive, h.exited, h.route,
      h.client, h.isSome, h.frames, fun _ => h.encoder, fun hi'' => ?_⟩
    rw [hi'] at hi''
    cases hi''
  | true =>
    have hi' : w.encoderInitialized = true := h.encoderInitialized ▸ hi
    have he := initEncoderForClient_encoder w' r.setup
    rw [h.request, h.encoder] at he
    refine ⟨h.capture, (initEncoderForClient_initialized _ _).trans hi'.symm, h.clientActive,
      h.exited, h.route, h.client, h.isSome, h.frames, fun hi'' => ?_, fun _ => he⟩
    rw [hi'] at hi''
    cases hi''

/-- The invariant after a step that leaves the flags as they are. -/
theorem WorkerInv.keep (h : WorkerInv w)
    (hclient : ∀ c', w'.client = some c' → ∃ c, w.client = some c ∧ ClientStep c c')
    (hsome : w'.client.isSome = w.client.isSome) (ha : w'.clientActive = w.clientActive)
    (hi : w'.encoderInitialized = w.encoderInitialized) (hx : w'.exited = w.exited) :
    WorkerInv w' := by
  constructor
  · intro c' hc'
    obtain ⟨c, hc, hs⟩ := hclient c' hc'
    exact hs.inv (h.client c hc)
  · rw [ha, hi, h.active]
  · intro hx' hi'
    obtain ⟨c, hc, hset⟩ := h.settled (hx ▸ hx') (hi ▸ hi')
    rw [hc, Option.isSome_some] at hsome
    obtain ⟨c', hc'⟩ := Option.isSome_iff_exists.1 hsome
    obtain ⟨c₁, hc₁, hs⟩ := hclient c' hc'
    cases hc.symm.trans hc₁
    exact ⟨c', hc', hs.settled (h.client c hc) hset⟩

theorem WorkerInv.keepClient (h : WorkerInv w) (hclient : w'.client = w.client)
    (ha : w'.clientActive = w.clientActive)
    (hi : w'.encoderInitialized = w.encoderInitialized) (hx : w'.exited = w.exited) :
    WorkerInv w' :=
  h.keep (fun c' hc' => ⟨c', hclient ▸ hc', .refl c'⟩) (by rw [hclient]) ha hi hx

theorem WorkerInv.setPeer {c c' : Client} (h : WorkerInv w) (hc : w.client = some c)
    (hs : ClientStep c { c' with ctx := p.ctx }) : WorkerInv (w.setPeer c' p) := by
  refine h.keep (fun _ h => ?_) ?_ rfl rfl rfl
  · cases h
    exact ⟨c, hc, hs⟩
  · rw [hc]
    rfl

/-- What is proved of every event. -/
structure Sound (w : Worker) (e : Event) (w' : Worker) : Prop where
  inv : WorkerInv w'
  media : MediaStep w e w'

theorem sound_refl (h : WorkerInv w) (hq : w.quiet e = true) : Sound w e w :=
  ⟨h, .kept hq (.refl w) fun _ => rfl⟩

theorem WorkerInv.idle (h : WorkerInv w) (hx : w.exited = false) (hc : w.client = none) :
    w.encoderInitialized = false := by
  cases hi : w.encoderInitialized with
  | false => rfl
  | true =>
    obtain ⟨c, hc', _⟩ := h.settled hx hi
    rw [hc] at hc'
    cases hc'

theorem attachClient_inv (h : WorkerInv w) (hi : w.encoderInitialized = false) :
    WorkerInv (attachClient w r) := by
  have hkeep : ∀ w' : Worker, w'.encoderInitialized = w.encoderInitialized →
      w'.clientActive = w.clientActive → (∀ c, w'.client = some c → ClientInv c) →
      WorkerInv w' := by
    intro w' he ha hc
    refine ⟨hc, by rw [ha, he, h.active], fun _ hi' => ?_⟩
    rw [he, hi] at hi'
    cases hi'
  rw [attachClient]
  split
  · exact h
  · dsimp only
    split
    · exact hkeep _ rfl rfl h.client
    · refine hkeep _ rfl rfl fun c hc => ?_
      cases hc
      exact .new _

theorem disconnectClient_inv (hl : Left w (disconnectClient w)) :
    WorkerInv (disconnectClient w) := by
  refine ⟨fun _ hc => (by cases hc), ?_, fun _ hi => ?_⟩
  · rw [hl.clientActive, hl.encoderInitialized]
  · rw [hl.encoderInitialized] at hi
    cases hi

theorem disconnectClient_sound (h : WorkerInv w) (hx : w.exited = false)
    (hq : w.quiet e = true) : Sound w e (disconnectClient w) :=
  have hl := disconnectClient_left h hx
  ⟨disconnectClient_inv hl, .left hq hl⟩

theorem onPeerAccepted_sound (h : WorkerInv w) (hx : w.exited = false) :
    Sound w (.peerAccepted r) (onPeerAccepted w r) := by
  simp only [onPeerAccepted]
  cases hc : w.client with
  | some c => exact sound_refl h rfl
  | none =>
    have hi := h.idle hx hc
    refine ⟨attachClient_inv h hi, .kept rfl (attachClient_media w r) fun hi' => ?_⟩
    rw [hi] at hi'
    cases hi'

theorem acceptIpcClient_sound (h : WorkerInv w) (hx : w.exited = false) :
    Sound w (.ipcMessage msg r) (acceptIpcClient w msg r) := by
  have hstop : Sound w (.ipcMessage msg r) { w with running := false } :=
    ⟨h.keepClient rfl rfl rfl rfl, .kept rfl ⟨rfl, rfl, rfl, rfl, rfl, rfl, rfl, rfl⟩ fun _ => rfl⟩
  unfold acceptIpcClient
  split
  · exact hstop
  · split
    · exact hstop
    split
    · exact sound_refl h rfl
    have hl := disconnectClient_left h hx
    dsimp only
    split
    · exact ⟨disconnectClient_inv hl, .left rfl hl⟩
    have ha := attachClient_media (disconnectClient w) r
    refine ⟨attachClient_inv (disconnectClient_inv hl) hl.encoderInitialized, .left rfl ?_⟩
    exact ⟨ha.width.trans hl.width, ha.height.trans hl.height, ha.capture.trans hl.capture,
      ha.encoderInitialized.trans hl.encoderInitialized, ha.clientActive.trans hl.clientActive,
      ha.exited.trans hl.exited, ha.frames.trans hl.frames,
      (congrArg (·.history.reads) ha.encoder).trans hl.reads⟩

theorem quiet_of_idle {w : Worker} (hc : w.client = none) (hn : e.capturing = false)
    (he : ∀ ms r, e ≠ .dispMonitorLayout ms r) : w.quiet e = true := by
  rw [Worker.quiet, hn, Bool.not_false, Bool.true_and]
  cases e with
  | dispMonitorLayout ms r => exact absurd rfl (he ms r)
  | remoteMonitors ms r =>
    cases ms <;> simp [Worker.keepsEncoder, Worker.begins, Worker.resizes, Worker.resizeTarget,
      Worker.reroutes, hc]
  | _ => simp [Worker.keepsEncoder, Worker.begins, Worker.resizes, Worker.resizeTarget,
      Worker.reroutes, hc]

theorem quiet_of_target {w : Worker} (ht : w.resizeTarget e = some (width, height)) :
    w.quiet e = w.sameSize width height := by
  rw [Worker.quiet, Worker.keepsEncoder, Worker.resizes, ht, Option.any_some, Bool.not_not]
  cases e <;> first | cases ht | simp [Event.capturing, Worker.begins, Worker.reroutes]

theorem reroutes_alone {w : Worker} (he : w.reroutes e = some path) :
    w.begins e = false ∧ w.resizes e = false ∧ e.capturing = false := by
  cases e <;> first | cases he | exact ⟨rfl, rfl, rfl⟩

theorem resizes_alone {w : Worker} (he : w.resizes e = true) :
    w.begins e = false ∧ w.reroutes e = none ∧ e.capturing = false := by
  cases e <;> first | cases he | exact ⟨rfl, rfl, rfl⟩

/-- The four handlers that end in `on_peer_resize`. -/
theorem onPeerResize_sound (h : WorkerInv w) (hset : e.setup = some r.setup)
    (ht : w.resizeTarget e = some (width, height)) :
    Sound w e (onPeerResize w width height scale r) := by
  cases hs : w.sameSize width height with
  | true =>
    rw [onPeerResize_same hs]
    exact sound_refl h (quiet_of_target ht ▸ hs)
  | false =>
    have hr : Resized r.setup w (onPeerResize w width height scale r) :=
      onPeerResize_resized h.client hs
    refine ⟨h.keep hr.client hr.isSome hr.clientActive hr.encoderInitialized hr.exited,
      .resized ?_ hset hr⟩
    · rw [Worker.resizes, ht, Option.any_some, hs]
      rfl

theorem onActivate_sound (h : WorkerInv w) (hc : w.client = some c) (hcon : c.connected = true) :
    Sound w (.activate r) (onActivate w c r) := by
  have hstep : ClientStep c { c with ctx.activated := true } := .activate hcon
  have hroute : w.route = some ({ c with ctx.activated := true } : Client).route := by
    rw [Worker.route, hc]
    rfl
  have hrequest : w.encoderRequest = ({ c with ctx.activated := true } : Client).encoderRequest := by
    rw [Worker.encoderRequest, hc]
    rfl
  let w₁ : Worker := { w with client := some { c with ctx.activated := true } }
  have h₁ : WorkerInv w₁ := by
    refine h.keep (fun _ hc' => ?_) ?_ rfl rfl rfl
    · cases hc'
      exact ⟨c, hc, hstep⟩
    · rw [hc]
      rfl
  have hkept : w.quiet (.activate r) = true → Sound w (.activate r) w₁ := fun hq =>
    ⟨h₁, .kept hq ⟨rfl, rfl, rfl, rfl, rfl, rfl, rfl, rfl⟩ fun _ => hroute.symm⟩
  simp only [onActivate]
  split
  · next hsize =>
    have ht : w.resizeTarget (.activate r) =
        some (c.settings.desktopWidth, c.settings.desktopHeight) := by
      rw [Worker.resizeTarget, hc, Option.bind_some, if_pos hsize]
    cases hs : w.sameSize c.settings.desktopWidth c.settings.desktopHeight with
    | true =>
      have hs₁ : w₁.sameSize c.settings.desktopWidth c.settings.desktopHeight = true := hs
      exact onPeerResize_same hs₁ ▸ hkept (quiet_of_target ht ▸ hs)
    | false =>
      have hr : Resized r.setup w₁ (onPeerResize w₁ c.settings.desktopWidth
          c.settings.desktopHeight (getDesktopScale c.settings) r) :=
        onPeerResize_resized h₁.client hs
      refine ⟨h₁.keep hr.client hr.isSome hr.clientActive hr.encoderInitialized hr.exited,
        .resized ?_ rfl ⟨hr.capture, hr.encoderInitialized, hr.clientActive, hr.exited,
          hr.route.trans hroute.symm, ?_, hr.isSome.trans (by rw [hc]; rfl), hr.frames, hr.idle,
          fun hi => hrequest ▸ hr.encoder hi⟩⟩
      · rw [Worker.resizes, ht, Option.any_some, hs]
        rfl
      · intro c' hc'
        obtain ⟨c₁, hc₁, hs₁⟩ := hr.client c' hc'
        cases hc₁
        exact ⟨c, hc, hstep.trans hs₁⟩
  · next hsize =>
    apply hkept
    simp only [Worker.quiet, Worker.keepsEncoder, Worker.resizes, Worker.resizeTarget]
    rw [hc, Option.bind_some, if_neg hsize]
    rfl

theorem startCapture_sound (h : WorkerInv w) (hc : w.client = some c) :
    Sound w (.startCapture r) (startCapture w c r) := by
  rw [startCapture_eq]
  simp only [beginCaptureIf]
  split
  · next hb =>
    have hset : c.settled = true := (Bool.and_eq_true_iff.1 hb).1
    have hbegan := beginCapture_began w r
    refine ⟨⟨fun c' hc' => h.client c' (hbegan.client ▸ hc'), ?_, fun _ _ => ⟨c, ?_, hset⟩⟩,
      .began r ?_ hbegan⟩
    · rw [hbegan.clientActive, hbegan.encoderInitialized]
    · rw [hbegan.client, hc]
    · rw [Worker.begins, hc]
      exact hb
  · next hb =>
    apply sound_refl h
    simp only [Worker.quiet, Worker.keepsEncoder, Worker.begins]
    rw [hc, Option.any_some, Bool.eq_false_iff.2 hb]
    rfl

theorem check_of_settled {w : Worker} {c : Client} (hs : CheckStep (w.peer c) r ok p)
    (hset : c.settled = true) : p = w.peer c := by
  rw [Client.settled_iff] at hset
  have hgone : ∀ {P : Prop}, (w.peer c).ctx.gfxVcm.isSome = true →
      (w.peer c).ctx.gfxReady = false → P := by
    intro P hv hr
    rcases hset.2 with hn | hr'
    · change c.ctx.gfxVcm.isSome = true at hv
      rw [hn] at hv
      cases hv
    · change c.ctx.gfxReady = false at hr
      rw [hr'] at hr
      cases hr
  cases hs with
  | settled => rfl
  | handshaking => rfl
  | fallback _ hv _ hr => exact hgone hv hr
  | opened _ _ hv _ hr => exact hgone hv hr

theorem checkVcm_sound (h : WorkerInv w) (hx : w.exited = false) (hc : w.client = some c) :
    Sound w (.checkVcm r) (checkVcm w c r) := by
  simp only [checkVcm]
  cases hp : rdpPeerCheckVcm (w.peer c) r with
  | mk ok p =>
    have hs := rdpPeerCheckVcm_step hp
    have hinv : WorkerInv (w.setPeer c p) := h.setPeer hc (.check rfl hs)
    cases ok with
    | true =>
      refine ⟨hinv, .kept rfl (.setPeer hs.frames) fun hi => ?_⟩
      obtain ⟨c₁, hc₁, hset⟩ := h.settled hx hi
      cases hc.symm.trans hc₁
      have hp := check_of_settled hs hset
      change some _ = w.client.map _
      rw [hc, hp]
      rfl
    | false =>
      have hl := disconnectClient_left hinv hx
      exact ⟨disconnectClient_inv hl, .left rfl ⟨hl.width, hl.height, hl.capture,
        hl.encoderInitialized, hl.clientActive, hl.exited, hl.frames.trans hs.frames, hl.reads⟩⟩

theorem postConnect_sound (h : WorkerInv w) (hc : w.client = some c)
    (hcon : c.connected = false) :
    Sound w (.postConnect r) (w.setPeer { c with connected := true } (onPostConnect (w.peer c) r)) := by
  have hs := onPostConnect_step (w.peer c) r
  refine ⟨h.setPeer hc (.postConnect rfl hcon hs),
    .kept rfl (.setPeer (congrArg framesOf hs.out)) fun _ => ?_⟩
  simp only [Worker.route, Client.route, rdpPeerGetSendMode]
  rw [hc]
  change some (if !(onPostConnect (w.peer c) r).ctx.gfxReady then _ else
    (onPostConnect (w.peer c) r).ctx.sendMode, c.settings.nscodec) = _
  rw [hs.gfxReady, hs.sendMode]
  rfl

theorem capsAdvertise_sound (h : WorkerInv w) (hx : w.exited = false) (hc : w.client = some c)
    (ho : c.ctx.gfxOpened = true) :
    Sound w (.capsAdvertise caps r) (w.setPeer c (gfxCapsAdvertise (w.peer c) caps r)) := by
  have hs := gfxCapsAdvertise_step (w.peer c) caps r
  generalize gfxCapsAdvertise (w.peer c) caps r = p' at hs
  refine ⟨h.setPeer hc (.caps rfl ho hs), .rerouted (.setPeer hs.talk.frames)
    (advertisedMode c.settings caps, c.settings.nscodec) ?_ fun hi => ?_⟩
  · rw [Worker.reroutes, hc]
    rfl
  · obtain ⟨c₁, hc₁, hset⟩ := h.settled hx hi
    cases hc.symm.trans hc₁
    obtain ⟨hr, hsurf⟩ := (h.client c hc).ready ho hset
    obtain ⟨hr', hm'⟩ := hs.selected hsurf
    simp only [Worker.route, Client.route, rdpPeerGetSendMode]
    change some (if !p'.ctx.gfxReady then _ else p'.ctx.sendMode, _) = _
    rw [hr', hm', show (w.peer c).ctx.gfxReady = true from hr]
    rfl

/-! ### Frames -/

def Worker.serving (w : Worker) : Bool :=
  w.clientActive && w.client.isSome && w.encoderInitialized

/-- What `on_frame_ready` can do: nothing, ask for the next frame only, encode without sending,
or encode and send; in the last three cases it asks for the next frame. -/
inductive FrameStep (w : Worker) (pixels : Option UInt32) (width height stride : UInt32)
    (r : FrameTurn) : Worker → Prop
  | ignored (hs : w.serving = false) : FrameStep w pixels width height stride r w
  | throttled (hs : w.serving = true) (hd : w.frameDue r = false)
      (h : w' = w.requestFrame r.frame) : FrameStep w pixels width height stride r w'
  | unsent (hs : w.serving = true) (hd : w.frameDue r = true)
      (he : encoderEncode w.encoder pixels stride r.encode = (ok, enc))
      (h : w' = Worker.requestFrame { w with encoder := enc } r.frame) :
      FrameStep w pixels width height stride r w'
  | sent (hs : w.serving = true) (hd : w.frameDue r = true) (hc : w.client = some c)
      (he : encoderEncode w.encoder pixels stride r.encode = (true, enc))
      (hp : (rdpPeerSendFrame (w.peer c) enc.frame width height r.send).2 = p)
      (interval : UInt32) (last : UInt64)
      (h : w' = Worker.requestFrame { w.setPeer c p with
        encoder := enc, frameIntervalMs := interval, lastFrameMs := last } r.frame)
      (hn : ¬ (enc.outLen = 0 ∧ enc.auxLen = 0)) : FrameStep w pixels width height stride r w'

/-- `on_frame_ready` by its exits. -/
theorem onFrameReady_eq (w : Worker) (pixels : Option UInt32) (width height stride : UInt32)
    (r : FrameTurn) :
    onFrameReady w pixels width height stride r =
      if !w.clientActive || w.client.isNone || !w.encoderInitialized then w else
      if r.now - w.lastFrameMs < w.frameIntervalMs.toUInt64 then w.requestFrame r.frame else
      let (ok, enc) := encoderEncode w.encoder pixels stride r.encode
      let w := { w with encoder := enc }
      if !ok then w.requestFrame r.frame else
      if enc.outLen = 0 ∧ enc.auxLen = 0 then w.requestFrame r.frame else
      let w := w.onPeer fun p => (rdpPeerSendFrame p enc.frame width height r.send).2
      let w := { w with
        frameIntervalMs := (w.frameIntervalMs * 3 + frameTarget (r.sent - r.now)) / 4
        lastFrameMs := r.last }
      w.requestFrame r.frame := by
  simp only [onFrameReady, onFrameReadyActs, apply_ite Prod.fst]

theorem onFrameReady_step (w : Worker) :
    FrameStep w pixels width height stride r (onFrameReady w pixels width height stride r) := by
  have hguard : (!w.clientActive || w.client.isNone || !w.encoderInitialized) = !w.serving := by
    simp only [Worker.serving]
    cases w.client <;> cases w.clientActive <;> cases w.encoderInitialized <;> rfl
  rw [onFrameReady_eq, hguard]
  cases hs : w.serving with
  | false => exact .ignored hs
  | true =>
    rw [if_neg (by decide)]
    have hdue : w.frameDue r = !decide (r.now - w.lastFrameMs < w.frameIntervalMs.toUInt64) := by
      change (w.serving && _) = _
      rw [hs, Bool.true_and]
    by_cases hlt : r.now - w.lastFrameMs < w.frameIntervalMs.toUInt64
    · rw [if_pos hlt]
      exact .throttled hs (by rw [hdue, decide_eq_true hlt]; rfl) rfl
    · rw [if_neg hlt]
      have hd : w.frameDue r = true := by rw [hdue, decide_eq_false hlt]; rfl
      cases he : encoderEncode w.encoder pixels stride r.encode with
      | mk ok enc =>
        cases ok with
        | false => exact .unsent hs hd he rfl
        | true =>
          dsimp only
          rw [if_neg (by decide)]
          split
          · exact .unsent hs hd he rfl
          · next hn =>
            have hsome := (Bool.and_eq_true_iff.1 (Bool.and_eq_true_iff.1 hs).1).2
            obtain ⟨c, hc⟩ := Option.isSome_iff_exists.1 hsome
            refine .sent hs hd hc he rfl
              ((w.frameIntervalMs * 3 + frameTarget (r.sent - r.now)) / 4) r.last ?_ hn
            rw [Worker.onPeer, hc]
            rfl

/-- The worker while the callback of a ready frame runs. -/
def Worker.finishFrame (w : Worker) (id : Nat) : Worker :=
  { w with capture := w.capture.destroyFrame id }

theorem frameReady_step (w : Worker) (id : Nat) (r : FrameTurn) :
    FrameStep (w.finishFrame id) w.capture.pixels w.capture.width w.capture.height
      w.capture.stride r (frameReady w id r) := onFrameReady_step _

theorem route_sendFrame (w : Worker) (c : Client) (f : EncodedFrame) (r : FrameSend) :
    ({ c with ctx := (rdpPeerSendFrame (w.peer c) f width height r).2.ctx } : Client).route =
      c.route := by
  obtain ⟨ok, n, out, he⟩ := rdpPeerSendFrame_shape (w.peer c) f width height r
  rw [he]
  rfl

theorem frameStep_inv (h : WorkerInv w) (hs : FrameStep w px width height stride r w') :
    WorkerInv w' := by
  cases hs with
  | ignored => exact h
  | throttled _ _ hw => exact hw ▸ h.keepClient rfl rfl rfl rfl
  | unsent _ _ _ hw => exact hw ▸ h.keepClient rfl rfl rfl rfl
  | sent _ _ hc _ hp _ _ hw =>
    obtain ⟨ok, n, out, he⟩ := rdpPeerSendFrame_shape (w.peer _) _ _ _ _
    rw [he] at hp
    subst hp hw
    exact (h.setPeer hc (.sent n)).keepClient rfl rfl rfl rfl

def Worker.Backed (w : Worker) : Prop := w.encoderInitialized = true → w.encoder.Backed

theorem frameStep_backed (h : w.Backed) (hs : FrameStep w px width height stride r w') :
    w'.Backed := by
  cases hs with
  | ignored => exact h
  | throttled _ _ hw => exact hw ▸ h
  | unsent _ _ he hw => exact hw ▸ fun hi => (encoderEncode_spec he).backed (h hi)
  | sent _ _ _ he _ _ _ hw => exact hw ▸ fun hi => (encoderEncode_spec he).backed (h hi)

/-- Every set-up of the encoder starts without a conversion buffer. -/
theorem mediaStep_backed (h : w.Backed) (hs : MediaStep w e w') : w'.Backed := by
  intro hi
  cases hs with
  | kept _ hs | rerouted hs => exact hs.encoder ▸ h (hs.encoderInitialized ▸ hi)
  | resized _ _ hs => exact (hs.encoder (hs.encoderInitialized ▸ hi)).backed
  | began r _ hs => exact hs.encoder.backed
  | left _ hs =>
    rw [hs.encoderInitialized] at hi
    cases hi
  | frameBuffer | frameBufferDone | frameFailed => exact h hi
  | frameReady id r =>
    have hd : (w.finishFrame id).Backed := h
    exact frameStep_backed hd (frameReady_step w id r) hi
  | exited =>
    change w.encoderInitialized = true at hi
    simp only [Wlrdp.cleanup]
    rw [if_pos hi]
    exact fun hn => absurd rfl hn

theorem onClient_cases {P : Worker → Prop} {f : Client → Worker} (h : P w)
    (hf : ∀ c, w.client = some c → P (f c)) : P (w.onClient f) := by
  simp only [Worker.onClient]
  cases hc : w.client with
  | none => exact h
  | some c => exact hf c hc

theorem step_sound (h : WorkerInv w) (he : w.enabled e) : Sound w e (w.step e) := by
  obtain ⟨hx, ha⟩ := he
  have hpeer : ∀ f : Peer → Peer, w.quiet e = true → (∀ p, SameGfx p (f p)) →
      Sound w e (w.onPeer f) := by
    intro f hq hf
    simp only [Worker.onPeer]
    cases hc : w.client with
    | none => exact sound_refl h hq
    | some c => exact ⟨h.setPeer hc (.same (hf _) rfl), onPeer_media hq hc (hf _)⟩
  have hclient : ∀ f : Client → Worker, e.capturing = false →
      (∀ ms r, e ≠ .dispMonitorLayout ms r) → (∀ c, w.client = some c → Sound w e (f c)) →
        Sound w e (w.onClient f) := by
    intro f hn hq hf
    simp only [Worker.onClient]
    cases hc : w.client with
    | none => exact sound_refl h (quiet_of_idle hc hn hq)
    | some c => exact hf c hc
  cases e with
  | peerAccepted r => exact onPeerAccepted_sound h hx
  | ipcMessage msg r => exact acceptIpcClient_sound h hx
  | settings s =>
    apply hclient _ rfl (fun _ _ => Event.noConfusion)
    intro c hc
    refine ⟨?_, .rerouted ⟨rfl, rfl, rfl, rfl, rfl, rfl, rfl, rfl⟩
      (rdpPeerGetSendMode c.ctx, s.nscodec) ?_ fun _ => rfl⟩
    · refine h.keep (fun _ hc' => ?_) ?_ rfl rfl rfl
      · cases hc'
        exact ⟨c, hc, .settings s⟩
      · rw [hc]
        rfl
    · rw [Worker.reroutes, hc]
      rfl
  | postConnect r =>
    apply hclient _ rfl (fun _ _ => Event.noConfusion)
    intro c hc
    apply postConnect_sound h hc
    simp only [Worker.admits, hc, Option.any_some, Bool.and_eq_true] at ha
    simpa using ha.1
  | activate r =>
    apply hclient _ rfl (fun _ _ => Event.noConfusion)
    intro c hc
    apply onActivate_sound h hc
    simpa [Worker.admits, hc] using ha
  | desktopResize r =>
    apply hclient _ rfl (fun _ _ => Event.noConfusion)
    intro c hc
    apply onPeerResize_sound h rfl
    rw [Worker.resizeTarget, hc]
    rfl
  | remoteMonitors ms r =>
    apply hclient _ rfl (fun _ _ => Event.noConfusion)
    intro c hc
    simp only [onRemoteMonitors]
    cases ms with
    | nil => exact sound_refl h rfl
    | cons m ms =>
      apply onPeerResize_sound h rfl
      rw [Worker.resizeTarget, hc]
      rfl
  | dispMonitorLayout ms r =>
    change Sound w _ (onDispMonitorLayout w ms r)
    simp only [onDispMonitorLayout]
    cases ms with
    | nil => exact sound_refl h rfl
    | cons m ms => exact onPeerResize_sound h rfl rfl
  | capsAdvertise caps r =>
    apply hclient _ rfl (fun _ _ => Event.noConfusion)
    intro c hc
    apply capsAdvertise_sound h hx hc
    simpa [Worker.admits, hc] using ha
  | rdpsndActivated formats => exact hpeer _ rfl fun p => onRdpsndActivated_sameGfx p formats
  | audioData n ok =>
    change Sound w _ (onAudioData w n ok)
    simp only [onAudioData]
    split
    · exact sound_refl h rfl
    · exact hpeer _ rfl fun p => rdpPeerSendAudio_sameGfx p n ok
  | wlClipboardChanged =>
    change Sound w _ (onWlClipboardChanged w)
    simp only [onWlClipboardChanged]
    split
    · exact sound_refl h rfl
    split
    · exact sound_refl h rfl
    refine ⟨h.keepClient rfl rfl rfl rfl, .kept rfl ⟨rfl, rfl, rfl, rfl, rfl, rfl, rfl,
      framesOf_quiet fun o ho => ?_⟩ fun _ => rfl⟩
    rw [List.mem_singleton.1 ho]
    rfl
  | clipboardFailed => exact ⟨h.keepClient rfl rfl rfl rfl,
      .kept rfl ⟨rfl, rfl, rfl, rfl, rfl, rfl, rfl, rfl⟩ fun _ => rfl⟩
  | checkFailed => exact disconnectClient_sound h hx rfl
  | updateClient =>
    apply hclient _ rfl (fun _ _ => Event.noConfusion)
    intro c hc
    simp only [epollAddVcm]
    split
    · exact sound_refl h rfl
    · exact ⟨h.keepClient rfl rfl rfl rfl,
        .kept rfl ⟨rfl, rfl, rfl, rfl, rfl, rfl, rfl, rfl⟩ fun _ => rfl⟩
  | checkVcm r =>
    apply hclient _ rfl (fun _ _ => Event.noConfusion)
    intro c hc
    exact checkVcm_sound h hx hc
  | startCapture r =>
    apply hclient _ rfl (fun _ _ => Event.noConfusion)
    intro c hc
    exact startCapture_sound h hc
  | frameBuffer id a b s r => exact ⟨h.keepClient rfl rfl rfl rfl, .frameBuffer ..⟩
  | frameBufferDone id => exact ⟨h.keepClient rfl rfl rfl rfl, .frameBufferDone _⟩
  | frameReady id r =>
    have hd : WorkerInv (w.finishFrame id) := h.keepClient rfl rfl rfl rfl
    exact ⟨frameStep_inv hd (frameReady_step w id r), .frameReady ..⟩
  | frameFailed id => exact ⟨h.keepClient rfl rfl rfl rfl, .frameFailed _⟩
  | signal => exact ⟨h.keepClient rfl rfl rfl rfl,
      .kept rfl ⟨rfl, rfl, rfl, rfl, rfl, rfl, rfl, rfl⟩ fun _ => rfl⟩
  | cleanup => exact ⟨⟨fun _ hc => (by cases hc), h.active, fun hx' => (by cases hx')⟩, .exited⟩

theorem workerInv_step (w : Worker) (e : Event) (h : WorkerInv w) (he : worker.enabled w e) :
    WorkerInv (worker.step w e) := (step_sound h he).inv

end Wlrdp
