import Wlrdp.CodecAgreement
import Wlrdp.SurfaceLifecycle

namespace Wlrdp
set_option autoImplicit true

/-! ### What the client has received -/

/-- The codec describes a picture by its difference from the one before. -/
def Codec.predictive : Codec → Bool
  | .avc420 | .avc444 | .avc444v2 | .caprogressive => true
  | .nscodec | .none => false

/-- What a surface command carries to the decoder. -/
structure CommandBody where
  codecId : Codec
  data : Option Bitstream
  length : UInt32
  extra : CommandExtra
deriving DecidableEq

def SurfaceCommand.body (cmd : SurfaceCommand) : CommandBody :=
  ⟨cmd.codecId, cmd.data, cmd.length, cmd.extra⟩

def EncodedFrame.avc444Extra (f : EncodedFrame) : CommandExtra :=
  .avc444 (4 + f.metablock.numRegionRects * 10 + f.len) f.avc444Lc f.metablock f.len
    f.auxMetablock f.auxLen

/-- A frame as it is packed for a codec. -/
def EncodedFrame.body (f : EncodedFrame) : Codec → CommandBody
  | .avc420 => ⟨.avc420, f.data, f.len, .avc420 f.metablock f.len⟩
  | .avc444 => ⟨.avc444, f.data, f.len + f.auxLen, f.avc444Extra⟩
  | .avc444v2 => ⟨.avc444v2, f.data, f.len + f.auxLen, f.avc444Extra⟩
  | codec => ⟨codec, f.data, f.len, .none⟩

/-- What the decoder of a surface was given: the bodies of the surface commands since the last
`CreateSurface`, and whether a frame was begun in vain. -/
structure Reception where
  bodies : List CommandBody
  broken : Bool
deriving DecidableEq

namespace Reception

def empty : Reception := ⟨[], false⟩

def hear (s : Reception) : GfxEvent → Reception
  | .pdu (.createSurface _ _ _) _ => .empty
  | .pdu (.startFrame _) ok => { s with broken := s.broken || !ok }
  | .pdu (.surfaceCommand cmd) true => { s with bodies := s.bodies ++ [cmd.body] }
  | .pdu (.surfaceCommand _) false => { s with broken := true }
  | _ => s

end Reception

def Worker.reception (w : Worker) : Reception :=
  (gfxSaid w.out).foldl Reception.hear .empty

/-! ### What the encoder has produced -/

/-- What `encoder_encode` hands over: nothing if it fails or if both of its buffers are empty. -/
def Encoder.produces (enc : Encoder) (pixels : Option UInt32) (stride : UInt32) (r : CodecRun) :
    Option EncodedFrame :=
  let (ok, enc) := encoderEncode enc pixels stride r
  if !ok then none else if enc.outLen = 0 ∧ enc.auxLen = 0 then none else some enc.frame

def Worker.produces (w : Worker) : Event → Option EncodedFrame
  | .frameReady _ r =>
    if w.frameDue r then w.encoder.produces w.capture.pixels w.capture.stride r.encode else none
  | _ => none

/-- A session with the frames that its encoder has produced since `encoder_init`. -/
structure Recording where
  worker : Worker
  frames : List EncodedFrame

def recording : System Recording Event where
  enabled s e := worker.enabled s.worker e
  step s e := ⟨s.worker.step e,
    if s.worker.initialises e then [] else s.frames ++ (s.worker.produces e).toList⟩

def Recording.start (standalone clipboard audio : Bool) (width height : UInt32) : Recording :=
  ⟨.start standalone clipboard audio width height, []⟩

/-- The AVC420 compressor lists the regions that changed, and compresses nothing without one. -/
def Worker.listsRegions (w : Worker) : Event → Bool
  | .frameReady _ r =>
    w.encoder.codec ≠ .avc420 || r.encode.metablock.numRegionRects ≠ 0 || r.encode.outLen = 0
  | _ => true

/-- The client lacks a frame exactly when one was begun in vain, and has the others in order. -/
structure Reception.Follows (s : Reception) (codec : Codec) (frames : List EncodedFrame) :
    Prop where
  sublist : s.bodies.Sublist (frames.map (·.body codec))
  whole : s.broken = false ↔ s.bodies.length = frames.length

/-! ### Hearing -/

section
variable {s : Reception} {codec : Codec} {frames : List EncodedFrame} {w w' : Worker}

theorem Reception.Follows.start (codec : Codec) : Reception.empty.Follows codec [] :=
  ⟨.slnil, iff_of_true rfl rfl⟩

/-- A decoder that lacks nothing has every frame. -/
theorem Reception.Follows.whole_iff (h : s.Follows codec frames) :
    s.broken = false ↔ s.bodies = frames.map (·.body codec) := by
  rw [h.whole]
  constructor
  · intro hlength
    apply h.sublist.eq_of_length
    rw [hlength, List.length_map]
  · intro heq
    rw [heq, List.length_map]

theorem hear_surface (s : Reception) (width height : UInt32) (r : SurfaceSetup) :
    (r.said width height).foldl Reception.hear s = .empty := by
  simp only [SurfaceSetup.said]
  cases r.createSurface with
  | false => rfl
  | true => rfl

/-- One frame on the wire reaches the decoder or leaves a gap. -/
theorem hear_frame (s : Reception) (k : UInt32) (cmd : SurfaceCommand) (r : FrameSend) :
    (r.said k cmd).foldl Reception.hear s =
      if r.startFrame && r.surfaceCommand then { s with bodies := s.bodies ++ [cmd.body] }
      else { s with broken := true } := by
  simp only [FrameSend.said]
  cases r.startFrame with
  | false => simp only [List.foldl_cons, List.foldl_nil, Reception.hear, Bool.not_false,
      Bool.or_true, Bool.false_eq_true, if_false, Bool.false_and]
  | true =>
    cases r.surfaceCommand with
    | false => rfl
    | true =>
      have hbegun : ({ s with broken := s.broken || !true } : Reception) = s := by
        rw [Bool.not_true, Bool.or_false]
      cases r.endFrame <;>
        simp only [if_true, List.foldl_cons, List.foldl_nil, Reception.hear, hbegun, Bool.and_self]

theorem Reception.Follows.frame (h : s.Follows codec frames) (hcmd : cmd.body = f.body codec)
    (k : UInt32) (r : FrameSend) :
    ((r.said k cmd).foldl Reception.hear s).Follows codec (frames ++ [f]) := by
  rw [hear_frame]
  cases hr : r.startFrame && r.surfaceCommand with
  | true =>
    rw [if_pos rfl]
    constructor
    · rw [List.map_append, hcmd]
      exact h.sublist.append_right _
    · rw [List.length_append, List.length_append]
      exact h.whole.trans (Nat.add_right_cancel_iff (n := 1)).symm
  | false =>
    rw [if_neg Bool.false_ne_true]
    constructor
    · rw [List.map_append]
      exact h.sublist.trans (List.sublist_append_left ..)
    · have hle := h.sublist.length_le
      rw [List.length_map] at hle
      rw [List.length_append, List.length_singleton]
      exact iff_of_false Bool.noConfusion (Nat.ne_of_lt (Nat.lt_succ_of_le hle))

theorem reception_carries (hout : w'.out = p'.out) (hbefore : p.out = w.out) (h : Says p p' said) :
    w'.reception = said.foldl Reception.hear w.reception := by
  obtain ⟨new, hnew, rfl⟩ := h
  rw [Worker.reception, hout, hnew, hbefore, gfxSaid_append, List.foldl_append]
  rfl

theorem reception_quiet (hout : w'.out = w.out ++ new) (hnew : gfxSaid new = []) :
    w'.reception = w.reception := by
  rw [Worker.reception, hout, gfxSaid_append, hnew, List.append_nil]
  rfl

end

/-! ### Handlers that send no frame -/

/-- The decoder of a client whose pipeline is ready has been given nothing yet. -/
def Worker.Blank (w : Worker) : Prop :=
  ∀ c, w.client = some c → c.ctx.gfxReady = true → w.reception = .empty

/-- What becomes of the decoder in a handler that neither resizes nor sends: nothing, or there is
a new one and no encoder yet. -/
inductive Heard (w w' : Worker) : Prop
  | kept (hr : w'.reception = w.reception)
      (hc : ∀ c', w'.client = some c' → c'.ctx.gfxReady = true →
        ∃ c, w.client = some c ∧ c.ctx.gfxReady = true)
      (hi : w'.encoderInitialized = false → w.encoderInitialized = false)
  | blank (h : w'.Blank) (hi : w'.encoderInitialized = false)

variable {w w' : Worker} {c : Client} {e : Event} {enc enc' : Encoder} {run : CodecRun}

theorem Heard.toBlank (h : Heard w w') (hb : w.Blank) : w'.Blank := by
  cases h with
  | blank h => exact h
  | kept hr hc =>
    intro c' hc' hready
    obtain ⟨c, hcl, hready⟩ := hc c' hc' hready
    exact hr.trans (hb c hcl hready)

theorem Heard.refl (w : Worker) : Heard w w := .kept rfl (fun c hc hr => ⟨c, hc, hr⟩) id

/-- Nothing is said on the graphics channel, and the client stays as it is. -/
theorem Heard.aside (hout : w'.out = w.out ++ new) (hnew : gfxSaid new = [])
    (hc : w'.client = w.client) (hi : w'.encoderInitialized = w.encoderInitialized) :
    Heard w w' :=
  .kept (reception_quiet hout hnew) (fun c hc' hr => ⟨c, hc ▸ hc', hr⟩) (fun h => hi ▸ h)

theorem Heard.silent (hout : w'.out = w.out) (hc : w'.client = w.client)
    (hi : w'.encoderInitialized = w.encoderInitialized) : Heard w w' :=
  .aside (hout.trans (List.append_nil _).symm) rfl hc hi

theorem Heard.setPeer {c c' : Client} (hc : w.client = some c) (hs : Says (w.peer c) p said)
    (hsaid : said.foldl Reception.hear w.reception = w.reception)
    (hr : p.ctx.gfxReady = true → c.ctx.gfxReady = true) : Heard w (w.setPeer c' p) := by
  refine .kept ((reception_carries rfl rfl hs).trans hsaid) (fun _ hcl hready => ?_) id
  cases hcl
  exact ⟨c, hc, hr hready⟩

theorem disconnectClient_blank (w : Worker) : (disconnectClient w).Blank := fun _ hc => by cases hc

theorem attachClient_blank (hb : w.Blank) : (attachClient w r).Blank := by
  rw [attachClient]
  split
  · exact hb
  · dsimp only
    split
    · exact hb
    · intro c hc hr
      cases hc
      cases hr

theorem Heard.attached (hc : w.client = none) : Heard w (attachClient w r) := by
  have hmedia := attachClient_media w r
  have hout : (attachClient w r).out = w.out := by
    rw [attachClient]
    split
    · rfl
    · dsimp only
      split <;> rfl
  refine .kept (congrArg (fun out => (gfxSaid out).foldl Reception.hear .empty) hout) ?_ ?_
  · intro c' hc' hr
    rw [attachClient] at hc'
    split at hc'
    · rw [hc] at hc'
      cases hc'
    · dsimp only at hc'
      split at hc'
      · change w.client = some c' at hc'
        rw [hc] at hc'
        cases hc'
      · cases hc'
        cases hr
  · intro hi
    exact hmedia.encoderInitialized ▸ hi

/-- After an advertisement the surface is the one that was there, or a new one. -/
theorem capsAdvertise_heard (h : WorkerInv w) (hx : w.exited = false) (hc : w.client = some c)
    (ho : c.ctx.gfxOpened = true) :
    Heard w (w.setPeer c (gfxCapsAdvertise (w.peer c) caps r)) := by
  have hs := gfxCapsAdvertise_step (w.peer c) caps r
  have htells := gfxCapsAdvertise_tells (w.peer c) caps r
  have hidle : (w.peer c).ctx.gfxSurfaceId = 0 → w.encoderInitialized = false := by
    intro hid
    cases hi : w.encoderInitialized with
    | false => rfl
    | true =>
      obtain ⟨c₁, hc₁, hset⟩ := h.settled hx hi
      cases hc.symm.trans hc₁
      exact absurd hid ((h.client c hc).ready ho hset).2
  simp only [capsSaid] at htells
  generalize gfxCapsAdvertise (w.peer c) caps r = p' at hs htells
  have hnew : r.capsConfirm = true → (w.peer c).ctx.gfxSurfaceId = 0 →
      Heard w (w.setPeer c p') := by
    intro hconfirm hid
    rw [hconfirm, if_pos ⟨rfl, hid⟩] at htells
    refine .blank (fun _ _ _ => ?_) (hidle hid)
    have hheard : (w.setPeer c p').reception = _ := reception_carries rfl rfl htells
    rw [List.foldl_cons, hear_surface] at hheard
    exact hheard
  cases hs with
  | unconfirmed hconfirm =>
    rw [hconfirm, if_neg (fun h => Bool.false_ne_true h.1)] at htells
    exact .setPeer hc htells rfl id
  | kept hconfirm _ _ hid =>
    rw [hconfirm, if_neg (fun h => hid h.2)] at htells
    exact .setPeer hc htells rfl id
  | created hconfirm _ _ _ hid => exact hnew hconfirm hid
  | fallback hconfirm _ _ _ hid => exact hnew hconfirm hid

theorem check_heard {p' : Peer} (h : WorkerInv w) (hc : w.client = some c)
    (hs : CheckStep (w.peer c) r ok p') : Heard w (w.setPeer c p') := by
  obtain ⟨htells, _⟩ := check_follows (h.client c hc).gfx hs
  apply Heard.setPeer hc htells rfl
  cases hs with
  | settled => exact id
  | handshaking => exact id
  | fallback _ _ _ _ hp =>
    intro hr
    rw [(cleaned_of_eq hp).gfxReady] at hr
    cases hr
  | opened =>
    intro hr
    rw [(openChannels_sameGfx _ r).gfxReady, gfxOpen_ready] at hr
    exact hr

/-- A change of size gives the client a new surface. -/
theorem onPeerResize_blank (h : ∀ c, w.client = some c → GfxInv c.ctx)
    (hs : w.sameSize width height = false) : (onPeerResize w width height scale r).Blank := by
  have hto : (w.resizeTo (roundUp16 width) (roundUp16 height) scale r).Blank := by
    simp only [Worker.resizeTo, Worker.onPeer]
    dsimp only [Worker.emit]
    cases hc : w.client with
    | none => intro _ hc' _; cases hc'
    | some c =>
      intro _ hc' hready
      cases hc'
      let p := (w.emit (.wlrRandr (roundUp16 width) (roundUp16 height) scale r.wlrRandr)).peer c
      have hgfx : GfxInv p.ctx := h c hc
      have hr : p.ctx.gfxReady = true := by
        rw [← (rdpPeerUpdateSize_shape hgfx (roundUp16 width) (roundUp16 height)
          r.surface).1.gfxReady]
        exact hready
      have hsome := (hgfx.surface_ready hr).1
      have htells := updateSize_ready (p := p) (by rw [hr, hsome]; rfl) (roundUp16 width)
        (roundUp16 height) r.surface
      exact (reception_carries (w := w.emit _) rfl rfl htells).trans (hear_surface ..)
  rw [onPeerResize_eq hs]
  dsimp only
  split
  · exact hto
  · exact hto

/-- The size that the event asks for is the one that the desktop has. -/
theorem sameSize_of_target (hz : w.resizes e = false)
    (ht : w.resizeTarget e = some (width, height)) : w.sameSize width height = true := by
  rw [Worker.resizes, ht, Option.any_some] at hz
  simpa using hz

theorem onPeerResize_heard (hz : w.resizes e = false)
    (ht : w.resizeTarget e = some (width, height)) :
    Heard w (onPeerResize w width height scale r) := by
  rw [onPeerResize_same (sameSize_of_target hz ht)]
  exact .refl w

theorem onActivate_heard (hc : w.client = some c) (hz : w.resizes (.activate r) = false) :
    Heard w (onActivate w c r) := by
  have hactive : Heard w (w.setPeer c { w.peer c with ctx.activated := true }) :=
    .setPeer hc (.of_out rfl) rfl id
  simp only [onActivate]
  split
  · next hsize =>
    have ht : w.resizeTarget (.activate r) =
        some (c.settings.desktopWidth, c.settings.desktopHeight) := by
      rw [Worker.resizeTarget, hc, Option.bind_some, if_pos hsize]
    have hsize := sameSize_of_target hz ht
    have hsame : Worker.sameSize { w with client := some { c with ctx.activated := true } }
        c.settings.desktopWidth c.settings.desktopHeight = true := hsize
    rw [onPeerResize_same hsame]
    exact hactive
  · exact hactive

theorem startCapture_heard (w : Worker) (c : Client) (r : ActivationTurn)
    (hi : w.encoderInitialized = w.clientActive) : Heard w (startCapture w c r) := by
  rw [startCapture_eq, beginCaptureIf]
  split
  · next hb =>
    have hidle : w.clientActive = false := by
      simpa using (Bool.and_eq_true_iff.1 hb).2
    exact .kept rfl (fun c hc hr => ⟨c, hc, hr⟩) fun _ => hi.trans hidle
  · exact .refl w

/-- Every handler but those of frames and changes of size. -/
theorem step_heard (h : WorkerInv w) (he : w.enabled e) (hz : w.resizes e = false)
    (hf : ∀ id r, e ≠ .frameReady id r) : Heard w (w.step e) := by
  obtain ⟨hx, ha⟩ := he
  have hpeer : ∀ f : Peer → Peer, (∀ p, SameGfx p (f p) ∧ Says p (f p) []) →
      Heard w (w.onPeer f) := by
    intro f hf
    simp only [Worker.onPeer]
    cases hc : w.client with
    | none => exact .refl w
    | some c =>
      obtain ⟨hsame, hsays⟩ := hf (w.peer c)
      exact .setPeer hc hsays rfl fun hr => hsame.gfxReady ▸ hr
  cases e with
  | peerAccepted r =>
    change Heard w (onPeerAccepted w r)
    simp only [onPeerAccepted]
    split
    · exact .refl w
    · next hnone => exact .attached (by simpa using hnone)
  | ipcMessage msg r =>
    change Heard w (acceptIpcClient w msg r)
    have hleft := disconnectClient_left h hx
    unfold acceptIpcClient
    split
    · exact .silent rfl rfl rfl
    · split
      · exact .silent rfl rfl rfl
      split
      · exact .refl w
      dsimp only
      split
      · exact .blank (disconnectClient_blank w) rfl
      · refine .blank (attachClient_blank (disconnectClient_blank w)) ?_
        rw [(attachClient_media _ r).encoderInitialized]
        exact hleft.encoderInitialized
  | settings s =>
    apply onClient_cases (.refl w)
    intro c hc
    change Heard w (w.setPeer { c with settings := s } (w.peer c))
    exact .setPeer hc (.of_out rfl) rfl id
  | postConnect r =>
    apply onClient_cases (.refl w)
    intro c hc
    have hs := onPostConnect_step (w.peer c) r
    exact .setPeer hc (.of_out hs.out) rfl fun hr => hs.gfxReady ▸ hr
  | activate r => exact onClient_cases (.refl w) fun c hc => onActivate_heard hc hz
  | desktopResize r =>
    apply onClient_cases (.refl w)
    intro c hc
    exact onPeerResize_heard hz (by rw [Worker.resizeTarget, hc]; rfl)
  | remoteMonitors ms r =>
    apply onClient_cases (.refl w)
    intro c hc
    cases ms with
    | nil => exact .refl w
    | cons m ms => exact onPeerResize_heard hz (by rw [Worker.resizeTarget, hc]; rfl)
  | dispMonitorLayout ms r =>
    cases ms with
    | nil => exact .refl w
    | cons m ms => exact onPeerResize_heard hz rfl
  | capsAdvertise caps r =>
    apply onClient_cases (.refl w)
    intro c hc
    apply capsAdvertise_heard h hx hc
    simpa [Worker.admits, hc] using ha
  | rdpsndActivated formats =>
    refine hpeer _ fun p => ⟨onRdpsndActivated_sameGfx p formats, ?_⟩
    simp only [onRdpsndActivated]
    split
    · exact .refl p
    · exact ⟨_, rfl, rfl⟩
  | audioData n ok =>
    change Heard w (onAudioData w n ok)
    simp only [onAudioData]
    split
    · exact .refl w
    · refine hpeer _ fun p => ⟨rdpPeerSendAudio_sameGfx p n ok, ?_⟩
      simp only [rdpPeerSendAudio]
      split
      · exact ⟨_, rfl, rfl⟩
      · exact .refl p
  | wlClipboardChanged =>
    change Heard w (onWlClipboardChanged w)
    simp only [onWlClipboardChanged]
    split
    · exact .refl w
    split
    · exact .refl w
    · exact .aside rfl rfl rfl rfl
  | clipboardFailed => exact .silent rfl rfl rfl
  | checkFailed => exact .blank (disconnectClient_blank w) rfl
  | updateClient =>
    apply onClient_cases (.refl w)
    intro c _
    simp only [epollAddVcm]
    split
    · exact .refl w
    · exact .silent rfl rfl rfl
  | checkVcm r =>
    apply onClient_cases (.refl w)
    intro c hc
    simp only [checkVcm]
    cases hp : rdpPeerCheckVcm (w.peer c) r with
    | mk ok p =>
      cases ok with
      | true => exact check_heard h hc (rdpPeerCheckVcm_step hp)
      | false => exact .blank (disconnectClient_blank _) rfl
  | startCapture r =>
    apply onClient_cases (.refl w)
    intro c _
    exact startCapture_heard w c r h.active.symm
  | frameBuffer | frameBufferDone | frameFailed | signal => exact .silent rfl rfl rfl
  | frameReady id r => exact absurd rfl (hf id r)
  | cleanup =>
    refine .kept (reception_quiet rfl ?_) (fun _ hc => by cases hc) id
    split <;> rfl

theorem resized_blank (h : WorkerInv w) (hz : w.resizes e = true) : (w.step e).Blank := by
  have hgfx : ∀ c, w.client = some c → GfxInv c.ctx := fun c hc => (h.client c hc).gfx
  obtain ⟨⟨width, height⟩, ht, hne⟩ := (Option.any_eq_true ..).1 hz
  have hsize : w.sameSize width height = false := by simpa using hne
  cases e with
  | activate r =>
    obtain ⟨c, hc, ht⟩ := Option.bind_eq_some_iff.1 ht
    split at ht
    · next hdiffers =>
      cases ht
      have hstep : w.step (.activate r) = onPeerResize
          { w with client := some { c with ctx.activated := true } } c.settings.desktopWidth
          c.settings.desktopHeight (getDesktopScale c.settings) r := by
        rw [Worker.step, Worker.onClient, hc]
        exact if_pos hdiffers
      rw [hstep]
      refine onPeerResize_blank (fun _ hc' => ?_) hsize
      cases hc'
      have hinv := hgfx c hc
      exact ⟨hinv.ready, hinv.opened, hinv.context, hinv.surface⟩
    · cases ht
  | desktopResize r =>
    obtain ⟨c, hc, ht⟩ := Option.map_eq_some_iff.1 ht
    cases ht
    rw [Worker.step, Worker.onClient, hc]
    exact onPeerResize_blank hgfx hsize
  | remoteMonitors ms r =>
    cases ms with
    | nil => cases ht
    | cons m ms =>
      obtain ⟨c, hc, ht⟩ := Option.map_eq_some_iff.1 ht
      cases ht
      rw [Worker.step, Worker.onClient, hc]
      exact onPeerResize_blank hgfx hsize
  | dispMonitorLayout ms r =>
    cases ms with
    | nil => cases ht
    | cons m ms =>
      cases ht
      exact onPeerResize_blank hgfx hsize
  | _ => cases ht

/-! ### Frames -/

theorem sendGfxFrame_carries (p : Peer) (codecId : Codec) (data : Option Bitstream)
    (extra : CommandExtra) (len width height : UInt32) (r : FrameSend) :
    ∃ cmd, cmd.body = ⟨codecId, data, len, extra⟩ ∧
      Says p (sendGfxFrame p codecId data extra len width height r).2
        (r.said (p.ctx.gfxFrameId + 1) cmd) := by
  let cmd : SurfaceCommand :=
    { surfaceId := p.ctx.gfxSurfaceId, codecId := codecId, format := p.ctx.pixelFormat
      right := width, bottom := height, length := len, data := data, extra := extra }
  let p₀ : Peer := { p with ctx.gfxFrameId := p.ctx.gfxFrameId + 1 }
  have hstart (ok : Bool) : Says p (p₀.gfxPdu (.startFrame p₀.ctx.gfxFrameId) ok)
      [.pdu (.startFrame (p.ctx.gfxFrameId + 1)) ok] := ⟨_, rfl, rfl⟩
  have hcmd (ok : Bool) := (hstart true).trans (.pdu _ (.surfaceCommand cmd) ok)
  refine ⟨cmd, rfl, ?_⟩
  simp only [sendGfxFrame, FrameSend.said]
  cases r.startFrame with
  | false => exact hstart false
  | true =>
    cases r.surfaceCommand with
    | false => exact hcmd false
    | true => exact (hcmd true).trans (.pdu _ (.endFrame p₀.ctx.gfxFrameId) r.endFrame)

/-- What a codec has to do with a frame for it to be sent. -/
def EncodedFrame.sendable (f : EncodedFrame) : Codec → Bool
  | .avc420 => f.metablock.numRegionRects ≠ 0 && f.len ≠ 0
  | .avc444 | .avc444v2 => f.len ≠ 0 || f.auxLen ≠ 0
  | .caprogressive => f.data.isSome && f.len ≠ 0
  | _ => true

/-- The frame of a codec that the path announces goes out in one surface command. -/
theorem rdpPeerSendFrame_carries {p : Peer} (hready : p.ctx.gfxReady = true)
    (hcodec : announcedCodec (p.ctx.sendMode, nscodec) = codec) (hp : codec.predictive = true)
    (hf : f.sendable codec = true) (width height : UInt32) (r : FrameSend) :
    ∃ cmd, cmd.body = f.body codec ∧
      Says p (rdpPeerSendFrame p f width height r).2 (r.said (p.ctx.gfxFrameId + 1) cmd) := by
  rw [rdpPeerSendFrame, if_pos hready]
  subst hcodec
  cases hm : p.ctx.sendMode with
  | surfaceBits =>
    rw [hm] at hp
    cases nscodec <;> cases hp
  | gfxAvc420 =>
    rw [hm] at hf
    have hsend : ¬ (f.metablock.numRegionRects = 0 ∨ f.len = 0) := by
      simpa [EncodedFrame.sendable, announcedCodec] using hf
    simp only [sendGfxAvc420, if_neg hsend]
    exact sendGfxFrame_carries p .avc420 f.data (.avc420 f.metablock f.len) f.len width height r
  | gfxAvc444 =>
    rw [hm] at hf
    have hsend : ¬ (f.len = 0 ∧ f.auxLen = 0) := by
      simpa [EncodedFrame.sendable, announcedCodec, Decidable.imp_iff_not_or] using hf
    simp only [sendGfxAvc444, if_neg hsend]
    exact sendGfxFrame_carries p .avc444 f.data f.avc444Extra (f.len + f.auxLen) width height r
  | gfxAvc444v2 =>
    rw [hm] at hf
    have hsend : ¬ (f.len = 0 ∧ f.auxLen = 0) := by
      simpa [EncodedFrame.sendable, announcedCodec, Decidable.imp_iff_not_or] using hf
    simp only [sendGfxAvc444, if_neg hsend]
    exact sendGfxFrame_carries p .avc444v2 f.data f.avc444Extra (f.len + f.auxLen) width height r
  | gfxProgressive =>
    rw [hm] at hf
    have hsend : ¬ (f.data = none ∨ f.len = 0) := by
      simpa [EncodedFrame.sendable, announcedCodec, Option.isSome_iff_ne_none] using hf
    simp only [sendGfxProgressive, if_neg hsend]
    exact sendGfxFrame_carries p .caprogressive f.data .none f.len width height r

theorem produces_eq (h : enc.produces pixels stride run = some f) :
    ∃ enc', encoderEncode enc pixels stride run = (true, enc') ∧ enc'.frame = f ∧
      ¬ (enc'.outLen = 0 ∧ enc'.auxLen = 0) := by
  rw [Encoder.produces] at h
  cases he : encoderEncode enc pixels stride run with
  | mk ok enc' =>
    rw [he] at h
    cases ok with
    | false => cases h
    | true =>
      dsimp only at h
      rw [if_neg (by decide)] at h
      split at h
      · cases h
      · next hsome => exact ⟨enc', rfl, Option.some.inj h, hsome⟩

/-- An AVC420 encoder has no second buffer and takes the metablock of the compressor. -/
theorem h264Encode_avc420 (hv : enc.avc444Version = 0)
    (he : h264Encode enc pixels stride run = (true, enc')) :
    enc'.auxLen = 0 ∧ enc'.outLen = run.outLen ∧ enc'.h264Meta = run.metablock := by
  have hversion := (encoderClearH264Metadata_setup enc).version.trans hv
  simp only [h264Encode] at he
  generalize encoderClearH264Metadata enc = e₁ at he hversion
  grind [Encoder.use, Encoder.read, Encoder.acquire, Encoder.obtainMetablock]

theorem progressiveEncode_frame (he : progressiveEncode enc pixels stride run = (true, enc')) :
    enc'.auxLen = 0 ∧ enc'.outBuf.isSome = true := by
  simp only [progressiveEncode] at he
  grind

theorem produces_sendable (h : enc.produces pixels stride run = some f)
    (hl : enc.codec = .avc420 → run.metablock.numRegionRects = 0 → run.outLen = 0) :
    f.sendable enc.codec = true := by
  obtain ⟨enc', he, rfl, hsome⟩ := produces_eq h
  rw [encoderEncode] at he
  simp only [Encoder.codec] at hl ⊢
  cases hm : enc.mode with
  | raw | nsac | h264Ffmpeg => rfl
  | h264Freerdp =>
    rw [hm] at he hl
    simp only [h264Codec] at hl ⊢
    by_cases hv : enc.avc444Version = 0
    · obtain ⟨haux, hout, hmeta⟩ := h264Encode_avc420 hv he
      rw [if_neg (not_not_intro hv)] at hl ⊢
      have hlen : enc'.outLen ≠ 0 := fun hz => hsome ⟨hz, haux⟩
      have hrects : enc'.h264Meta.numRegionRects ≠ 0 := by
        intro hz
        rw [hmeta] at hz
        exact hlen (hout.trans (hl rfl hz))
      simp [EncodedFrame.sendable, Encoder.frame, hlen, hrects]
    · rw [if_pos hv, avc444Codec]
      have hlen : enc'.outLen ≠ 0 ∨ enc'.auxLen ≠ 0 := by
        by_contra hz
        simp only [not_or, not_not] at hz
        exact hsome hz
      split <;> exact Bool.or_eq_true_iff.2 (hlen.imp decide_eq_true decide_eq_true)
  | progressive =>
    rw [hm] at he
    obtain ⟨haux, hbuf⟩ := progressiveEncode_frame he
    have hlen : enc'.outLen ≠ 0 := fun hz => hsome ⟨hz, haux⟩
    simp [EncodedFrame.sendable, Encoder.frame, hlen, hbuf]

/-- A predictive encoder in agreement with its path serves a pipeline that is ready. -/
theorem sync_ready (hsync : w.InSync) (hi : w.encoderInitialized = true) (hc : w.client = some c)
    (hp : w.encoder.codec.predictive = true) : c.ctx.gfxReady = true ∧
      announcedCodec (c.ctx.sendMode, c.settings.nscodec) = w.encoder.codec := by
  have hserves := hsync hi
  rw [Worker.route, hc] at hserves
  have hcodec : announcedCodec c.route = w.encoder.codec := by
    rcases Bool.or_eq_true_iff.1 hserves with hcodec | hraw
    · exact of_decide_eq_true hcodec
    · have hm : w.encoder.mode = .raw := of_decide_eq_true (Bool.and_eq_true_iff.1 hraw).2
      rw [Encoder.codec, hm] at hp
      cases hp
  have hready : c.ctx.gfxReady = true := by
    by_contra hr
    rw [Bool.not_eq_true] at hr
    rw [← hcodec, Client.route, rdpPeerGetSendMode, hr] at hp
    cases hn : c.settings.nscodec <;> rw [hn] at hp <;> cases hp
  refine ⟨hready, ?_⟩
  rw [Client.route, rdpPeerGetSendMode, hready] at hcodec
  exact hcodec

theorem frameStep_keeps (hs : FrameStep w pixels width height stride r w') :
    w'.encoderInitialized = w.encoderInitialized ∧ SameSetup w.encoder w'.encoder := by
  cases hs with
  | ignored => exact ⟨rfl, .refl _⟩
  | throttled _ _ hw => subst hw; exact ⟨rfl, .refl _⟩
  | unsent _ _ he hw => subst hw; exact ⟨rfl, (encoderEncode_spec he).setup⟩
  | sent _ _ _ he _ _ _ hw => subst hw; exact ⟨rfl, (encoderEncode_spec he).setup⟩

/-- `on_frame_ready` sends what the encoder produces, and nothing else. -/
theorem onFrameReady_carries (w : Worker) (width height : UInt32) :
    let w' := onFrameReady w pixels width height stride r
    let produced := if w.frameDue r then w.encoder.produces pixels stride r.encode else none
    (produced = none → w'.out = w.out ∧ w'.client = w.client) ∧
      ∀ f, produced = some f → ∃ c, w.client = some c ∧
        w'.out = (rdpPeerSendFrame (w.peer c) f width height r.send).2.out := by
  have hguard : (!w.clientActive || w.client.isNone || !w.encoderInitialized) = !w.serving := by
    simp only [Worker.serving]
    cases w.client <;> cases w.clientActive <;> cases w.encoderInitialized <;> rfl
  have hdue : w.frameDue r =
      (w.serving && !decide (r.now - w.lastFrameMs < w.frameIntervalMs.toUInt64)) := rfl
  rw [onFrameReady_eq, hguard, hdue]
  cases hs : w.serving with
  | false => exact ⟨fun _ => ⟨rfl, rfl⟩, fun _ hf => by cases hf⟩
  | true =>
    by_cases hlt : r.now - w.lastFrameMs < w.frameIntervalMs.toUInt64
    · simp only [if_pos hlt, decide_eq_true hlt]
      exact ⟨fun _ => ⟨rfl, rfl⟩, fun _ hf => by cases hf⟩
    simp only [if_neg hlt, decide_eq_false hlt, Encoder.produces]
    cases encoderEncode w.encoder pixels stride r.encode with
    | mk ok enc =>
      cases ok with
      | false => exact ⟨fun _ => ⟨rfl, rfl⟩, fun _ hf => by cases hf⟩
      | true =>
        by_cases hempty : enc.outLen = 0 ∧ enc.auxLen = 0
        · simp only [if_pos hempty]
          exact ⟨fun _ => ⟨rfl, rfl⟩, fun _ hf => by cases hf⟩
        · have hsome := (Bool.and_eq_true_iff.1 (Bool.and_eq_true_iff.1 hs).1).2
          obtain ⟨c, hc⟩ := Option.isSome_iff_exists.1 hsome
          simp only [if_neg hempty]
          refine ⟨fun hnone => absurd hnone (Option.some_ne_none _), fun f hf => ⟨c, hc, ?_⟩⟩
          cases hf
          simp only [Worker.onPeer, hc]
          rfl

theorem frameReady_carries (w : Worker) (id : Nat) (r : FrameTurn) :
    (w.produces (.frameReady id r) = none →
      (frameReady w id r).out = w.out ∧ (frameReady w id r).client = w.client) ∧
    ∀ f, w.produces (.frameReady id r) = some f → ∃ c, w.client = some c ∧
      (frameReady w id r).out = (rdpPeerSendFrame (w.peer c) f w.capture.width w.capture.height
        r.send).2.out :=
  onFrameReady_carries (w.finishFrame id) w.capture.width w.capture.height

theorem frameReady_encoder (w : Worker) (id : Nat) (r : FrameTurn) :
    (frameReady w id r).encoderInitialized = w.encoderInitialized ∧
      (frameReady w id r).encoder.codec = w.encoder.codec := by
  obtain ⟨hi, hs⟩ := frameStep_keeps (frameReady_step w id r)
  refine ⟨hi, ?_⟩
  unfold Encoder.codec
  rw [hs.mode, hs.version]
  rfl

/-- A frame that becomes ready reaches the decoder, or breaks the stream, or is no frame. -/
theorem frameReady_follows {id : Nat} {r : FrameTurn} {frames : List EncodedFrame}
    (h : w.reception.Follows w.encoder.codec frames) (hsync : w.InSync)
    (hi : w.encoderInitialized = true) (hp : w.encoder.codec.predictive = true)
    (hl : w.listsRegions (.frameReady id r) = true) :
    (frameReady w id r).reception.Follows w.encoder.codec
      (frames ++ (w.produces (.frameReady id r)).toList) := by
  obtain ⟨hquiet, hsent⟩ := frameReady_carries w id r
  cases hf : w.produces (.frameReady id r) with
  | none =>
    have hout := (hquiet hf).1
    rw [Option.toList_none, List.append_nil, Worker.reception, hout]
    exact h
  | some f =>
    obtain ⟨c, hc, hout⟩ := hsent f hf
    obtain ⟨hready, hcodec⟩ := sync_ready hsync hi hc hp
    have hsendable : f.sendable w.encoder.codec = true := by
      simp only [Worker.produces] at hf
      split at hf
      · apply produces_sendable hf
        intro h420 hrects
        simpa [Worker.listsRegions, h420, hrects] using hl
      · cases hf
    obtain ⟨cmd, hbody, hsays⟩ := rdpPeerSendFrame_carries (p := w.peer c) hready hcodec hp hsendable
      w.capture.width w.capture.height r.send
    rw [reception_carries hout rfl hsays, Option.toList_some]
    exact h.frame hbody _ r.send

/-! ### Whole runs -/

/-- What holds of a session and the frames of its encoder between two handlers. -/
structure Recording.Inv (s : Recording) : Prop where
  worker : WorkerInv s.worker
  codec : CodecInv s.worker
  blank : s.worker.encoderInitialized = false → s.worker.Blank
  follows : s.worker.encoderInitialized = true → s.worker.encoder.codec.predictive = true →
    s.worker.reception.Follows s.worker.encoder.codec s.frames

theorem Recording.Inv.start :
    (Recording.start standalone clipboard audio width height).Inv :=
  ⟨.start, .start, fun _ _ hc => (by cases hc), fun hi => (by cases hi)⟩

/-- Where the encoder has just been set up, nothing is missing. -/
theorem Worker.Blank.follows (hb : w.Blank) (hw : WorkerInv w) (hx : w.exited = false)
    (hsync : w.InSync) (hi : w.encoderInitialized = true)
    (hp : w.encoder.codec.predictive = true) :
    w.reception.Follows w.encoder.codec [] := by
  obtain ⟨c, hc, _⟩ := hw.settled hx hi
  rw [hb c hc (sync_ready hsync hi hc hp).1]
  exact .start _

/-- A handler that neither sets up the encoder nor runs it. -/
theorem mediaStep_codec_kept (hs : MediaStep w e w') (hf : ∀ id r, e ≠ .frameReady id r)
    (hi : w.initialises e = false) (hi' : w'.encoderInitialized = true)
    (hp : w'.encoder.codec.predictive = true) :
    w.encoderInitialized = true ∧ w'.encoder.codec = w.encoder.codec := by
  cases hs with
  | kept _ hs => exact ⟨hs.encoderInitialized ▸ hi', congrArg Encoder.codec hs.encoder⟩
  | rerouted hs => exact ⟨hs.encoderInitialized ▸ hi', congrArg Encoder.codec hs.encoder⟩
  | resized hz _ hs =>
    rw [hs.encoderInitialized] at hi'
    rw [Worker.initialises, hz, hi', Bool.and_self, Bool.or_true] at hi
    cases hi
  | began r hb =>
    rw [Worker.initialises, hb, Bool.true_or] at hi
    cases hi
  | left _ hs =>
    rw [hs.encoderInitialized] at hi'
    cases hi'
  | frameBuffer | frameBufferDone | frameFailed => exact ⟨hi', rfl⟩
  | frameReady id r => exact absurd rfl (hf id r)
  | exited =>
    have hready : w.encoderInitialized = true := hi'
    simp only [Wlrdp.cleanup, if_pos hready] at hp
    cases hp

theorem frameReady_blank {id : Nat} {r : FrameTurn} (hb : w.Blank)
    (hi : w.encoderInitialized = false) : (frameReady w id r).Blank := by
  have hnone : w.produces (.frameReady id r) = none := by
    simp [Worker.produces, Worker.frameDue, hi]
  obtain ⟨hout, hclient⟩ := (frameReady_carries w id r).1 hnone
  intro c hc hr
  rw [hclient] at hc
  have hempty := hb c hc hr
  rw [Worker.reception] at hempty ⊢
  rw [hout]
  exact hempty

theorem initialises_running (hs : MediaStep w e w') (hx : w.exited = false)
    (hi : w.initialises e = true) : w'.exited = false := by
  cases hs with
  | kept _ hs => exact hs.exited.trans hx
  | rerouted hs => exact hs.exited.trans hx
  | resized _ _ hs => exact hs.exited.trans hx
  | began _ _ hs => exact hs.exited.trans hx
  | left _ hs => exact hs.exited.trans hx
  | frameBuffer | frameBufferDone | frameReady | frameFailed => cases hi
  | exited => cases hi

/-- Every handler that sets up the encoder does so for a client with a new surface. -/
theorem initialises_blank (h : WorkerInv w) (he : w.enabled e)
    (hb : w.encoderInitialized = false → w.Blank) (hi : w.initialises e = true)
    (hf : ∀ id r, e ≠ .frameReady id r) : (w.step e).Blank := by
  cases hz : w.resizes e with
  | true => exact resized_blank h hz
  | false =>
    rw [Worker.initialises, hz, Bool.false_and, Bool.or_false] at hi
    have hidle : w.encoderInitialized = false := by
      rw [← h.active]
      cases e with
      | startCapture r => simpa using (Bool.and_eq_true_iff.1 hi).2
      | _ => cases hi
    exact (step_heard h he hz hf).toBlank (hb hidle)

theorem Recording.Inv.step {s : Recording} (h : s.Inv) (he : s.worker.enabled e)
    (hs : s.worker.codecSafe e = true) (hl : s.worker.listsRegions e = true) :
    (recording.step s e).Inv := by
  obtain ⟨hw, hm⟩ := step_sound h.worker he
  have hsync := (mediaStep_inSync h.worker he.1 h.codec hm).2 hs
  have hc := mediaStep_codec h.codec hm hsync
  by_cases hf : ∃ id r, e = .frameReady id r
  · obtain ⟨id, r, rfl⟩ := hf
    obtain ⟨hinit, hcodec⟩ := frameReady_encoder s.worker id r
    refine ⟨hw, hc, fun hi => ?_, fun hi hp => ?_⟩
    · have hidle : s.worker.encoderInitialized = false := hinit ▸ hi
      exact frameReady_blank (h.blank hidle) hidle
    · have hi' : s.worker.encoderInitialized = true := hinit ▸ hi
      have hp' : s.worker.encoder.codec.predictive = true := hcodec ▸ hp
      have hfollows := frameReady_follows (h.follows hi' hp') h.codec.sync hi' hp' hl
      rw [← hcodec] at hfollows
      exact hfollows
  have hf : ∀ (id : Nat) (r : FrameTurn), e ≠ .frameReady id r := fun id r he => hf ⟨id, r, he⟩
  have hnone : s.worker.produces e = none := by
    cases e with
    | frameReady id r => exact absurd rfl (hf id r)
    | _ => rfl
  cases hinit : s.worker.initialises e with
  | true =>
    have hblank := initialises_blank h.worker he h.blank hinit hf
    refine ⟨hw, hc, fun _ => hblank, fun hi hp => ?_⟩
    change Reception.Follows _ _ (if s.worker.initialises e then [] else _)
    rw [if_pos hinit]
    exact hblank.follows hw (initialises_running hm he.1 hinit) hsync hi hp
  | false =>
    have hheard : s.worker.resizes e = false → Heard s.worker (s.worker.step e) :=
      fun hz => step_heard h.worker he hz hf
    refine ⟨hw, hc, fun hi => ?_, fun hi hp => ?_⟩
    · cases hz : s.worker.resizes e with
      | true => exact resized_blank h.worker hz
      | false =>
        cases hheard hz with
        | blank hb => exact hb
        | kept _ _ hidle => exact (hheard hz).toBlank (h.blank (hidle hi))
    · obtain ⟨hi', hcodec⟩ := mediaStep_codec_kept hm hf hinit hi hp
      have hz : s.worker.resizes e = false := by
        simpa [Worker.initialises, hi'] using (Bool.or_eq_false_iff.1 hinit).2
      change (s.worker.step e).reception.Follows (s.worker.step e).encoder.codec
        (if s.worker.initialises e then [] else _)
      rw [if_neg (Bool.not_eq_true _ ▸ hinit), hnone, Option.toList_none, List.append_nil, hcodec]
      cases hheard hz with
      | blank _ hidle => exact absurd hi (Bool.not_eq_true _ ▸ hidle)
      | kept hr =>
        rw [hr]
        exact h.follows hi' (hcodec ▸ hp)

theorem recording_worker (w : Worker) (frames : List EncodedFrame) (es : List Event) :
    (recording.run ⟨w, frames⟩ es).worker = worker.run w es :=
  System.run_abstracts (T := worker) (I := fun _ => True) (C := fun _ _ => True)
    (fun _ _ _ _ => trivial) (fun _ _ _ _ => rfl) trivial
    (System.along_of_forall fun _ _ => trivial)

theorem recording_along {C : Worker → Event → Prop} (h : worker.Along C w es)
    (frames : List EncodedFrame) :
    recording.Along (fun s e => C s.worker e) ⟨w, frames⟩ es := by
  induction es generalizing w frames with
  | nil => trivial
  | cons e es ih => exact ⟨h.1, ih h.2 _⟩

/-- The frames that the encoder has produced since it was last set up in a run from `w`. -/
def Worker.produced (w : Worker) (es : List Event) : List EncodedFrame :=
  (recording.run ⟨w, []⟩ es).frames

/-- Two frames for a client with a graphics pipeline. -/
def streamedRun (first : FrameSend) : List Event :=
  [.peerAccepted (.accepted (.basic 16 16 true true)), .postConnect ⟨some 1, true, some 9⟩,
    .checkVcm ⟨true, .ready, ⟨some 2, true⟩, ⟨none, false⟩, ⟨none, false⟩, ⟨none, false, false⟩,
      true⟩,
    .capsAdvertise [⟨capVersion107, 0⟩] ⟨true, ⟨true, true, true⟩, true⟩, .activate .done,
    .startCapture ⟨.working, true⟩, .frameBuffer 0 16 16 64 (.working 5), .frameBufferDone 0,
    .frameReady 0 { FrameTurn.due 100 with send := first }] ++
  frameEvents 1 16 16 64 200

/-- The second frame is sent although the first, on which it rests, was lost. -/
example : (worker.run (.start true false false 16 16)
    (streamedRun ⟨true, false, true, true⟩)).reception.bodies.length = 1 := by decide

end Wlrdp
