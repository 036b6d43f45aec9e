import Wlrdp.PeerOutputs
import Wlrdp.WorkerSoundness

namespace Wlrdp
set_option autoImplicit true

/-! ### The audio channel as the client sees it -/

/-- Output about the audio channel. -/
def Output.audible : Output → Bool
  | .stored .rdpsnd _ | .selectFormat _ _ | .sendSamples _ _ _ => true
  | _ => false

/-- The context for which a format is selected, behind an output. A new context has none. -/
def Output.tunes (tuned : Option Handle) : Output → Option Handle
  | .stored .rdpsnd _ => none
  | .selectFormat context _ => context
  | _ => tuned

/-- Samples may be sent only for the context that a format is selected for. -/
def audioLine : System (Option Handle) Output where
  enabled
    | tuned, .sendSamples rdpsnd _ _ => tuned = some rdpsnd
    | _, _ => True
  step := Output.tunes

/-- The audio fields of the attached client, and the output. -/
structure AudioState where
  ready : Bool
  context : Option Handle
  out : List Output

def Peer.audio (p : Peer) : AudioState := ⟨p.ctx.rdpsndReady, p.ctx.rdpsndContext, p.out⟩

def Worker.audio (w : Worker) : AudioState :=
  match w.client with
  | none => ⟨false, none, w.out⟩
  | some c => (w.peer c).audio

/-- Nothing is heard of the audio channel, which does not become ready. -/
structure Hush (a a' : AudioState) : Prop where
  out : ∃ new, a'.out = a.out ++ new ∧ ∀ o ∈ new, o.audible = false
  ready : a'.ready = true → a.ready = true ∧ a'.context = a.context

namespace Hush

theorem silent {a a' : AudioState} (hout : a'.out = a.out)
    (hready : a'.ready = true → a.ready = true ∧ a'.context = a.context) : Hush a a' :=
  ⟨⟨[], hout.trans (List.append_nil _).symm, List.forall_mem_nil _⟩, hready⟩

theorem refl (a : AudioState) : Hush a a := silent rfl fun h => ⟨h, rfl⟩

theorem say {a a' : AudioState} (hout : a'.out = a.out ++ [o]) (ho : o.audible = false)
    (hready : a'.ready = true → a.ready = true ∧ a'.context = a.context) : Hush a a' :=
  ⟨⟨[o], hout, List.forall_mem_singleton.2 ho⟩, hready⟩

theorem trans {a b c : AudioState} (h : Hush a b) (h' : Hush b c) : Hush a c := by
  obtain ⟨new, hout, hnew⟩ := h.out
  obtain ⟨more, hout', hmore⟩ := h'.out
  refine ⟨⟨new ++ more, ?_, List.forall_mem_append.2 ⟨hnew, hmore⟩⟩, fun hready => ?_⟩
  · rw [hout', hout, List.append_assoc]
  · obtain ⟨hb, hcontext⟩ := h'.ready hready
    obtain ⟨ha, hcontext'⟩ := h.ready hb
    exact ⟨ha, hcontext.trans hcontext'⟩

end Hush

/-! ### The functions of the peer -/

theorem gfxPdu_hush (p : Peer) (pdu : GfxPdu) (ok : Bool) : Hush p.audio (p.gfxPdu pdu ok).audio :=
  .say rfl rfl fun h => ⟨h, rfl⟩

theorem gfxCreateSurface_hush (p : Peer) (w h : UInt32) (r : SurfaceSetup) :
    Hush p.audio (gfxCreateSurface p w h r).2.audio := by
  have h₁ := gfxPdu_hush p (.resetGraphics w h (w - 1) (h - 1)) r.resetGraphics
  have h₂ := h₁.trans (gfxPdu_hush _ (.createSurface 1 w.toUInt16 h.toUInt16) r.createSurface)
  have h₃ := h₂.trans (gfxPdu_hush _ (.mapSurfaceToOutput 1) r.mapSurfaceToOutput)
  simp only [gfxCreateSurface]
  split
  · exact h₂
  · split <;> exact h₃

theorem closeRdpsnd_hush (p : Peer) : Hush p.audio (closeRdpsnd p).audio := by
  simp only [closeRdpsnd]
  split
  · exact .refl _
  · exact .silent rfl fun h => absurd h Bool.false_ne_true

theorem gfxCleanup_hush (p : Peer) (d : Bool) : Hush p.audio (gfxCleanup p d).audio := by
  have hgfx : Hush p.audio (closeGfx p d).audio := by
    simp only [closeGfx]
    split
    · exact .refl _
    · refine ⟨⟨_, rfl, ?_⟩, fun h => ⟨h, rfl⟩⟩
      split
      · exact List.forall_mem_singleton.2 rfl
      · exact List.forall_mem_nil _
  obtain ⟨_, _, _, _, h₃⟩ := closeCliprdr_shape (closeRdpsnd (closeGfx p d))
  obtain ⟨_, h₄⟩ := closeDisp_shape (closeCliprdr (closeRdpsnd (closeGfx p d)))
  obtain ⟨_, h₅⟩ := closeVcm_shape (closeDisp (closeCliprdr (closeRdpsnd (closeGfx p d))))
  rw [gfxCleanup, h₅, h₄, h₃]
  exact hgfx.trans (closeRdpsnd_hush (closeGfx p d))

theorem gfxCapsAdvertise_hush (p : Peer) (caps : List CapSet) (r : CapsResult) :
    Hush p.audio (gfxCapsAdvertise p caps r).audio := by
  rw [gfxCapsAdvertise]
  cases scanCaps (isMacosClient p.settings.osMajorType) caps 0 (-1) 0 with
  | mk rank chosen =>
    have h₁ : Hush p.audio (Peer.gfxPdu { p with ctx.sendMode := modeOfRank rank }
        (.capsConfirm caps[chosen]?) r.capsConfirm).audio := .say rfl rfl fun h => ⟨h, rfl⟩
    dsimp only
    generalize Peer.gfxPdu { p with ctx.sendMode := modeOfRank rank } (.capsConfirm caps[chosen]?)
      r.capsConfirm = p₁ at h₁ ⊢
    split
    · exact h₁
    · split
      · have h₂ := h₁.trans (gfxCreateSurface_hush p₁ p₁.ctx.width p₁.ctx.height r.surface)
        cases hs : gfxCreateSurface p₁ p₁.ctx.width p₁.ctx.height r.surface with
        | mk ok p₂ =>
          rw [hs] at h₂
          cases ok with
          | true => exact h₂
          | false => exact h₂.trans (gfxCleanup_hush { p₂ with
              ctx.sendMode := .surfaceBits, ctx.bringUpFailed := true } r.deleteSurface)
      · exact h₁

theorem onPostConnect_hush (p : Peer) (r : VcmSetup) : Hush p.audio (onPostConnect p r).audio := by
  have hsame : (onPostConnect p r).audio = p.audio := by
    simp only [onPostConnect, vcmInit]
    split
    · split
      · rfl
      · split <;> rfl
    · rfl
  rw [hsame]
  exact .refl _

theorem gfxOpen_hush (p : Peer) (r : ChannelSetup) : Hush p.audio (gfxOpen p r).2.audio := by
  rw [gfxOpen]
  split
  · exact .silent rfl fun h => ⟨h, rfl⟩
  · dsimp only
    split <;> exact .say rfl rfl fun h => ⟨h, rfl⟩

theorem dispOpen_hush (p : Peer) (r : ChannelSetup) : Hush p.audio (dispOpen p r).2.audio := by
  rw [dispOpen]
  split
  · exact .refl _
  · dsimp only
    split
    · exact .silent rfl fun h => ⟨h, rfl⟩
    · exact .say rfl rfl fun h => ⟨h, rfl⟩

theorem openCliprdr_hush (p : Peer) (r : ChannelSetup) :
    Hush p.audio (openCliprdr p r).audio := by
  simp only [openCliprdr, clipboardOpenCliprdr]
  split
  · exact .refl _
  · cases r.contextNew with
    | none => exact .refl _
    | some cliprdr =>
      cases r.opens with
      | false => exact .silent rfl fun h => ⟨h, rfl⟩
      | true => exact .say rfl rfl fun h => ⟨h, rfl⟩

theorem rdpPeerUpdateSize_hush (p : Peer) (w h : UInt32) (r : SurfaceSetup) :
    Hush p.audio (rdpPeerUpdateSize p w h r).audio := by
  simp only [rdpPeerUpdateSize]
  split
  · exact gfxCreateSurface_hush { p with ctx.width := w, ctx.height := h } w h r
  · exact .silent rfl fun h => ⟨h, rfl⟩

theorem sendGfxFrame_hush (p : Peer) (r : FrameSend) :
    Hush p.audio (sendGfxFrame p codecId data extra len w h r).2.audio := by
  let p₀ : Peer := { p with ctx.gfxFrameId := p.ctx.gfxFrameId + 1 }
  have h₁ : Hush p.audio (p₀.gfxPdu (.startFrame p₀.ctx.gfxFrameId) r.startFrame).audio :=
    .say rfl rfl fun h => ⟨h, rfl⟩
  have h₂ := h₁.trans (gfxPdu_hush _ (.surfaceCommand
    { surfaceId := p.ctx.gfxSurfaceId, codecId := codecId, format := p.ctx.pixelFormat
      right := w, bottom := h, length := len, data := data, extra := extra }) r.surfaceCommand)
  simp only [sendGfxFrame]
  split
  · exact h₁
  · split
    · exact h₂
    · exact h₂.trans (gfxPdu_hush _ (.endFrame p₀.ctx.gfxFrameId) r.endFrame)

theorem rdpPeerSendFrame_hush (p : Peer) (f : EncodedFrame) (w h : UInt32) (r : FrameSend) :
    Hush p.audio (rdpPeerSendFrame p f w h r).2.audio := by
  have hbits : Hush p.audio (sendSurfaceBits p f w h r).2.audio := .say rfl rfl fun h => ⟨h, rfl⟩
  have h444 (v2 : Bool) : Hush p.audio (sendGfxAvc444 p f w h v2 r).2.audio := by
    simp only [sendGfxAvc444]
    split
    · exact .refl _
    · exact sendGfxFrame_hush p r
  simp only [rdpPeerSendFrame]
  split
  · split
    · exact h444 true
    · exact h444 false
    · simp only [sendGfxAvc420]
      split
      · exact .refl _
      · exact sendGfxFrame_hush p r
    · simp only [sendGfxProgressive]
      split
      · exact .refl _
      · exact sendGfxFrame_hush p r
    · exact hbits
  · exact hbits

/-! ### The handlers of the worker -/

variable {w w' : Worker} {e : Event} {c : Client}

/-- The step opens a context for the audio channel. -/
def Worker.opensAudio (w : Worker) : Event → Bool
  | .checkVcm r => w.client.any fun c => c.ctx.gfxVcm.isSome && !c.ctx.gfxOpened &&
      !c.ctx.gfxReady && r.checkFileDescriptor && r.drdynvcState = .ready && r.rdpsnd.ok
  | _ => false

/-- What an event does to the audio channel. -/
inductive AudioStep (w : Worker) (e : Event) : AudioState → Prop
  | hush (h : Hush w.audio a) : AudioStep w e a
  | opened (ho : w.opensAudio e = true) (h : Hush w.audio a) (rdpsnd : Handle) :
      AudioStep w e { a with
        context := some rdpsnd, out := a.out ++ [.stored .rdpsnd a.context] }
  | selected (he : e = .rdpsndActivated formats) (hf : formats[i]? = some f)
      (hc : f.compatible = true) : AudioStep w e { w.audio with
        ready := true, out := w.audio.out ++ [.selectFormat w.audio.context i] }
  | sent (hr : w.audio.ready = true) (hc : w.audio.context = some rdpsnd) (n : UInt32) (ok : Bool) :
      AudioStep w e { w.audio with out := w.audio.out ++ [.sendSamples rdpsnd n ok] }

theorem audio_out (w : Worker) : w.audio.out = w.out := by
  rw [Worker.audio]
  split <;> rfl

theorem audio_some (hc : w.client = some c) : w.audio = (w.peer c).audio := by
  rw [Worker.audio, hc]

/-- Handlers that do not touch the peer. -/
theorem Hush.aside (hc : w'.client = w.client) (ho : w'.out = w.out) : Hush w.audio w'.audio := by
  have hsame : w'.audio = w.audio := by
    rw [Worker.audio, Worker.audio, hc]
    cases w.client with
    | none => rw [ho]
    | some c => simp only [Worker.peer, Peer.audio, ho]
  rw [hsame]
  exact .refl _

theorem Hush.emit (w : Worker) (ho : o.audible = false) : Hush w.audio (w.emit o).audio := by
  cases hc : w.client with
  | none =>
    have hc' : (w.emit o).client = none := hc
    rw [Worker.audio, Worker.audio, hc, hc']
    exact .say rfl ho fun h => ⟨h, rfl⟩
  | some c =>
    have hc' : (w.emit o).client = some c := hc
    rw [audio_some hc, audio_some hc']
    exact .say rfl ho fun h => ⟨h, rfl⟩

theorem Hush.setPeer (hc : w.client = some c) (h : Hush (w.peer c).audio p.audio)
    (c' : Client) : Hush w.audio (w.setPeer c' p).audio := by
  rw [audio_some hc]
  exact h

theorem Hush.onPeer (w : Worker) {f : Peer → Peer} (hf : ∀ p, Hush p.audio (f p).audio) :
    Hush w.audio (w.onPeer f).audio := by
  simp only [Worker.onPeer]
  cases hc : w.client with
  | none => exact .refl _
  | some c => exact .setPeer hc (hf _) c

/-- The client is gone, and the session may report its status. -/
theorem Hush.left (hc : w'.client = none)
    (ho : w'.out = w.out ++ if w.standalone then [] else [Output.status st]) :
    Hush w.audio w'.audio := by
  have hgone : w'.audio = ⟨false, none, w'.out⟩ := by rw [Worker.audio, hc]
  rw [hgone]
  refine ⟨⟨_, (audio_out w).symm ▸ ho, ?_⟩, fun h => absurd h Bool.false_ne_true⟩
  split
  · exact List.forall_mem_nil _
  · exact List.forall_mem_singleton.2 rfl

theorem disconnectClient_hush (w : Worker) : Hush w.audio (disconnectClient w).audio :=
  .left rfl rfl

theorem attachClient_hush (w : Worker) (r : AttachTurn) :
    Hush w.audio (attachClient w r).audio := by
  simp only [attachClient]
  split
  · exact .refl _
  · split
    · exact .aside rfl rfl
    · exact .silent (audio_out w).symm fun h => absurd h Bool.false_ne_true

theorem onPeerResize_hush (w : Worker) (width height scale : UInt32) (r : ResizeTurn) :
    Hush w.audio (onPeerResize w width height scale r).audio := by
  cases hs : w.sameSize width height with
  | true =>
    rw [onPeerResize_same hs]
    exact .refl _
  | false =>
    have hto : Hush w.audio (w.resizeTo (roundUp16 width) (roundUp16 height) scale r).audio := by
      have hemit : Hush w.audio
          (w.emit (.wlrRandr (roundUp16 width) (roundUp16 height) scale r.wlrRandr)).audio :=
        .emit w rfl
      have hsized := hemit.trans (.onPeer { w.emit (.wlrRandr (roundUp16 width) (roundUp16 height)
        scale r.wlrRandr) with width := roundUp16 width, height := roundUp16 height } fun p =>
          rdpPeerUpdateSize_hush p (roundUp16 width) (roundUp16 height) r.surface)
      exact hsized
    rw [onPeerResize_eq hs]
    dsimp only
    split
    · exact hto.trans (.aside rfl rfl)
    · exact hto

theorem frame_hush (h : FrameStep w px width height stride r w') : Hush w.audio w'.audio := by
  cases h with
  | ignored => exact .refl _
  | throttled _ _ hw =>
    subst hw
    exact .aside rfl rfl
  | unsent _ _ _ hw =>
    subst hw
    exact .aside rfl rfl
  | @sent c enc p _ _ _ hc _ hp _ _ hw =>
    subst hw hp
    exact .setPeer hc (rdpPeerSendFrame_hush (w.peer c) enc.frame width height r.send) c

theorem startCapture_hush (w : Worker) (c : Client) (r : ActivationTurn) :
    Hush w.audio (startCapture w c r).audio := by
  rw [startCapture_eq, beginCaptureIf]
  split
  · exact .aside rfl rfl
  · exact .refl _

/-- The opening block makes a context for the audio channel if all goes well with it. -/
theorem openChannels_audio (hc : w.client = some c)
    (ho : r.rdpsnd.ok = true → w.opensAudio (.checkVcm r) = true) :
    AudioStep w (.checkVcm r) (openChannels (w.peer c) r).audio := by
  have hbefore := ((gfxOpen_hush (w.peer c) r.gfx).trans (dispOpen_hush _ r.disp)).trans
    (openCliprdr_hush _ r.cliprdr)
  rw [← audio_some hc] at hbefore
  simp only [openChannels, rdpsndOpen]
  cases hnew : r.rdpsnd.contextNew with
  | none => exact .hush hbefore
  | some rdpsnd =>
    dsimp only
    split
    · exact .hush hbefore
    · next hinitialized =>
      split
      · exact .hush hbefore
      · next hstarted =>
        have hok : r.rdpsnd.ok = true := by
          rw [Bool.not_eq_true', Bool.not_eq_false] at hinitialized hstarted
          rw [RdpsndSetup.ok, hnew, hinitialized, hstarted]
          rfl
        exact .opened (ho hok) hbefore rdpsnd

theorem checkVcm_audio (hc : w.client = some c) (r : VcmCheck) :
    AudioStep w (.checkVcm r) (checkVcm w c r).audio := by
  simp only [checkVcm]
  cases hp : rdpPeerCheckVcm (w.peer c) r with
  | mk ok p =>
    have hs := rdpPeerCheckVcm_step hp
    have hleft {p' : Peer} (h : Hush (w.peer c).audio p'.audio) : AudioStep w (.checkVcm r)
        (disconnectClient (w.setPeer c p')).audio :=
      .hush ((Hush.setPeer hc h c).trans (disconnectClient_hush _))
    cases hs with
    | settled =>
      cases ok with
      | true => exact .hush (.setPeer hc (.refl _) c)
      | false => exact hleft (.refl _)
    | handshaking => exact .hush (.setPeer hc (.refl _) c)
    | fallback _ _ _ _ hp =>
      subst hp
      exact .hush (.setPeer hc (gfxCleanup_hush { w.peer c with ctx.bringUpFailed := true }
        r.deleteSurface) c)
    | opened hfd hd hv ho hr =>
      apply openChannels_audio hc
      intro hok
      change c.ctx.gfxVcm.isSome = true at hv
      change c.ctx.gfxOpened = false at ho
      change c.ctx.gfxReady = false at hr
      simp only [Worker.opensAudio, hc, Option.any_some, hv, ho, hr, hfd, hd, hok, Bool.not_false,
        Bool.and_true, decide_true]

theorem AudioStep.onClient {f : Client → Worker}
    (hf : ∀ c, w.client = some c → AudioStep w e (f c).audio) :
    AudioStep w e (w.onClient f).audio :=
  onClient_cases (P := fun w' => AudioStep w e w'.audio) (.hush (.refl _)) hf

theorem audio_step (w : Worker) (e : Event) : AudioStep w e (w.step e).audio := by
  cases e with
  | peerAccepted r =>
    change AudioStep w _ (onPeerAccepted w r).audio
    simp only [onPeerAccepted]
    split
    · exact .hush (.refl _)
    · exact .hush (attachClient_hush w r)
  | ipcMessage msg r =>
    change AudioStep w _ (acceptIpcClient w msg r).audio
    simp only [acceptIpcClient]
    split
    · exact .hush (.aside rfl rfl)
    split
    · exact .hush (.aside rfl rfl)
    split
    · exact .hush (.refl _)
    split
    · exact .hush (disconnectClient_hush w)
    · exact .hush ((disconnectClient_hush w).trans (attachClient_hush _ r))
  | settings s =>
    exact .onClient fun c hc =>
      .hush (Hush.setPeer hc (.refl _) { c with settings := s })
  | postConnect r =>
    exact .onClient fun c hc =>
      .hush (Hush.setPeer hc (onPostConnect_hush _ r) { c with connected := true })
  | activate r =>
    apply AudioStep.onClient
    intro c hc
    have hactive : Hush w.audio
        (w.setPeer c { w.peer c with ctx.activated := true }).audio := .setPeer hc (.refl _) c
    simp only [onActivate]
    split
    · exact .hush (hactive.trans (onPeerResize_hush ..))
    · exact .hush hactive
  | desktopResize r =>
    exact .onClient fun c _ => .hush (onPeerResize_hush ..)
  | remoteMonitors ms r =>
    apply AudioStep.onClient
    intro c _
    cases ms with
    | nil => exact .hush (.refl _)
    | cons m ms => exact .hush (onPeerResize_hush ..)
  | dispMonitorLayout ms r =>
    cases ms with
    | nil => exact .hush (.refl _)
    | cons m ms => exact .hush (onPeerResize_hush ..)
  | capsAdvertise caps r => exact .hush (.onPeer w fun p => gfxCapsAdvertise_hush p caps r)
  | rdpsndActivated formats =>
    change AudioStep w _ (w.onPeer fun p => onRdpsndActivated p formats).audio
    simp only [Worker.onPeer]
    cases hc : w.client with
    | none => exact .hush (.refl _)
    | some c =>
      simp only [onRdpsndActivated]
      split
      · exact .hush (.setPeer hc (.refl _) c)
      · next i hi =>
        obtain ⟨hlt, hcompatible, _⟩ := List.findIdx?_eq_some_iff_getElem.1 hi
        have hselected := AudioStep.selected (w := w) rfl (List.getElem?_eq_getElem hlt) hcompatible
        rw [audio_some hc] at hselected
        exact hselected
  | audioData n ok =>
    change AudioStep w _ (onAudioData w n ok).audio
    simp only [onAudioData]
    split
    · exact .hush (.refl _)
    · simp only [Worker.onPeer]
      cases hc : w.client with
      | none => exact .hush (.refl _)
      | some c =>
        simp only [rdpPeerSendAudio]
        split
        · next rdpsnd hready hcontext =>
          have hsent : AudioStep w (.audioData n ok) { w.audio with
              out := w.audio.out ++ [.sendSamples rdpsnd n ok] } := by
            apply AudioStep.sent
            · rw [audio_some hc]
              exact hready
            · rw [audio_some hc]
              exact hcontext
          rw [audio_some hc] at hsent
          exact hsent
        · exact .hush (.setPeer hc (.refl _) c)
  | wlClipboardChanged =>
    change AudioStep w _ (onWlClipboardChanged w).audio
    simp only [onWlClipboardChanged]
    split
    · exact .hush (.refl _)
    split
    · exact .hush (.refl _)
    · exact .hush (.emit w rfl)
  | clipboardFailed => exact .hush (.aside rfl rfl)
  | checkFailed => exact .hush (disconnectClient_hush w)
  | updateClient =>
    apply AudioStep.onClient
    intro c _
    simp only [epollAddVcm]
    split
    · exact .hush (.refl _)
    · exact .hush (.aside rfl rfl)
  | checkVcm r => exact .onClient fun c hc => checkVcm_audio hc r
  | startCapture r =>
    exact .onClient fun c _ => .hush (startCapture_hush w c r)
  | frameBuffer | frameBufferDone | frameFailed | signal => exact .hush (.aside rfl rfl)
  | frameReady id r =>
    have hdone : Hush w.audio (w.finishFrame id).audio := .aside rfl rfl
    exact .hush (hdone.trans (frame_hush (frameReady_step w id r)))
  | cleanup => exact .hush (.left rfl rfl)

/-! ### Whole runs -/

theorem audioLine_quiet (h : ∀ o ∈ new, o.audible = false) (tuned : Option Handle) :
    audioLine.Legal tuned new ∧ audioLine.run tuned new = tuned := by
  induction new with
  | nil => exact ⟨trivial, rfl⟩
  | cons o new ih =>
    obtain ⟨ho, hnew⟩ := List.forall_mem_cons.1 h
    obtain ⟨hlegal, hrun⟩ := ih hnew
    have hquiet : audioLine.enabled tuned o ∧ audioLine.step tuned o = tuned := by
      cases o with
      | stored kind => cases kind <;> first | exact ⟨trivial, rfl⟩ | cases ho
      | selectFormat | sendSamples => cases ho
      | _ => exact ⟨trivial, rfl⟩
    rw [System.run_cons, hquiet.2]
    refine ⟨⟨hquiet.1, ?_⟩, hrun⟩
    rw [hquiet.2]
    exact hlegal

/-- Samples were sent only for contexts with a format, and the context of a client that is ready
has one. -/
structure AudioState.Tuned (a : AudioState) : Prop where
  legal : audioLine.Legal none a.out
  ready : a.ready = true → audioLine.run none a.out = a.context

theorem AudioState.Tuned.hush {a a' : AudioState} (h : a.Tuned) (hs : Hush a a') : a'.Tuned := by
  obtain ⟨new, hout, hnew⟩ := hs.out
  obtain ⟨hlegal, hrun⟩ := audioLine_quiet hnew (audioLine.run none a.out)
  constructor
  · rw [hout]
    exact System.along_append.2 ⟨h.legal, hlegal⟩
  · intro hready
    obtain ⟨hbefore, hcontext⟩ := hs.ready hready
    rw [hout, System.run_append, hrun, hcontext]
    exact h.ready hbefore

theorem AudioState.Tuned.step (h : w.audio.Tuned) (hs : AudioStep w e a)
    (ho : w.opensAudio e = true → w.audio.ready = false) : a.Tuned := by
  have hsaid {o : Output} {a : AudioState} (ha : a.Tuned)
      (henabled : audioLine.enabled (audioLine.run none a.out) o) :
      audioLine.Legal none (a.out ++ [o]) :=
    System.along_append.2 ⟨ha.legal, henabled, trivial⟩
  cases hs with
  | hush hs => exact h.hush hs
  | @opened a hopens hs rdpsnd =>
    refine ⟨hsaid (h.hush hs) trivial, fun hready => ?_⟩
    have hbefore := (hs.ready hready).1
    rw [ho hopens] at hbefore
    cases hbefore
  | @selected formats i f _ _ _ =>
    refine ⟨hsaid h trivial, fun _ => ?_⟩
    change audioLine.run none (w.audio.out ++ [_]) = _
    rw [System.run_append]
    rfl
  | @sent rdpsnd hready hcontext n ok =>
    have htuned := h.ready hready
    refine ⟨hsaid h (htuned.trans hcontext), fun _ => ?_⟩
    change audioLine.run none (w.audio.out ++ [_]) = _
    rw [System.run_append]
    exact htuned

theorem tuned_start : (Worker.start standalone clipboard audio width height).audio.Tuned := by
  cases standalone with
  | true => exact ⟨trivial, fun h => absurd h Bool.false_ne_true⟩
  | false => exact ⟨⟨trivial, trivial⟩, fun h => absurd h Bool.false_ne_true⟩

/-- What was selected was offered. -/
theorem selected_offered (hmem : .selectFormat context i ∈ (worker.run w es).out) :
    .selectFormat context i ∈ w.out ∨ ∃ formats f, .rdpsndActivated formats ∈ es ∧
      formats[i]? = some f ∧ f.compatible = true := by
  induction es generalizing w with
  | nil => exact .inl hmem
  | cons e es ih =>
    rcases ih hmem with hmem | ⟨formats, f, hoffered, hf⟩
    · have hstep := audio_step w e
      rw [← audio_out] at hmem ⊢
      have hquiet {a : AudioState} (hs : Hush w.audio a) (hmem : .selectFormat context i ∈ a.out) :
          .selectFormat context i ∈ w.audio.out := by
        obtain ⟨new, hout, hnew⟩ := hs.out
        rw [hout] at hmem
        rcases List.mem_append.1 hmem with hmem | hmem
        · exact hmem
        · cases hnew _ hmem
      change Output.selectFormat context i ∈ (w.step e).audio.out at hmem
      generalize (w.step e).audio = a at hstep hmem
      cases hstep with
      | hush hs => exact .inl (hquiet hs hmem)
      | opened _ hs =>
        rcases List.mem_append.1 hmem with hmem | hmem
        · exact .inl (hquiet hs hmem)
        · cases List.mem_singleton.1 hmem
      | selected he hf hc =>
        rcases List.mem_append.1 hmem with hmem | hmem
        · exact .inl hmem
        · cases List.mem_singleton.1 hmem
          exact .inr ⟨_, _, he ▸ List.mem_cons_self, hf, hc⟩
      | sent =>
        rcases List.mem_append.1 hmem with hmem | hmem
        · exact .inl hmem
        · cases List.mem_singleton.1 hmem
    · exact .inr ⟨formats, f, List.mem_cons_of_mem _ hoffered, hf⟩

/-- The client is activated where `rdpsnd_server_handle_messages` is called: by
`rdp_peer_send_audio`, for a client that is ready. -/
def Worker.activatesReady (w : Worker) : Event → Bool
  | .rdpsndActivated _ => w.audio.ready
  | _ => true

/-- No client is ready, and nothing was sent. -/
structure AudioState.Mute (a : AudioState) : Prop where
  ready : a.ready = false
  out : ∀ rdpsnd n ok, .sendSamples rdpsnd n ok ∉ a.out

theorem AudioState.Mute.hush {a a' : AudioState} (h : a.Mute) (hs : Hush a a') : a'.Mute := by
  obtain ⟨new, hout, hnew⟩ := hs.out
  constructor
  · cases hready : a'.ready with
    | false => rfl
    | true => exact (hs.ready hready).1.symm.trans h.ready
  · intro rdpsnd n ok hmem
    rw [hout] at hmem
    rcases List.mem_append.1 hmem with hmem | hmem
    · exact h.out rdpsnd n ok hmem
    · cases hnew _ hmem

theorem AudioState.Mute.step (h : w.audio.Mute) (hs : AudioStep w e a)
    (he : w.activatesReady e = true) : a.Mute := by
  cases hs with
  | hush hs => exact h.hush hs
  | opened _ hs =>
    have hmute := h.hush hs
    refine ⟨hmute.ready, fun rdpsnd n ok hmem => ?_⟩
    rcases List.mem_append.1 hmem with hmem | hmem
    · exact hmute.out rdpsnd n ok hmem
    · cases List.mem_singleton.1 hmem
  | selected hactivated =>
    subst hactivated
    cases he.symm.trans h.ready
  | sent hready => cases hready.symm.trans h.ready

theorem mute_start : (Worker.start standalone clipboard audio width height).audio.Mute := by
  refine ⟨rfl, fun rdpsnd n ok hmem => ?_⟩
  cases standalone with
  | true => cases hmem
  | false => cases List.mem_singleton.1 hmem

/-- A client with one format of another kind in front of the right one is served. -/
def soundRun : List Event :=
  [.peerAccepted (.accepted (.basic 16 16 true true)), .postConnect ⟨some 1, true, none⟩,
    .checkVcm ⟨true, .ready, ⟨some 2, true⟩, ⟨none, false⟩, ⟨none, false⟩, ⟨some 5, true, true⟩,
      true⟩,
    .capsAdvertise [⟨capVersion81, 0x10⟩] ⟨true, ⟨true, true, true⟩, true⟩, .activate .done,
    .startCapture ⟨.working, true⟩,
    .rdpsndActivated [⟨waveFormatPcm, 1, 8000, 8⟩, ⟨waveFormatPcm, 2, 44100, 16⟩],
    .audioData 441 true]

end Wlrdp
