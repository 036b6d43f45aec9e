import Wlrdp.HandlerMoves

namespace Wlrdp
set_option autoImplicit true

variable {p p' q : Peer} {w w' : Worker}

/-! ### The size that a peer knows -/

/-- The size in the context of the peer is as before. -/
structure SameDesktop (p p' : Peer) : Prop where
  width : p'.ctx.width = p.ctx.width
  height : p'.ctx.height = p.ctx.height

theorem SameDesktop.refl (p : Peer) : SameDesktop p p := ⟨rfl, rfl⟩

theorem SameDesktop.trans (h : SameDesktop p p') (h' : SameDesktop p' q) : SameDesktop p q :=
  ⟨h'.width.trans h.width, h'.height.trans h.height⟩

theorem gfxCleanup_desktop (p : Peer) (d : Bool) : SameDesktop p (gfxCleanup p d) := by
  obtain ⟨_, _, _, h₁⟩ := closeGfx_shape p d
  obtain ⟨_, _, _, h₂⟩ := closeRdpsnd_shape (closeGfx p d)
  obtain ⟨_, _, _, _, h₃⟩ := closeCliprdr_shape (closeRdpsnd (closeGfx p d))
  obtain ⟨_, h₄⟩ := closeDisp_shape (closeCliprdr (closeRdpsnd (closeGfx p d)))
  obtain ⟨_, h₅⟩ := closeVcm_shape (closeDisp (closeCliprdr (closeRdpsnd (closeGfx p d))))
  rw [gfxCleanup, h₅, h₄, h₃, h₂, h₁]
  exact ⟨rfl, rfl⟩

theorem cleanup_desktop (hp : p' = gfxCleanup q d) (h : SameDesktop p q) : SameDesktop p p' := by
  subst hp
  exact h.trans (gfxCleanup_desktop q d)

theorem CapsStep.desktop (hs : CapsStep p mode r p') : SameDesktop p p' := by
  cases hs with
  | unconfirmed => exact ⟨rfl, rfl⟩
  | kept => exact ⟨rfl, rfl⟩
  | created => exact ⟨rfl, rfl⟩
  | fallback _ _ _ _ _ hp => exact cleanup_desktop hp ⟨rfl, rfl⟩

theorem gfxOpen_desktop (p : Peer) (r : ChannelSetup) : SameDesktop p (gfxOpen p r).2 := by
  rw [gfxOpen]
  split
  · exact ⟨rfl, rfl⟩
  · dsimp only
    split <;> exact ⟨rfl, rfl⟩

theorem dispOpen_desktop (p : Peer) (r : ChannelSetup) : SameDesktop p (dispOpen p r).2 := by
  rw [dispOpen]
  split
  · exact .refl p
  · dsimp only
    split <;> exact ⟨rfl, rfl⟩

theorem openCliprdr_desktop (p : Peer) (r : ChannelSetup) : SameDesktop p (openCliprdr p r) := by
  simp only [openCliprdr, clipboardOpenCliprdr]
  split
  · exact .refl p
  · cases r.contextNew with
    | none => exact .refl p
    | some cliprdr => cases r.opens <;> exact ⟨rfl, rfl⟩

theorem rdpsndOpen_desktop (p : Peer) (r : RdpsndSetup) : SameDesktop p (rdpsndOpen p r).2 := by
  rw [rdpsndOpen]
  split
  · exact .refl p
  · dsimp only
    split
    · exact ⟨rfl, rfl⟩
    · split <;> exact ⟨rfl, rfl⟩

theorem CheckStep.desktop (hs : CheckStep p r ok p') : SameDesktop p p' := by
  cases hs with
  | settled => exact .refl p
  | handshaking => exact .refl p
  | fallback _ _ _ _ hp => exact cleanup_desktop hp ⟨rfl, rfl⟩
  | opened =>
    exact (((gfxOpen_desktop p r.gfx).trans (dispOpen_desktop ..)).trans
      (openCliprdr_desktop ..)).trans (rdpsndOpen_desktop ..)

theorem onPostConnect_desktop (p : Peer) (r : VcmSetup) : SameDesktop p (onPostConnect p r) := by
  simp only [onPostConnect, vcmInit]
  split
  · split
    · exact ⟨rfl, rfl⟩
    · split <;> exact ⟨rfl, rfl⟩
  · exact ⟨rfl, rfl⟩

theorem onRdpsndActivated_desktop (p : Peer) (formats : List AudioFormat) :
    SameDesktop p (onRdpsndActivated p formats) := by
  simp only [onRdpsndActivated]
  split <;> exact ⟨rfl, rfl⟩

theorem rdpPeerSendAudio_desktop (p : Peer) (n : UInt32) (ok : Bool) :
    SameDesktop p (rdpPeerSendAudio p n ok).2 := by
  simp only [rdpPeerSendAudio]
  split <;> exact ⟨rfl, rfl⟩

theorem rdpPeerSendFrame_desktop (p : Peer) (f : EncodedFrame) (width height : UInt32)
    (r : FrameSend) : SameDesktop p (rdpPeerSendFrame p f width height r).2 := by
  obtain ⟨ok, n, out, he⟩ := rdpPeerSendFrame_shape p f width height r
  rw [he]
  exact ⟨rfl, rfl⟩

theorem PeerMove.desktop (h : PeerMove e p p') : SameDesktop p p' := by
  cases h with
  | same => exact .refl p
  | connected r => exact onPostConnect_desktop p r
  | activated => exact ⟨rfl, rfl⟩
  | advertised caps r => exact (gfxCapsAdvertise_step p caps r).desktop
  | rdpsnd formats => exact onRdpsndActivated_desktop p formats
  | audio n ok => exact rdpPeerSendAudio_desktop p n ok
  | checked hs => exact hs.desktop

theorem rdpPeerUpdateSize_desktop (p : Peer) (width height : UInt32) (r : SurfaceSetup) :
    (rdpPeerUpdateSize p width height r).ctx.width = width ∧
      (rdpPeerUpdateSize p width height r).ctx.height = height := by
  simp only [rdpPeerUpdateSize]
  split
  · obtain ⟨out, _, he⟩ := gfxCreateSurface_shape
      { p with ctx.width := width, ctx.height := height } width height r
    rw [he]
    exact ⟨rfl, rfl⟩
  · exact ⟨rfl, rfl⟩

/-! ### The copies of the size -/

/-- The input module, the attached client and the encoder have the size of the session. -/
structure SizesAgree (w : Worker) : Prop where
  input : w.inputWidth = w.width ∧ w.inputHeight = w.height
  client : ∀ c, w.client = some c → c.ctx.width = w.width ∧ c.ctx.height = w.height
  encoder : w.encoderInitialized = true →
    w.encoder.width = w.width ∧ w.encoder.height = w.height

theorem SizesAgree.start : SizesAgree (.start standalone clipboard audio width height) :=
  ⟨⟨rfl, rfl⟩, fun _ hc => (by cases hc), fun hi => (by cases hi)⟩

/-- The size, the input module and the encoder are as before. -/
theorem SizesAgree.keep (h : SizesAgree w) (hw : w'.width = w.width) (hh : w'.height = w.height)
    (hi : w'.inputWidth = w.inputWidth ∧ w'.inputHeight = w.inputHeight)
    (hc : ∀ c', w'.client = some c' → c'.ctx.width = w.width ∧ c'.ctx.height = w.height)
    (he : w'.encoderInitialized = true → w.encoderInitialized = true ∧
      w'.encoder.width = w.encoder.width ∧ w'.encoder.height = w.encoder.height) :
    SizesAgree w' := by
  constructor
  · rw [hi.1, hi.2, hw, hh]
    exact h.input
  · rw [hw, hh]
    exact hc
  · intro hi'
    obtain ⟨hinit, hew, heh⟩ := he hi'
    rw [hw, hh, hew, heh]
    exact h.encoder hinit

/-- A step outside of sizes, clients and the encoder. -/
theorem SizesAgree.congr (h : SizesAgree w) (hw : w'.width = w.width) (hh : w'.height = w.height)
    (hi : w'.inputWidth = w.inputWidth ∧ w'.inputHeight = w.inputHeight)
    (hc : w'.client = w.client) (hinit : w'.encoderInitialized = w.encoderInitialized)
    (he : w'.encoder = w.encoder) : SizesAgree w' := by
  apply h.keep hw hh hi
  · rw [hc]
    exact h.client
  · rw [hinit, he]
    exact fun hi' => ⟨hi', rfl, rfl⟩

theorem SizesAgree.setPeer {c c' : Client} (h : SizesAgree w) (hc : w.client = some c)
    (hs : SameDesktop (w.peer c) p) : SizesAgree (w.setPeer c' p) := by
  refine h.keep rfl rfl ⟨rfl, rfl⟩ (fun c₁ hc₁ => ?_) fun hi => ⟨hi, rfl, rfl⟩
  cases hc₁
  obtain ⟨hcw, hch⟩ := h.client c hc
  exact ⟨hs.width.trans hcw, hs.height.trans hch⟩

theorem SizesAgree.initEncoder (hi : w.inputWidth = w.width ∧ w.inputHeight = w.height)
    (hc : ∀ c, w.client = some c → c.ctx.width = w.width ∧ c.ctx.height = w.height) :
    SizesAgree (initEncoderForClient w r) := by
  have he := initEncoderForClient_encoder w r
  exact ⟨hi, hc, fun _ => ⟨he.width, he.height⟩⟩

theorem SizesAgree.disconnected (h : SizesAgree w) : SizesAgree (disconnectClient w) :=
  h.keep rfl rfl ⟨rfl, rfl⟩ (fun _ hc => by cases hc) fun hi => by cases hi

theorem SizesAgree.attached (h : SizesAgree w) : SizesAgree (attachClient w r) := by
  rw [attachClient]
  split
  · exact h
  · dsimp only
    split
    · exact h.congr rfl rfl ⟨rfl, rfl⟩ rfl rfl rfl
    · refine h.keep rfl rfl ⟨rfl, rfl⟩ (fun c hc => ?_) fun hi => ⟨hi, rfl, rfl⟩
      cases hc
      exact ⟨rfl, rfl⟩

theorem resizeTo_size (w : Worker) (width height scale : UInt32) (r : ResizeTurn) :
    (w.resizeTo width height scale r).width = width ∧
      (w.resizeTo width height scale r).height = height := by
  simp only [Worker.resizeTo, Worker.onPeer]
  split <;> exact ⟨rfl, rfl⟩

/-- A resize stores one size everywhere before it sets up the encoder. -/
theorem onPeerResize_agree (h : w.sameSize width height = false) :
    SizesAgree (onPeerResize w width height scale r) := by
  rw [onPeerResize_eq h]
  have hinput : (w.resizeTo (roundUp16 width) (roundUp16 height) scale r).inputWidth =
      (w.resizeTo (roundUp16 width) (roundUp16 height) scale r).width ∧
      (w.resizeTo (roundUp16 width) (roundUp16 height) scale r).inputHeight =
      (w.resizeTo (roundUp16 width) (roundUp16 height) scale r).height := by
    simp only [Worker.resizeTo, Worker.onPeer]
    split <;> exact ⟨rfl, rfl⟩
  have hclient : ∀ c, (w.resizeTo (roundUp16 width) (roundUp16 height) scale r).client = some c →
      c.ctx.width = (w.resizeTo (roundUp16 width) (roundUp16 height) scale r).width ∧
      c.ctx.height = (w.resizeTo (roundUp16 width) (roundUp16 height) scale r).height := by
    simp only [Worker.resizeTo, Worker.onPeer]
    intro c hc
    split at hc
    · next hnone =>
      cases hnone.symm.trans hc
    · cases hc
      exact rdpPeerUpdateSize_desktop ..
  dsimp only
  split
  · exact .initEncoder hinput hclient
  · next hi => exact ⟨hinput, hclient, fun hi' => absurd hi' hi⟩

theorem SizesAgree.resized (h : SizesAgree w) : SizesAgree (onPeerResize w width height scale r) := by
  cases hs : w.sameSize width height with
  | true =>
    rw [onPeerResize_same hs]
    exact h
  | false => exact onPeerResize_agree hs

theorem SizesAgree.frame (h : SizesAgree w) (hs : FrameStep w px width height stride r w') :
    SizesAgree w' := by
  have hencoded : ∀ {ok enc}, encoderEncode w.encoder px stride r.encode = (ok, enc) →
      enc.width = w.encoder.width ∧ enc.height = w.encoder.height := by
    intro ok enc he
    have hsetup := (encoderEncode_spec he).setup
    exact ⟨hsetup.width, hsetup.height⟩
  cases hs with
  | ignored => exact h
  | throttled _ _ hw =>
    subst hw
    exact h.congr rfl rfl ⟨rfl, rfl⟩ rfl rfl rfl
  | unsent _ _ he hw =>
    subst hw
    exact h.keep rfl rfl ⟨rfl, rfl⟩ h.client fun hi => ⟨hi, hencoded he⟩
  | @sent c enc p _ _ _ hc he hp _ _ hw =>
    subst hw
    have hsame : SameDesktop (w.peer c) p := by
      rw [← hp]
      exact rdpPeerSendFrame_desktop ..
    have hsent : SizesAgree (w.setPeer c p) := h.setPeer hc hsame
    exact h.keep rfl rfl ⟨rfl, rfl⟩ hsent.client fun hi => ⟨hi, hencoded he⟩

theorem SizesAgree.started (h : SizesAgree w) : SizesAgree (startCapture w c r) := by
  rw [startCapture_eq, beginCaptureIf]
  split
  · have hbegan : SizesAgree (initEncoderForClient { w with
        clientActive := true, frameIntervalMs := frameIntervalDefaultMs } r.setup) :=
      .initEncoder h.input h.client
    exact hbegan.congr rfl rfl ⟨rfl, rfl⟩ rfl rfl rfl
  · exact h

theorem SizesAgree.changed (h : SizesAgree w) (hs : Change w w') : SizesAgree w' := by
  cases hs with
  | resized => exact h.resized
  | attached => exact h.attached
  | disconnected => exact h.disconnected

theorem SizesAgree.moved (h : SizesAgree w) (hs : Move w e w') : SizesAgree w' := by
  cases hs with
  | aside hs =>
    exact h.congr hs.size.1 hs.size.2 hs.inputSize hs.client hs.encoderInitialized hs.encoder
  | client c' hc hp => exact h.setPeer hc hp.desktop
  | changed hs => exact h.changed hs
  | started => exact h.started
  | framed hs hf =>
    have hdone := h.congr hs.size.1 hs.size.2 hs.inputSize hs.client hs.encoderInitialized
      hs.encoder
    exact hdone.frame hf

/-- Every handler of the event loop leaves the sizes in agreement. -/
theorem SizesAgree.step (h : SizesAgree w) (hs : Handled w e w') (he : e ≠ .cleanup) :
    SizesAgree w' := by
  cases hs with
  | moved hs => exact h.moved hs
  | followed hs hs' => exact (h.moved hs).changed hs'
  | exited hc => exact absurd hc he

/-- The sizes agree as long as the event loop runs. -/
theorem sizesAgree_step (w : Worker) (e : Event) (h : w.exited = false → SizesAgree w)
    (he : worker.enabled w e) (hx : (worker.step w e).exited = false) :
    SizesAgree (worker.step w e) := by
  apply (h he.1).step (handled_step w e)
  rintro rfl
  cases hx

/-- In every state between two handlers of a session, the copies of its size agree. -/
theorem worker_sizes_agree (standalone clipboard audio : Bool) (width height : UInt32)
    (hl : worker.Legal (.start standalone clipboard audio width height) es) :
    worker.Always (fun w => w.exited = false → SizesAgree w)
      (.start standalone clipboard audio width height) es :=
  System.always_of_legal sizesAgree_step (fun _ => .start) hl

/-- A client whose resolution the session adopts while it is served. -/
theorem worker_sizes_agree_adopted : worker.Always (fun w => w.exited = false → SizesAgree w)
    (.start true false false 800 600)
    (plainClient (.basic 1000 700 true false) ++
      [.startCapture ⟨.working, true⟩, .settings (.basic 1280 720 true false),
        .desktopResize .done]) :=
  worker_sizes_agree true false false 800 600 (by decide +kernel)

end Wlrdp
