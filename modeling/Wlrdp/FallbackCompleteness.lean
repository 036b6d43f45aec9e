import Wlrdp.WorkerSoundness

namespace Wlrdp
set_option autoImplicit true

variable {w w' : Worker} {e : Event} {p p' : Peer} {c c' : Client}

def EncoderMode.forSurfaceBits (mode : EncoderMode) : Bool := mode = .raw || mode = .nsac

/-- A client whose graphics bring-up failed is served through SurfaceBits, and an inactive one is
still negotiating. -/
def Client.FallenBack (c : Client) (w : Worker) : Prop :=
  c.ctx.activated = true →
    (c.ctx.bringUpFailed = true → w.clientActive = true ∧ w.encoderInitialized = true ∧
      rdpPeerGetSendMode c.ctx = .surfaceBits ∧ w.encoder.mode.forSurfaceBits = true) ∧
    (w.clientActive = false → c.ctx.gfxVcm.isSome = true ∧ c.ctx.gfxReady = false ∧
      c.ctx.bringUpFailed = false)

instance : Decidable (Client.FallenBack c w) := inferInstanceAs (Decidable (_ → _ ∧ _))

def Worker.FallbackComplete (w : Worker) : Prop := ∀ c ∈ w.client, c.FallenBack w

instance : DecidablePred Worker.FallbackComplete := fun w =>
  inferInstanceAs (Decidable (∀ c ∈ w.client, c.FallenBack w))

/-- The bring-up steps whose failure the main loop recognises: the graphics channel opens once
its block is reached, and the capabilities are confirmed. -/
def Worker.bringUpSafe (w : Worker) : Event → Bool
  | .checkVcm r => w.client.all fun c =>
    c.ctx.gfxVcm.isNone || c.ctx.gfxOpened || c.ctx.gfxReady || !r.checkFileDescriptor ||
      r.drdynvcState ≠ .ready || r.gfx.ok
  | .capsAdvertise _ r => w.client.all fun c => r.capsConfirm || c.ctx.gfxReady
  | _ => true

/-- A failed bring-up has given up the manager. -/
def PeerContext.GivesUp (ctx : PeerContext) : Prop :=
  ctx.bringUpFailed = true → ctx.gfxVcm = none

structure BringUpInv (w : Worker) : Prop where
  givesUp : ∀ c, w.client = some c → c.ctx.GivesUp
  untried : ∀ c, w.client = some c → c.connected = false → c.ctx.bringUpFailed = false
  mode : w.exited = false → w.encoderInitialized = true → ∀ c, w.client = some c →
    c.ctx.gfxReady = false → w.encoder.mode.forSurfaceBits = true

theorem BringUpInv.start : BringUpInv (.start standalone clipboard audio width height) :=
  ⟨fun _ hc => (by cases hc), fun _ hc => (by cases hc), fun _ hi => (by cases hi)⟩

/-- A step of the client that keeps the encoder's mode and, while it is served, the pipeline. -/
theorem BringUpInv.client (h : BringUpInv w) (hc : w.client = some c) (hc' : w'.client = some c')
    (hg : c'.ctx.GivesUp) (hu : c'.connected = false → c'.ctx.bringUpFailed = false)
    (hx : w'.exited = w.exited) (hi : w'.encoderInitialized = w.encoderInitialized)
    (hm : w'.encoder.mode = w.encoder.mode)
    (hr : w.encoderInitialized = true → c'.ctx.gfxReady = c.ctx.gfxReady) : BringUpInv w' := by
  constructor
  · intro c₁ hc₁
    cases hc'.symm.trans hc₁
    exact hg
  · intro c₁ hc₁
    cases hc'.symm.trans hc₁
    exact hu
  · intro hx' hi' c₁ hc₁ hr'
    cases hc'.symm.trans hc₁
    rw [hm]
    exact h.mode (hx ▸ hx') (hi ▸ hi') c hc ((hr (hi ▸ hi')) ▸ hr')

theorem BringUpInv.keep (h : BringUpInv w) (hclient : w'.client = w.client)
    (hx : w'.exited = w.exited) (hi : w'.encoderInitialized = w.encoderInitialized)
    (hm : w'.encoder.mode = w.encoder.mode) : BringUpInv w' := by
  refine ⟨?_, ?_, ?_⟩
  · rw [hclient]
    exact h.givesUp
  · rw [hclient]
    exact h.untried
  · rw [hx, hi, hclient, hm]
    exact h.mode

theorem BringUpInv.samePeer (h : BringUpInv w) (hc : w.client = some c)
    (hs : SameGfx (w.peer c) p) : BringUpInv (w.setPeer c p) := by
  refine h.client hc rfl (fun hf => ?_) (fun hcon => ?_) rfl rfl rfl fun _ => hs.gfxReady
  · rw [hs.bringUpFailed] at hf
    exact hs.gfxVcm.trans (h.givesUp c hc hf)
  · exact hs.bringUpFailed.trans (h.untried c hc hcon)

theorem BringUpInv.onPeer {f : Peer → Peer} (h : BringUpInv w) (hf : ∀ p, SameGfx p (f p)) :
    BringUpInv (w.onPeer f) := by
  simp only [Worker.onPeer]
  cases hc : w.client with
  | none => exact h
  | some c => exact h.samePeer hc (hf _)

/-- Without a client nothing is left to show. -/
theorem BringUpInv.noClient (hc : w'.client = none) : BringUpInv w' := by
  refine ⟨fun c hc' => ?_, fun c hc' => ?_, fun _ _ c hc' => ?_⟩ <;>
    (rw [hc] at hc'; cases hc')

theorem attachClient_bringUp (h : BringUpInv w) (hi : w.encoderInitialized = false) :
    BringUpInv (attachClient w r) := by
  rw [attachClient]
  split
  · exact h
  · dsimp only
    split
    · exact h.keep rfl rfl rfl rfl
    · constructor
      · intro c hc
        cases hc
        intro hf
        cases hf
      · intro c hc
        cases hc
        exact fun _ => rfl
      · intro _ hi'
        change w.encoderInitialized = true at hi'
        rw [hi] at hi'
        cases hi'

theorem encoderRequest_fallback (hr : c.ctx.gfxReady = false) :
    c.encoderRequest.1.forSurfaceBits = true := by
  rw [Client.encoderRequest, rdpPeerGetSendMode, hr, if_pos (by decide)]
  dsimp only
  split <;> rfl

/-- An encoder set up for a client without a graphics pipeline is one for SurfaceBits. -/
theorem initStep_fallback (hc : w.client = some c) (hr : c.ctx.gfxReady = false)
    (h : InitStep w.encoderRequest.1 width height w.encoderRequest.2 r enc enc') :
    enc'.mode.forSurfaceBits = true := by
  have hreq : w.encoderRequest = c.encoderRequest := by
    rw [Worker.encoderRequest, hc]
  rw [h.mode, hreq]
  split
  · exact encoderRequest_fallback hr
  · rfl

theorem initEncoderForClient_bringUp (h : BringUpInv w) :
    BringUpInv (initEncoderForClient w r) :=
  ⟨h.givesUp, h.untried, fun _ _ _ hc hr =>
    initStep_fallback hc hr (initEncoderForClient_encoder w r)⟩

theorem BringUpInv.resize (h : BringUpInv w) (hw : WorkerInv w) :
    BringUpInv (onPeerResize w width height scale r) := by
  have hto : BringUpInv (w.resizeTo (roundUp16 width) (roundUp16 height) scale r) := by
    let w₁ : Worker := { w.emit (.wlrRandr (roundUp16 width) (roundUp16 height) scale r.wlrRandr)
      with width := roundUp16 width, height := roundUp16 height }
    have h₁ : BringUpInv w₁ := h.keep rfl rfl rfl rfl
    have hpeer : BringUpInv (w₁.onPeer fun p =>
        rdpPeerUpdateSize p (roundUp16 width) (roundUp16 height) r.surface) := by
      simp only [Worker.onPeer]
      cases hc : w₁.client with
      | none => exact h₁
      | some c =>
        have hgfx : GfxInv (w₁.peer c).ctx := (hw.client c hc).gfx
        exact h₁.samePeer hc (rdpPeerUpdateSize_shape hgfx _ _ _).1
    exact hpeer.keep rfl rfl rfl rfl
  cases hs : w.sameSize width height with
  | true => rw [onPeerResize_same hs]; exact h
  | false =>
    rw [onPeerResize_eq hs]
    dsimp only
    split
    · exact initEncoderForClient_bringUp hto
    · exact hto

theorem startCapture_bringUp (h : BringUpInv w) :
    BringUpInv (startCapture w c r) := by
  rw [startCapture_eq]
  simp only [beginCaptureIf]
  split
  · have h₁ : BringUpInv { w with
        clientActive := true, frameIntervalMs := frameIntervalDefaultMs } :=
      ⟨h.givesUp, h.untried, h.mode⟩
    exact (initEncoderForClient_bringUp (r := r.setup) h₁).keep rfl rfl rfl rfl
  · exact h

theorem capsAdvertise_bringUp (h : BringUpInv w) (hw : WorkerInv w) (hx : w.exited = false)
    (hc : w.client = some c) (ho : c.ctx.gfxOpened = true)
    (hs : w.bringUpSafe (.capsAdvertise caps r) = true) :
    BringUpInv (w.setPeer c (gfxCapsAdvertise (w.peer c) caps r)) := by
  have hstep := gfxCapsAdvertise_step (w.peer c) caps r
  have hcon := (hw.client c hc).connected
    ((hw.client c hc).gfx.context ((hw.client c hc).gfx.opened.1 ho))
  have hsurf : w.encoderInitialized = true → c.ctx.gfxSurfaceId ≠ 0 := by
    intro hi
    obtain ⟨c₁, hc₁, hset⟩ := hw.settled hx hi
    cases hc.symm.trans hc₁
    exact ((hw.client c hc).ready ho hset).2
  generalize gfxCapsAdvertise (w.peer c) caps r = p at hstep
  have hstay : p.ctx.GivesUp → (w.encoderInitialized = true → p.ctx.gfxReady = c.ctx.gfxReady) →
      BringUpInv (w.setPeer c p) := by
    intro hg hr
    refine h.client hc rfl hg (fun hcon' => ?_) rfl rfl rfl hr
    change c.connected = false at hcon'
    rw [hcon] at hcon'
    cases hcon'
  cases hstep with
  | unconfirmed hcf =>
    refine hstay (fun hf => ?_) fun _ => rfl
    have hready : c.ctx.gfxReady = true := by
      simp only [Worker.bringUpSafe] at hs
      simpa [hc, hcf] using hs
    change (c.ctx.bringUpFailed || !c.ctx.gfxReady) = true at hf
    rw [hready, Bool.not_true, Bool.or_false] at hf
    exact h.givesUp c hc hf
  | kept => exact hstay (h.givesUp c hc) fun _ => rfl
  | created _ _ _ _ h₀ =>
    exact hstay (fun hf => by cases hf) fun hi => absurd h₀ (hsurf hi)
  | fallback _ _ _ _ h₀ hp =>
    exact hstay (fun _ => (cleaned_of_eq hp).gfxVcm) fun hi => absurd h₀ (hsurf hi)

theorem gfxOpen_bringUp (p : Peer) (h : r.ok = true) :
    (gfxOpen p r).2.ctx.bringUpFailed = false := by
  simp only [ChannelSetup.ok] at h
  simp only [gfxOpen]
  cases hn : r.contextNew with
  | none => rw [hn] at h; cases h
  | some gfx =>
    rw [hn, Option.isSome_some, Bool.true_and] at h
    dsimp only
    rw [h]
    rfl

theorem checkVcm_bringUp (h : BringUpInv w) (hc : w.client = some c)
    (hw : WorkerInv w) (hs : w.bringUpSafe (.checkVcm r) = true) :
    BringUpInv (checkVcm w c r) := by
  simp only [checkVcm]
  cases hp : rdpPeerCheckVcm (w.peer c) r with
  | mk ok p =>
  have hstep := rdpPeerCheckVcm_step hp
  dsimp only
  have hsame := h.samePeer hc (.refl (w.peer c))
  have hstay : p.ctx.GivesUp → (c.connected = false → p.ctx.bringUpFailed = false) →
      p.ctx.gfxReady = c.ctx.gfxReady → BringUpInv (w.setPeer c p) :=
    fun hg hu hr => h.client hc rfl hg hu rfl rfl rfl fun _ => hr
  cases hstep with
  | settled =>
    split
    · exact .noClient rfl
    · exact hsame
  | handshaking => exact hsame
  | fallback _ hv _ hr hp' =>
    have hclean := cleaned_of_eq hp'
    refine hstay (fun _ => hclean.gfxVcm) (fun hcon => ?_) (hclean.gfxReady.trans hr.symm)
    have hv' : c.ctx.gfxVcm.isSome = true := hv
    rw [(hw.client c hc).manager hcon] at hv'
    cases hv'
  | opened hf hd hv ho hr =>
    have hsome : c.ctx.gfxVcm.isSome = true := hv
    have hv' : c.ctx.gfxVcm.isNone = false := by simpa using hsome
    have ho' : c.ctx.gfxOpened = false := ho
    have hr' : c.ctx.gfxReady = false := hr
    have hok : r.gfx.ok = true := by
      simp only [Worker.bringUpSafe] at hs
      simpa [hc, hv', ho', hr', hf, hd] using hs
    have hsg := openChannels_sameGfx (w.peer c) r
    have hfalse : (openChannels (w.peer c) r).ctx.bringUpFailed = false :=
      hsg.bringUpFailed.trans (gfxOpen_bringUp (w.peer c) hok)
    refine hstay (fun hb => ?_) (fun _ => hfalse)
      (hsg.gfxReady.trans (gfxOpen_keeps (w.peer c) r.gfx).2.2)
    rw [hfalse] at hb
    cases hb

theorem bringUpInv_step (hw : WorkerInv w) (h : BringUpInv w) (he : w.enabled e)
    (hs : w.bringUpSafe e = true) : BringUpInv (w.step e) := by
  obtain ⟨hx, ha⟩ := he
  cases e with
  | peerAccepted r =>
    change BringUpInv (onPeerAccepted w r)
    simp only [onPeerAccepted]
    split
    · exact h
    · next hc =>
      exact attachClient_bringUp h (hw.idle hx (Option.not_isSome_iff_eq_none.1 hc))
  | ipcMessage msg r =>
    change BringUpInv (acceptIpcClient w msg r)
    have hstop : BringUpInv { w with running := false } := h.keep rfl rfl rfl rfl
    unfold acceptIpcClient
    split
    · exact hstop
    split
    · exact hstop
    split
    · exact h
    dsimp only
    split
    · exact .noClient rfl
    · exact attachClient_bringUp (.noClient rfl) rfl
  | settings s =>
    exact onClient_cases h fun c hc =>
      h.client hc rfl (h.givesUp c hc) (h.untried c hc) rfl rfl rfl fun _ => rfl
  | postConnect r =>
    apply onClient_cases h
    intro c hc
    have hcon : c.connected = false := by
      have hadm := (Bool.and_eq_true_iff.1 ha).1
      rw [hc] at hadm
      simpa using hadm
    have hstep := onPostConnect_step (w.peer c) r
    refine h.client hc rfl (fun hf => ?_) (fun hcon' => by cases hcon') rfl rfl rfl
      fun _ => hstep.gfxReady
    exact hstep.failed hf ((hw.client c hc).manager hcon) (h.untried c hc hcon)
  | activate r =>
    apply onClient_cases h
    intro c hc
    have hcon : c.connected = true := by simpa [Worker.admits, hc] using ha
    have hact : BringUpInv { w with client := some { c with ctx.activated := true } } :=
      h.client hc rfl (h.givesUp c hc) (h.untried c hc) rfl rfl rfl fun _ => rfl
    have hwact : WorkerInv { w with client := some { c with ctx.activated := true } } := by
      refine hw.keep (fun c' hc' => ?_) (by rw [hc]; rfl) rfl rfl rfl
      cases hc'
      exact ⟨c, hc, .activate hcon⟩
    simp only [onActivate]
    split
    · exact hact.resize hwact
    · exact hact
  | desktopResize r => exact onClient_cases h fun c _ => h.resize hw
  | remoteMonitors ms r =>
    apply onClient_cases h
    intro c _
    cases ms with
    | nil => exact h
    | cons m ms => exact h.resize hw
  | dispMonitorLayout ms r =>
    cases ms with
    | nil => exact h
    | cons m ms => exact h.resize hw
  | capsAdvertise caps r =>
    apply onClient_cases h
    intro c hc
    exact capsAdvertise_bringUp h hw hx hc (by simpa [Worker.admits, hc] using ha) hs
  | rdpsndActivated formats => exact h.onPeer fun p => onRdpsndActivated_sameGfx p formats
  | audioData n ok =>
    change BringUpInv (onAudioData w n ok)
    simp only [onAudioData]
    split
    · exact h
    · exact h.onPeer fun p => rdpPeerSendAudio_sameGfx p n ok
  | wlClipboardChanged =>
    change BringUpInv (onWlClipboardChanged w)
    simp only [onWlClipboardChanged]
    split
    · exact h
    split
    · exact h
    · exact h.keep rfl rfl rfl rfl
  | clipboardFailed => exact h.keep rfl rfl rfl rfl
  | checkFailed => exact .noClient rfl
  | updateClient =>
    apply onClient_cases h
    intro c _
    simp only [epollAddVcm]
    split
    · exact h
    · exact h.keep rfl rfl rfl rfl
  | checkVcm r => exact onClient_cases h fun c hc => checkVcm_bringUp h hc hw hs
  | startCapture r => exact onClient_cases h fun c _ => startCapture_bringUp h
  | frameBuffer => exact h.keep rfl rfl rfl rfl
  | frameBufferDone => exact h.keep rfl rfl rfl rfl
  | frameReady id r =>
    have hd : BringUpInv (w.finishFrame id) := h.keep rfl rfl rfl rfl
    have hstep := frameReady_step w id r
    change BringUpInv (frameReady w id r)
    generalize frameReady w id r = w' at hstep
    cases hstep with
    | ignored => exact hd
    | throttled _ _ hw' => exact hw' ▸ hd.keep rfl rfl rfl rfl
    | unsent _ _ he hw' =>
      exact hw' ▸ hd.keep rfl rfl rfl (encoderEncode_spec he).setup.mode
    | sent _ _ hc he hp _ _ hw' =>
      obtain ⟨ok, n, out, hshape⟩ := rdpPeerSendFrame_shape (Worker.peer _ _) _ _ _ _
      have hgives := hd.givesUp _ hc
      have huntried := hd.untried _ hc
      rw [hshape] at hp
      subst hw' hp
      exact hd.client hc rfl hgives huntried rfl rfl (encoderEncode_spec he).setup.mode fun _ => rfl
  | frameFailed => exact h.keep rfl rfl rfl rfl
  | signal => exact h.keep rfl rfl rfl rfl
  | cleanup => exact .noClient rfl

/-! ### Iterations of the main loop -/

def Worker.Negotiates (w : Worker) : Prop := WorkerInv w ∧ BringUpInv w

theorem negotiates_step (h : w.Negotiates) (he : w.enabled e) (hs : w.bringUpSafe e = true) :
    (w.step e).Negotiates :=
  ⟨workerInv_step w e h.1 he, bringUpInv_step h.1 h.2 he hs⟩

theorem negotiates_run (h : w.Negotiates) (hl : worker.Legal w es)
    (hs : worker.Along (fun w e => w.bringUpSafe e = true) w es) :
    (worker.run w es).Negotiates := by
  have halways : worker.Always Worker.Negotiates w es :=
    System.always_of_step (fun _ _ h he => negotiates_step h he.1 he.2) h (hl.and hs)
  exact halways.last

/-- A pass of the main loop ends without a client or with the activation blocks. -/
theorem iteration_ends (w : Worker) (i : Iteration) :
    (worker.run w (w.iteration i)).client = none ∨
      ∃ es, w.iteration i = es ++ [.startCapture i.start] := by
  simp only [Worker.iteration]
  split
  · next hc =>
    rw [List.append_nil]
    exact .inl (Option.isNone_iff_eq_none.1 hc)
  split
  · refine .inl ?_
    rw [System.run_append, System.run_append]
    rfl
  split
  · next hc =>
    refine .inl ?_
    rw [List.append_nil, System.run_append, System.run_append]
    exact Option.isNone_iff_eq_none.1 hc
  · refine .inr ⟨i.dispatched ++ (i.pumped ++ ([.updateClient, .checkVcm i.check] ++ i.channel)), ?_⟩
    simp only [List.append_assoc]

theorem startCapture_active (w : Worker) (c : Client) (r : ActivationTurn) :
    (startCapture w c r).clientActive = (c.settled || w.clientActive) ∧
      (startCapture w c r).client = w.client ∧ (startCapture w c r).exited = w.exited := by
  rw [startCapture_eq]
  cases hs : c.settled with
  | false => exact ⟨rfl, rfl, rfl⟩
  | true =>
    cases ha : w.clientActive with
    | true =>
      rw [beginCaptureIf_active ha]
      exact ⟨ha, rfl, rfl⟩
    | false =>
      have hb := beginCapture_began w r
      rw [beginCaptureIf, ha, Bool.not_false, Bool.and_self, if_pos rfl]
      exact ⟨hb.clientActive, hb.client, hb.exited⟩

/-- After the activation blocks a client that gave up graphics is being served. -/
theorem startCapture_complete (h : w.Negotiates) (hx : w.exited = false)
    (r : ActivationTurn) : (w.step (.startCapture r)).FallbackComplete := by
  cases hc : w.client with
  | none =>
    intro c hc'
    change c ∈ (w.onClient _).client at hc'
    rw [Worker.onClient, hc] at hc'
    dsimp only at hc'
    rw [hc] at hc'
    cases hc'
  | some c =>
    have hstep : w.step (.startCapture r) = startCapture w c r := by
      change w.onClient _ = _
      rw [Worker.onClient, hc]
    have he : w.enabled (.startCapture r) := ⟨hx, by simp only [Worker.admits, hc]; rfl⟩
    obtain ⟨hw', hb'⟩ := negotiates_step h he rfl
    obtain ⟨hactive, hclient, hexit⟩ := startCapture_active w c r
    rw [hstep] at hw' hb' ⊢
    intro c' hc' hact
    rw [hclient, hc] at hc'
    cases hc'
    have hc₁ : (startCapture w c r).client = some c := hclient.trans hc
    have hgives : c.ctx.GivesUp := h.2.givesUp c hc
    constructor
    · intro hf
      have hnone := hgives hf
      have hready : c.ctx.gfxReady = false := by
        cases hr : c.ctx.gfxReady with
        | false => rfl
        | true =>
          have hgfx := (h.1.client c hc).gfx
          have hv := hgfx.context (hgfx.opened.1 (hgfx.ready hr))
          rw [hnone] at hv
          cases hv
      have hset : c.settled = true := (Client.settled_iff c).2 ⟨hact, .inl hnone⟩
      have hserved : (startCapture w c r).clientActive = true := by
        rw [hactive, hset]
        rfl
      have hinit := hw'.active ▸ hserved
      refine ⟨hserved, hinit, ?_, hb'.mode (hexit.trans hx) hinit c hc₁ hready⟩
      rw [rdpPeerGetSendMode, hready]
      rfl
    · intro hidle
      have hset : c.settled = false := by
        rw [hactive] at hidle
        exact (Bool.or_eq_false_iff.1 hidle).1
      have hnot : ¬ (c.ctx.gfxVcm = none ∨ c.ctx.gfxReady = true) := by
        intro hor
        rw [(Client.settled_iff c).2 ⟨hact, hor⟩] at hset
        cases hset
      rw [not_or] at hnot
      refine ⟨Option.isSome_iff_ne_none.2 hnot.1, Bool.eq_false_iff.2 hnot.2, ?_⟩
      exact Bool.eq_false_iff.2 fun hf => hnot.1 (hgives hf)

theorem iteration_complete (h : w.Negotiates) (hl : worker.Legal w (w.iteration i))
    (hs : worker.Along (fun w e => w.bringUpSafe e = true) w (w.iteration i)) :
    (mainLoop.step w i).FallbackComplete := by
  change (worker.run w (w.iteration i)).FallbackComplete
  rcases iteration_ends w i with hnone | ⟨es, hes⟩
  · intro c hc
    rw [hnone] at hc
    cases hc
  · rw [hes] at hl hs ⊢
    have hl' := System.along_append.1 hl
    have hs' := System.along_append.1 hs
    rw [System.run_append]
    exact startCapture_complete (negotiates_run h hl'.1 hs'.1) hl'.2.1.1 i.start

/-- As long as the graphics channel opens once its block is reached and the capabilities are
confirmed, a client whose bring-up failed is served through SurfaceBits at the end of every
pass of the main loop. -/
theorem fallback_complete_of_safe
    (hl : mainLoop.Legal (.start standalone clipboard audio width height) is)
    (hs : mainLoop.Along (fun w i =>
        worker.Along (fun w e => w.bringUpSafe e = true) w (w.iteration i))
      (.start standalone clipboard audio width height) is) :
    mainLoop.Always Worker.FallbackComplete (.start standalone clipboard audio width height) is := by
  refine (System.always_of_step (I := fun w => w.Negotiates ∧ w.FallbackComplete)
    (fun w i h hi => ?_) ⟨⟨.start, .start⟩, fun _ hc => by cases hc⟩ (hl.and hs)).mono fun _ h => h.2
  obtain ⟨hlegal, hsafe⟩ := hi
  have hevents := hlegal.2.2.2.2
  exact ⟨negotiates_run h.1 hevents hsafe, iteration_complete h.1 hevents hsafe⟩

/-- A check of the manager in which only the graphics channel may be opened. -/
def VcmCheck.bringUp (state : DrdynvcState) (gfx : ChannelSetup) : VcmCheck :=
  ⟨true, state, gfx, ⟨none, false⟩, ⟨none, false⟩, ⟨none, false, false⟩, true⟩

def Iteration.polling (check : VcmCheck) : Iteration :=
  ⟨[], [], true, check, [], ⟨.working, true⟩⟩

/-- A client with graphics support connects and is activated within one pass. -/
def Iteration.connecting (check : VcmCheck) : Iteration :=
  { Iteration.polling check with
    dispatched := [.peerAccepted (.accepted (.basic 16 16 true true))]
    pumped := [.postConnect ⟨some 1, true, none⟩, .activate .done] }

/-- DRDYNVC fails for an activated client, which is then served through SurfaceBits. -/
theorem fallback_complete_of_safe_served :
    mainLoop.Legal (.start true false false 16 16)
        [.connecting (.bringUp .initialized ⟨none, false⟩),
          .polling (.bringUp .failed ⟨none, false⟩)] ∧
      mainLoop.Always Worker.FallbackComplete (.start true false false 16 16)
        [.connecting (.bringUp .initialized ⟨none, false⟩),
          .polling (.bringUp .failed ⟨none, false⟩)] :=
  ⟨by decide, fallback_complete_of_safe (by decide) (by decide)⟩

/-- `rdpgfx_server_context_new` fails for an activated client: the manager stays, and no
activation block recognises the failure. -/
theorem failed_gfx_open_starves :
    mainLoop.Legal (.start true false false 16 16)
        [.connecting (.bringUp .ready ⟨none, false⟩)] ∧
      ¬ mainLoop.Always Worker.FallbackComplete (.start true false false 16 16)
        [.connecting (.bringUp .ready ⟨none, false⟩)] := by
  decide

end Wlrdp
