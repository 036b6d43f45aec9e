import Wlrdp.CapsNegotiation
import Wlrdp.HandlerMoves

namespace Wlrdp
set_option autoImplicit true

variable {w w' : Worker} {p p' : Peer} {A : SendMode → Prop}

/-! ### The switches -/

/-- The graphics settings that `rdp_peer_init` prepares for a connection. -/
structure CodecSwitches where
  supportGraphicsPipeline : Bool
  gfxH264 : Bool
  gfxAvc444 : Bool
  gfxAvc444v2 : Bool
deriving DecidableEq

def rdpPeerInitSwitches : CodecSwitches where
  supportGraphicsPipeline := true
  gfxH264 := true
  gfxAvc444 := false
  gfxAvc444v2 := false

/-- The AVC444 modes have a switch each. -/
def CodecSwitches.allows (s : CodecSwitches) : SendMode → Bool
  | .gfxAvc444 => s.gfxAvc444
  | .gfxAvc444v2 => s.gfxAvc444v2
  | _ => true

/-- The set offers AVC444 to a client that is not from Apple. -/
def CapSet.offersAvc444 (cap : CapSet) : Bool :=
  capVersion10 ≤ cap.version && cap.flags &&& capsFlagAvcDisabled = 0

theorem capRank_le_two_iff (mac : Bool) (cap : CapSet) :
    capRank mac cap ≤ 2 ↔ (!mac && cap.offersAvc444) = false := by
  rw [capRank, CapSet.offersAvc444]
  by_cases h10 : capVersion10 ≤ cap.version
  · rw [if_pos h10, decide_eq_true h10, Bool.true_and]
    by_cases havc : cap.flags &&& capsFlagAvcDisabled = 0
    · rw [if_pos havc, decide_eq_true havc, Bool.and_true]
      cases mac with
      | true =>
        rw [if_pos rfl]
        exact iff_of_true (by decide) rfl
      | false =>
        rw [if_neg (by decide)]
        split <;> decide
    · rw [if_neg havc, decide_eq_false havc, Bool.and_false]
      exact iff_of_true (by decide) rfl
  · rw [if_neg h10, decide_eq_false h10, Bool.false_and, Bool.and_false]
    apply iff_of_true _ rfl
    split
    · decide
    · split <;> decide

theorem allows_iff_level (mode : SendMode) :
    rdpPeerInitSwitches.allows mode = true ↔ mode.level ≤ 2 := by
  cases mode <;> decide

/-- The selected mode is one that is switched on unless the client offers AVC444. -/
theorem allows_advertisedMode (settings : Settings) (caps : List CapSet) :
    rdpPeerInitSwitches.allows (advertisedMode settings caps) = true ↔
      (!isMacosClient settings.osMajorType && caps.any (·.offersAvc444)) = false := by
  by_cases hne : caps = []
  · subst hne
    rw [List.any_nil, Bool.and_false]
    exact iff_of_true rfl rfl
  obtain ⟨cap, _, hscan, hm, _⟩ :=
    scanCaps_spec (isMacosClient settings.osMajorType) hne
  rw [advertisedMode, hscan, allows_iff_level, level_modeOfRank]
  have hall : capRank (isMacosClient settings.osMajorType) cap ≤ 2 ↔
      ∀ other ∈ caps, capRank (isMacosClient settings.osMajorType) other ≤ 2 := by
    constructor
    · intro hle other ho
      exact (List.le_of_mem_argmax ho hm).trans hle
    · intro hle
      exact hle cap (List.argmax_mem hm)
  rw [hall]
  simp only [capRank_le_two_iff]
  cases isMacosClient settings.osMajorType with
  | true => simp
  | false => simp

/-! ### Where the send mode is stored -/

/-- The values that the event stores in `send_mode`, in order. -/
def Worker.storedModes (w : Worker) : Event → List SendMode
  | .capsAdvertise caps r => w.client.toList.flatMap fun c =>
    advertisedMode c.settings caps ::
      if r.capsConfirm && c.ctx.gfxSurfaceId = 0 && !r.surface.ok then [.surfaceBits] else []
  | _ => []

/-- The attached client has a send mode with the property. -/
def ModeIn (A : SendMode → Prop) (w : Worker) : Prop :=
  ∀ c, w.client = some c → A c.ctx.sendMode

theorem ModeIn.congr (h : ModeIn A w) (hc : w'.client = w.client) : ModeIn A w' := by
  intro c hc'
  exact h c (hc.symm.trans hc')

theorem ModeIn.setPeer {c c' : Client} (h : ModeIn A w) (hc : w.client = some c)
    (hp : p.ctx.sendMode = c.ctx.sendMode) : ModeIn A (w.setPeer c' p) := by
  intro c₁ hc₁
  cases hc₁
  change A p.ctx.sendMode
  rw [hp]
  exact h c hc

theorem ModeIn.onPeer (h : ModeIn A w) {f : Peer → Peer}
    (hf : ∀ p, (f p).ctx.sendMode = p.ctx.sendMode) : ModeIn A (w.onPeer f) := by
  rw [Worker.onPeer]
  cases hc : w.client with
  | none => exact h
  | some c => exact h.setPeer hc (hf _)

theorem ModeIn.attached (hA : A .surfaceBits) (h : ModeIn A w) : ModeIn A (attachClient w r) := by
  rw [attachClient]
  split
  · exact h
  · dsimp only
    split
    · exact h.congr rfl
    · intro c hc
      cases hc
      exact hA

theorem ModeIn.disconnected : ModeIn A (disconnectClient w) := fun _ hc => by cases hc

theorem rdpPeerUpdateSize_mode (p : Peer) (width height : UInt32) (r : SurfaceSetup) :
    (rdpPeerUpdateSize p width height r).ctx.sendMode = p.ctx.sendMode := by
  simp only [rdpPeerUpdateSize]
  split
  · obtain ⟨out, _, he⟩ := gfxCreateSurface_shape
      { p with ctx.width := width, ctx.height := height } width height r
    rw [he]
  · rfl

theorem gfxOpen_mode (p : Peer) (r : ChannelSetup) :
    (gfxOpen p r).2.ctx.sendMode = p.ctx.sendMode := by
  rw [gfxOpen]
  split
  · rfl
  · dsimp only
    split <;> rfl

theorem CheckStep.mode (hs : CheckStep p r ok p') : p'.ctx.sendMode = p.ctx.sendMode := by
  cases hs with
  | settled => rfl
  | handshaking => rfl
  | fallback _ _ _ _ hp => exact (cleaned_of_eq hp).sendMode
  | opened => exact (openChannels_sameGfx p r).sendMode.trans (gfxOpen_mode p r.gfx)

/-- An advertisement leaves the client with a mode that it stored. -/
theorem CapsStep.mode_mem {c : Client} (hc : w.client = some c)
    (hs : CapsStep (w.peer c) (advertisedMode c.settings caps) r p') :
    p'.ctx.sendMode ∈ w.storedModes (.capsAdvertise caps r) := by
  have hstored : w.storedModes (.capsAdvertise caps r) = advertisedMode c.settings caps ::
      if r.capsConfirm && c.ctx.gfxSurfaceId = 0 && !r.surface.ok then [.surfaceBits] else [] := by
    rw [Worker.storedModes, hc]
    exact List.append_nil _
  rw [hstored]
  cases hs with
  | unconfirmed => exact List.mem_cons_self
  | kept => exact List.mem_cons_self
  | created => exact List.mem_cons_self
  | fallback hconf hok _ _ hid hp =>
    have hmode : p'.ctx.sendMode = .surfaceBits := (cleaned_of_eq hp).sendMode
    have hid' : c.ctx.gfxSurfaceId = 0 := hid
    rw [hmode, hconf, hok, decide_eq_true hid']
    exact List.mem_cons_of_mem _ List.mem_cons_self

theorem ModeIn.resized (h : ModeIn A w) : ModeIn A (onPeerResize w width height scale r) := by
  cases hs : w.sameSize width height with
  | true =>
    rw [onPeerResize_same hs]
    exact h
  | false =>
    have hresized : ModeIn A (w.resizeTo (roundUp16 width) (roundUp16 height) scale r) := by
      have hsent : ModeIn A (w.emit (.wlrRandr (roundUp16 width) (roundUp16 height) scale
          r.wlrRandr)) := h
      have hsized : ModeIn A { w.emit (.wlrRandr (roundUp16 width) (roundUp16 height) scale
          r.wlrRandr) with width := roundUp16 width, height := roundUp16 height } := hsent
      exact hsized.onPeer fun p => rdpPeerUpdateSize_mode p _ _ r.surface
    rw [onPeerResize_eq hs]
    dsimp only
    split
    · exact hresized
    · exact hresized

theorem ModeIn.frame (h : ModeIn A w) (hs : FrameStep w px width height stride r w') :
    ModeIn A w' := by
  cases hs with
  | ignored => exact h
  | throttled _ _ hw =>
    subst hw
    exact h
  | unsent _ _ _ hw =>
    subst hw
    exact h
  | @sent c enc p _ _ _ hc _ hp _ _ hw =>
    subst hw hp
    have hsent : ModeIn A (w.setPeer c (rdpPeerSendFrame (w.peer c) enc.frame width height
        r.send).2) := by
      apply h.setPeer hc
      obtain ⟨ok, n, out, he⟩ := rdpPeerSendFrame_shape (w.peer c) enc.frame width height r.send
      rw [he]
      rfl
    exact hsent

/-- Only an advertisement stores a mode in the context of a peer. -/
theorem PeerMove.mode (h : PeerMove e p p') : p'.ctx.sendMode = p.ctx.sendMode ∨
    ∃ caps r, e = .capsAdvertise caps r ∧ p' = gfxCapsAdvertise p caps r := by
  cases h with
  | same => exact .inl rfl
  | connected r => exact .inl (onPostConnect_step p r).sendMode
  | activated => exact .inl rfl
  | advertised caps r he => exact .inr ⟨caps, r, he, rfl⟩
  | rdpsnd formats => exact .inl (onRdpsndActivated_sameGfx p formats).sendMode
  | audio n ok => exact .inl (rdpPeerSendAudio_sameGfx p n ok).sendMode
  | checked hs => exact .inl hs.mode

theorem ModeIn.changed (h : ModeIn A w) (hA : A .surfaceBits) (hs : Change w w') :
    ModeIn A w' := by
  cases hs with
  | resized => exact h.resized
  | attached => exact h.attached hA
  | disconnected => exact .disconnected

theorem ModeIn.moved (h : ModeIn A w) (hA : A .surfaceBits)
    (hstored : ∀ mode ∈ w.storedModes e, A mode) (hs : Move w e w') : ModeIn A w' := by
  cases hs with
  | aside hs => exact h.congr hs.client
  | client c' hc hp =>
    rcases hp.mode with hmode | ⟨caps, r, rfl, rfl⟩
    · exact h.setPeer hc hmode
    · intro c₁ hc₁
      cases hc₁
      exact hstored _ ((gfxCapsAdvertise_step _ caps r).mode_mem hc)
  | changed hs => exact h.changed hA hs
  | started c r =>
    rw [startCapture_eq, beginCaptureIf]
    split
    · exact h
    · exact h
  | framed hs hf => exact (h.congr hs.client).frame hf

/-- A handler leaves the attached client with its mode, with SurfaceBits, or with one that it
stored. -/
theorem ModeIn.step (h : ModeIn A w) (hA : A .surfaceBits)
    (hstored : ∀ mode ∈ w.storedModes e, A mode) (hs : Handled w e w') : ModeIn A w' := by
  cases hs with
  | moved hs => exact h.moved hA hstored hs
  | followed hs hs' => exact (h.moved hA hstored hs).changed hA hs'
  | exited => exact fun _ hc => by cases hc

/-! ### The switches over whole runs -/

/-- The client offers AVC444 and is not one for which the session avoids it. -/
def Worker.offersAvc444 (w : Worker) : Event → Bool
  | .capsAdvertise caps _ => w.client.any fun c =>
    !isMacosClient c.settings.osMajorType && caps.any (·.offersAvc444)
  | _ => false

/-- Neither the send mode nor the encoder is one that is switched off. -/
structure HonoursSwitches (w : Worker) : Prop where
  mode : ModeIn (fun mode => rdpPeerInitSwitches.allows mode = true) w
  encoder : w.encoderInitialized = true → w.encoder.avc444Version = 0

theorem HonoursSwitches.start :
    HonoursSwitches (.start standalone clipboard audio width height) :=
  ⟨fun _ hc => (by cases hc), fun hi => (by cases hi)⟩

/-- What is stored is allowed exactly if AVC444 is not offered. -/
theorem storedModes_allowed_iff (w : Worker) (e : Event) :
    (∀ mode ∈ w.storedModes e, rdpPeerInitSwitches.allows mode = true) ↔
      w.offersAvc444 e = false := by
  cases e with
  | capsAdvertise caps r =>
    rw [Worker.storedModes, Worker.offersAvc444]
    cases w.client with
    | none => exact iff_of_true (List.forall_mem_nil _) rfl
    | some c =>
      rw [Option.any_some, ← allows_advertisedMode]
      constructor
      · intro h
        exact h _ (List.mem_append_left _ List.mem_cons_self)
      · intro h mode hm
        rw [Option.toList_some, List.flatMap_singleton] at hm
        rcases List.mem_cons.1 hm with rfl | hm
        · exact h
        · split at hm
          · rw [List.mem_singleton.1 hm]
            rfl
          · cases hm
  | _ => exact iff_of_true (List.forall_mem_nil _) rfl

theorem HonoursSwitches.version (h : HonoursSwitches w) : w.encoderRequest.2 = 0 := by
  rw [Worker.encoderRequest]
  cases hc : w.client with
  | none => rfl
  | some c =>
    have hallowed : rdpPeerInitSwitches.allows (rdpPeerGetSendMode c.ctx) = true := by
      rw [rdpPeerGetSendMode]
      split
      · rfl
      · exact h.mode c hc
    simp only [Client.encoderRequest]
    cases hg : rdpPeerGetSendMode c.ctx with
    | surfaceBits => cases c.settings.nscodec <;> rfl
    | gfxAvc420 => rfl
    | gfxProgressive => rfl
    | gfxAvc444 =>
      rw [hg] at hallowed
      cases hallowed
    | gfxAvc444v2 =>
      rw [hg] at hallowed
      cases hallowed

theorem HonoursSwitches.framed (h : HonoursSwitches w)
    (hs : FrameStep w px width height stride r w') :
    w'.encoderInitialized = true → w'.encoder.avc444Version = 0 := by
  cases hs with
  | ignored => exact h.encoder
  | throttled _ _ hw =>
    subst hw
    exact h.encoder
  | unsent _ _ he hw =>
    subst hw
    exact fun hi => (encoderEncode_spec he).setup.version.trans (h.encoder hi)
  | sent _ _ _ he _ _ _ hw =>
    subst hw
    exact fun hi => (encoderEncode_spec he).setup.version.trans (h.encoder hi)

/-- The encoder keeps its version, or is set up for the mode of the client. -/
theorem HonoursSwitches.media (h : HonoursSwitches w) (hs : MediaStep w e w') :
    w'.encoderInitialized = true → w'.encoder.avc444Version = 0 := by
  cases hs with
  | kept _ hs =>
    rw [hs.encoderInitialized, hs.encoder]
    exact h.encoder
  | rerouted hs =>
    rw [hs.encoderInitialized, hs.encoder]
    exact h.encoder
  | resized _ _ hs =>
    intro hi
    rw [hs.encoderInitialized] at hi
    exact (hs.encoder hi).version.trans h.version
  | began r _ hs => exact fun _ => hs.encoder.version.trans h.version
  | left _ hs =>
    intro hi
    rw [hs.encoderInitialized] at hi
    cases hi
  | frameBuffer => exact h.encoder
  | frameBufferDone => exact h.encoder
  | frameReady id r =>
    have hdone : HonoursSwitches (w.finishFrame id) := ⟨h.mode, h.encoder⟩
    exact hdone.framed (frameReady_step w id r)
  | frameFailed => exact h.encoder
  | exited =>
    intro hi
    change w.encoderInitialized = true at hi
    simp only [Wlrdp.cleanup]
    rw [hi]
    rfl

theorem honoursSwitches_step (h : HonoursSwitches w) (hs : MediaStep w e (w.step e))
    (hc : w.offersAvc444 e = false) : HonoursSwitches (w.step e) :=
  ⟨h.mode.step rfl ((storedModes_allowed_iff w e).2 hc) (handled_step w e), h.media hs⟩

/-- A session never stores an AVC444 mode and never sets up its encoder for one, exactly if no
client is offered AVC444 and is not kept from it. -/
theorem codec_switches_honoured_iff (standalone clipboard audio : Bool) (width height : UInt32)
    (hl : worker.Legal (.start standalone clipboard audio width height) es) :
    worker.Along (fun w e => ∀ mode ∈ w.storedModes e, rdpPeerInitSwitches.allows mode = true)
        (.start standalone clipboard audio width height) es ∧
      worker.Always HonoursSwitches (.start standalone clipboard audio width height) es ↔
    worker.Along (fun w e => w.offersAvc444 e = false)
      (.start standalone clipboard audio width height) es := by
  have hstored : worker.Along
      (fun w e => ∀ mode ∈ w.storedModes e, rdpPeerInitSwitches.allows mode = true)
        (.start standalone clipboard audio width height) es ↔
      worker.Along (fun w e => w.offersAvc444 e = false)
        (.start standalone clipboard audio width height) es :=
    System.along_congr (I := fun _ => True) (fun _ _ _ _ => trivial)
      (fun w e _ _ => storedModes_allowed_iff w e) trivial hl
  constructor
  · intro h
    exact hstored.1 h.1
  · intro h
    refine ⟨hstored.2 h, ?_⟩
    have hinv : worker.Always (fun w => WorkerInv w ∧ HonoursSwitches w)
        (.start standalone clipboard audio width height) es := by
      refine System.always_of_step ?_ ⟨.start, .start⟩ (hl.and h)
      rintro w e ⟨hi, hw⟩ ⟨he, hc⟩
      exact ⟨workerInv_step w e hi he, honoursSwitches_step hw (step_sound hi he).media hc⟩
    exact hinv.mono fun _ h => h.2

/-- A client that is served over its graphics channel after it has advertised the list. -/
def advertisingClient (caps : List CapSet) : List Event :=
  [.peerAccepted (.accepted (.basic 800 600 true true)), .postConnect ⟨some 1, true, none⟩,
    .checkVcm ⟨true, .ready, ⟨some 2, true⟩, ⟨none, false⟩, ⟨none, false⟩, ⟨none, false, false⟩,
      true⟩,
    .capsAdvertise caps ⟨true, ⟨true, true, true⟩, true⟩, .activate .done,
    .startCapture ⟨.working, true⟩]

theorem codec_switches_honoured_iff_avc420 :
    worker.Along (fun w e => ∀ mode ∈ w.storedModes e, rdpPeerInitSwitches.allows mode = true)
        (.start true false false 800 600) (advertisingClient [⟨capVersion81, 0x10⟩]) ∧
      worker.Always HonoursSwitches (.start true false false 800 600)
        (advertisingClient [⟨capVersion81, 0x10⟩]) ↔
    worker.Along (fun w e => w.offersAvc444 e = false) (.start true false false 800 600)
      (advertisingClient [⟨capVersion81, 0x10⟩]) :=
  codec_switches_honoured_iff true false false 800 600 (by decide +kernel)

/-- A client with version 10.7 gets AVC444v2, and the encoder is set up for it. -/
theorem avc444v2_in_spite_of_switches :
    worker.Legal (.start true false false 800 600) (advertisingClient [⟨capVersion107, 0⟩]) ∧
      ¬HonoursSwitches (worker.run (.start true false false 800 600)
        (advertisingClient [⟨capVersion107, 0⟩])) := by
  have hlegal : worker.Legal (.start true false false 800 600)
      (advertisingClient [⟨capVersion107, 0⟩]) := by decide +kernel
  have hversion : (worker.run (.start true false false 800 600)
      (advertisingClient [⟨capVersion107, 0⟩])).encoder.avc444Version = 2 := by decide +kernel
  have hinit : (worker.run (.start true false false 800 600)
      (advertisingClient [⟨capVersion107, 0⟩])).encoderInitialized = true := by decide +kernel
  refine ⟨hlegal, fun h => ?_⟩
  have hzero := h.encoder hinit
  rw [hversion] at hzero
  cases hzero

end Wlrdp
