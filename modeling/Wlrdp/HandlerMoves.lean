import Wlrdp.WorkerSoundness

namespace Wlrdp
set_option autoImplicit true

/-- The desktop, the attached client and the encoder are as before. -/
structure Aside (w w' : Worker) : Prop where
  size : w'.width = w.width ∧ w'.height = w.height
  inputSize : w'.inputWidth = w.inputWidth ∧ w'.inputHeight = w.inputHeight
  client : w'.client = w.client
  encoder : w'.encoder = w.encoder
  encoderInitialized : w'.encoderInitialized = w.encoderInitialized
  exited : w'.exited = w.exited

theorem Aside.refl (w : Worker) : Aside w w := ⟨⟨rfl, rfl⟩, ⟨rfl, rfl⟩, rfl, rfl, rfl, rfl⟩

/-- What a callback makes of the attached peer. -/
inductive PeerMove (e : Event) (p : Peer) : Peer → Prop
  | same : PeerMove e p p
  | connected (r : VcmSetup) : PeerMove e p (onPostConnect p r)
  | activated : PeerMove e p { p with ctx.activated := true }
  | advertised (caps : List CapSet) (r : CapsResult) (he : e = .capsAdvertise caps r) :
      PeerMove e p (gfxCapsAdvertise p caps r)
  | rdpsnd (formats : List AudioFormat) : PeerMove e p (onRdpsndActivated p formats)
  | audio (n : UInt32) (ok : Bool) : PeerMove e p (rdpPeerSendAudio p n ok).2
  | checked (h : CheckStep p r ok p') : PeerMove e p p'

/-- What a handler may do after something else. -/
inductive Change (w : Worker) : Worker → Prop
  | resized (width height scale : UInt32) (r : ResizeTurn) :
      Change w (onPeerResize w width height scale r)
  | attached (r : AttachTurn) : Change w (attachClient w r)
  | disconnected : Change w (disconnectClient w)

/-- What a handler does first. -/
inductive Move (w : Worker) (e : Event) : Worker → Prop
  | aside (h : Aside w w') : Move w e w'
  | client (c' : Client) (hc : w.client = some c) (h : PeerMove e (w.peer c) p) :
      Move w e (w.setPeer c' p)
  | changed (h : Change w w') : Move w e w'
  | started (c : Client) (r : ActivationTurn) : Move w e (startCapture w c r)
  | framed (h : Aside w u) (hs : FrameStep u px width height stride r w') : Move w e w'

/-- What an event does: a handler makes one move, or a move and a change, and `cleanup` ends
the session. -/
inductive Handled (w : Worker) (e : Event) : Worker → Prop
  | moved (h : Move w e w') : Handled w e w'
  | followed (h : Move w e u) (h' : Change u w') : Handled w e w'
  | exited (he : e = .cleanup) : Handled w e (cleanup w)

variable {w w' : Worker} {e : Event}

theorem Handled.aside (h : Aside w w') : Handled w e w' := .moved (.aside h)

theorem Handled.resized : Handled w e (onPeerResize w width height scale r) :=
  .moved (.changed (.resized ..))

theorem Handled.onPeer {f : Peer → Peer} (hf : ∀ p, PeerMove e p (f p)) :
    Handled w e (w.onPeer f) := by
  simp only [Worker.onPeer]
  cases hc : w.client with
  | none => exact .aside (.refl w)
  | some c => exact .moved (.client c hc (hf _))

theorem handled_step (w : Worker) (e : Event) : Handled w e (w.step e) := by
  have hidle : Handled w e w := .aside (.refl w)
  cases e with
  | peerAccepted r =>
    change Handled w _ (onPeerAccepted w r)
    rw [onPeerAccepted]
    split
    · exact hidle
    · exact .moved (.changed (.attached r))
  | ipcMessage msg r =>
    change Handled w _ (acceptIpcClient w msg r)
    simp only [acceptIpcClient]
    split
    · exact .aside ⟨⟨rfl, rfl⟩, ⟨rfl, rfl⟩, rfl, rfl, rfl, rfl⟩
    split
    · exact .aside ⟨⟨rfl, rfl⟩, ⟨rfl, rfl⟩, rfl, rfl, rfl, rfl⟩
    split
    · exact hidle
    split
    · exact .moved (.changed .disconnected)
    · exact .followed (.changed .disconnected) (.attached r)
  | settings s =>
    apply onClient_cases hidle
    intro c hc
    exact .moved (.client { c with settings := s } hc .same)
  | postConnect r =>
    apply onClient_cases hidle
    intro c hc
    exact .moved (.client { c with connected := true } hc (.connected r))
  | activate r =>
    apply onClient_cases hidle
    intro c hc
    have hactive : Move w (.activate r) { w with client := some { c with ctx.activated := true } } :=
      .client c hc .activated
    simp only [onActivate]
    split
    · exact .followed hactive (.resized ..)
    · exact .moved hactive
  | desktopResize r => exact onClient_cases hidle fun c _ => .resized
  | remoteMonitors ms r =>
    apply onClient_cases hidle
    intro c _
    cases ms with
    | nil => exact hidle
    | cons m ms => exact .resized
  | dispMonitorLayout ms r =>
    cases ms with
    | nil => exact hidle
    | cons m ms => exact .resized
  | capsAdvertise caps r => exact .onPeer fun p => .advertised caps r rfl
  | rdpsndActivated formats => exact .onPeer fun p => .rdpsnd formats
  | audioData n ok =>
    change Handled w _ (onAudioData w n ok)
    simp only [onAudioData]
    split
    · exact hidle
    · exact .onPeer fun p => .audio n ok
  | wlClipboardChanged =>
    change Handled w _ (onWlClipboardChanged w)
    simp only [onWlClipboardChanged]
    split
    · exact hidle
    split
    · exact hidle
    · exact .aside ⟨⟨rfl, rfl⟩, ⟨rfl, rfl⟩, rfl, rfl, rfl, rfl⟩
  | clipboardFailed => exact .aside ⟨⟨rfl, rfl⟩, ⟨rfl, rfl⟩, rfl, rfl, rfl, rfl⟩
  | checkFailed => exact .moved (.changed .disconnected)
  | updateClient =>
    apply onClient_cases hidle
    intro c _
    simp only [epollAddVcm]
    split
    · exact hidle
    · exact .aside ⟨⟨rfl, rfl⟩, ⟨rfl, rfl⟩, rfl, rfl, rfl, rfl⟩
  | checkVcm r =>
    apply onClient_cases hidle
    intro c hc
    simp only [checkVcm]
    cases hp : rdpPeerCheckVcm (w.peer c) r with
    | mk ok p =>
      have hchecked : Move w (.checkVcm r) (w.setPeer c p) :=
        .client c hc (.checked (rdpPeerCheckVcm_step hp))
      cases ok with
      | true => exact .moved hchecked
      | false => exact .followed hchecked .disconnected
  | startCapture r => exact onClient_cases hidle fun c _ => .moved (.started c r)
  | frameBuffer id a b s r => exact .aside ⟨⟨rfl, rfl⟩, ⟨rfl, rfl⟩, rfl, rfl, rfl, rfl⟩
  | frameBufferDone id => exact .aside ⟨⟨rfl, rfl⟩, ⟨rfl, rfl⟩, rfl, rfl, rfl, rfl⟩
  | frameReady id r =>
    have hdone : Aside w (w.finishFrame id) := ⟨⟨rfl, rfl⟩, ⟨rfl, rfl⟩, rfl, rfl, rfl, rfl⟩
    exact .moved (.framed hdone (frameReady_step w id r))
  | frameFailed id => exact .aside ⟨⟨rfl, rfl⟩, ⟨rfl, rfl⟩, rfl, rfl, rfl, rfl⟩
  | signal => exact .aside ⟨⟨rfl, rfl⟩, ⟨rfl, rfl⟩, rfl, rfl, rfl, rfl⟩
  | cleanup => exact .exited rfl

end Wlrdp
