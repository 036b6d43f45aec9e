import Wlrdp.DecimalValues
import Wlrdp.DisplayNames
import Wlrdp.KeyedUpdates
import Wlrdp.PeerOutputs
import Wlrdp.SizeCoherence

namespace Wlrdp
set_option autoImplicit true

variable {w w' : Worker} {e : Event}

/-! ### Requests and the screen -/

/-- What a callback hands to `on_peer_resize`. -/
structure ResizeRequest where
  width : UInt32
  height : UInt32
  scale : UInt32
deriving DecidableEq

/-- The request that the event makes: `on_activate` makes none if the peer has the size. -/
def Worker.resizeRequest (w : Worker) : Event → Option ResizeRequest
  | .activate _ => w.client.bind fun c =>
    if c.settings.desktopWidth ≠ c.ctx.width ∨ c.settings.desktopHeight ≠ c.ctx.height then
      some ⟨c.settings.desktopWidth, c.settings.desktopHeight, getDesktopScale c.settings⟩
    else none
  | .desktopResize _ => w.client.map fun c =>
    ⟨c.settings.desktopWidth, c.settings.desktopHeight, getDesktopScale c.settings⟩
  | .remoteMonitors (m :: _) _ => w.client.map fun c =>
    ⟨m.right - m.left + 1, m.bottom - m.top + 1, getDesktopScale c.settings⟩
  | .dispMonitorLayout (m :: _) _ =>
    some ⟨m.width, m.height, if m.desktopScaleFactor = 0 then 100 else m.desktopScaleFactor⟩
  | _ => none

/-- The requests of a run, in order. -/
def Worker.requests (w : Worker) : List Event → List ResizeRequest
  | [] => []
  | e :: es => (w.resizeRequest e).toList ++ (w.step e).requests es

/-- The output of the compositor: its mode and its scale factor. -/
structure Screen where
  width : UInt32
  height : UInt32
  scale : ℚ
deriving DecidableEq

def Screen.mode (s : Screen) : UInt32 × UInt32 := (s.width, s.height)

/-- The screen after a `wlr-randr`, which sets the mode and the scale that its arguments write, or
changes nothing when it fails. -/
def Screen.apply (s : Screen) : Output → Screen
  | .wlrRandr width height scale ok =>
    if ok then ⟨width, height, readDecimal (formatScale scale)⟩ else s
  | _ => s

/-- The screen that started as `s`. -/
def Worker.screen (w : Worker) (s : Screen) : Screen := w.out.foldl Screen.apply s

/-- What `q` asks for: the rounded size, and the scale in percent. -/
def ResizeRequest.screen (q : ResizeRequest) : Screen :=
  ⟨roundUp16 q.width, roundUp16 q.height, q.scale.toNat / 100⟩

/-- What the command of `q` sets. -/
def ResizeRequest.commanded (q : ResizeRequest) : Screen :=
  ⟨roundUp16 q.width, roundUp16 q.height, readDecimal (formatScale q.scale)⟩

/-- Every `wlr-randr` that the event runs succeeds. -/
def Event.randrSucceeds : Event → Bool
  | .activate r | .desktopResize r | .remoteMonitors _ r | .dispMonitorLayout _ r => r.wlrRandr
  | _ => true

/-- The compositor, the session, the attached peer and the input module show what `q` asks
for. -/
structure Shows (s : Screen) (q : ResizeRequest) (w : Worker) : Prop where
  screen : w.screen s = q.screen
  session : (w.width, w.height) = q.screen.mode
  peer : ∀ c, w.client = some c → (c.ctx.width, c.ctx.height) = q.screen.mode
  input : (w.inputWidth, w.inputHeight) = q.screen.mode

/-- After the events all is as `q` asks for, and so it would be after `q` alone. -/
def LastWins (s : Screen) (w : Worker) (events : List Event) (q : ResizeRequest) : Prop :=
  Shows s q (worker.run w events) ∧
    ∀ r, r.wlrRandr = true → Shows s q (onPeerResize w q.width q.height q.scale r)

/-- The screens since the mode of `q` was taken for the last time: after the earlier requests, back
to the first one. -/
def sinceMode (current : Screen) (earlier : List ResizeRequest) (q : ResizeRequest) : List Screen :=
  sinceKey Screen.mode q.screen.mode (current :: earlier.map (·.commanded))

/-- The screen had the scale of `q` when it last took the mode of `q`, after the earlier requests
and also before them; and where it takes the mode only with `q`, the command can write the
scale. -/
structure ScaleReached (current : Screen) (earlier : List ResizeRequest) (q : ResizeRequest) :
    Prop where
  taken : ∀ t ∈ (sinceMode current earlier q).head?, t.scale = q.screen.scale
  before : current.mode = q.screen.mode → current.scale = q.screen.scale
  written : sinceMode current earlier q = [] ∨ current.mode ≠ q.screen.mode →
    SixDigits q.scale.toNat

/-! ### What a handler does to the screen -/

/-- The session said nothing to the screen. -/
def SameScreen (out out' : List Output) : Prop :=
  ∀ s : Screen, out'.foldl Screen.apply s = out.foldl Screen.apply s

theorem SameScreen.say (h : ∀ s : Screen, s.apply o = s) : SameScreen out (out ++ [o]) := by
  intro s
  rw [List.foldl_concat]
  exact h _

theorem PeerSays.screen (h : PeerSays p p') : SameScreen p.out p'.out := by
  obtain ⟨new, hout, hnew⟩ := h
  intro s
  rw [hout, List.foldl_append]
  generalize p.out.foldl Screen.apply s = t
  clear hout
  induction new with
  | nil => rfl
  | cons o new ih =>
    have ho : t.apply o = t := by
      have hpeer := hnew o List.mem_cons_self
      cases o with
      | wlrRandr => cases hpeer
      | _ => rfl
    rw [List.foldl_cons, ho]
    exact ih fun o' ho' => hnew o' (List.mem_cons_of_mem _ ho')

/-- The session's size and the screen are as before. -/
structure SameDisplay (w w' : Worker) : Prop where
  width : w'.width = w.width
  height : w'.height = w.height
  screen : SameScreen w.out w'.out

/-- What an event does to the display: nothing, or what `on_peer_resize` does with its request. -/
inductive DisplayStep (w : Worker) : Option ResizeRequest → Worker → Prop
  | kept (h : SameDisplay w v) : DisplayStep w none v
  | asked (q : ResizeRequest) (h : SameDisplay w u) (hr : r.wlrRandr = true) :
      DisplayStep w (some q) (onPeerResize u q.width q.height q.scale r)

theorem SameDisplay.refl (w : Worker) : SameDisplay w w := ⟨rfl, rfl, fun _ => rfl⟩

theorem SameDisplay.trans (h : SameDisplay w u) (h' : SameDisplay u w') : SameDisplay w w' :=
  ⟨h'.width.trans h.width, h'.height.trans h.height, fun s => (h'.screen s).trans (h.screen s)⟩

/-- Nothing was said, and the size was left alone. -/
theorem SameDisplay.quiet (hw : w'.width = w.width) (hh : w'.height = w.height)
    (ho : w'.out = w.out) : SameDisplay w w' := ⟨hw, hh, fun _ => by rw [ho]⟩

theorem SameDisplay.setPeer {c c' : Client} (h : PeerSays (w.peer c) p) :
    SameDisplay w (w.setPeer c' p) := ⟨rfl, rfl, h.screen⟩

theorem SameDisplay.onPeer (w : Worker) {f : Peer → Peer} (hf : ∀ p, PeerSays p (f p)) :
    SameDisplay w (w.onPeer f) := by
  simp only [Worker.onPeer]
  split
  · exact .refl w
  · exact .setPeer (hf _)

theorem disconnectClient_display (w : Worker) : SameDisplay w (disconnectClient w) := by
  refine ⟨rfl, rfl, fun s => ?_⟩
  change (w.out ++ if w.standalone then [] else [Output.status .disconnected]).foldl _ s = _
  split
  · rw [List.append_nil]
  · exact SameScreen.say (fun _ => rfl) s

theorem cleanup_display (w : Worker) : SameDisplay w (cleanup w) := by
  refine ⟨rfl, rfl, fun s => ?_⟩
  change (w.out ++ if w.standalone then [] else [Output.status .terminated]).foldl _ s = _
  split
  · rw [List.append_nil]
  · exact SameScreen.say (fun _ => rfl) s

theorem attachClient_display (w : Worker) (r : AttachTurn) : SameDisplay w (attachClient w r) := by
  rw [attachClient]
  split
  · exact .refl w
  · dsimp only
    split
    · exact .quiet rfl rfl rfl
    · exact .quiet rfl rfl rfl

theorem startCapture_display (w : Worker) (c : Client) (r : ActivationTurn) :
    SameDisplay w (startCapture w c r) := by
  rw [startCapture_eq, beginCaptureIf]
  split
  · exact .quiet rfl rfl rfl
  · exact .refl w

theorem FrameStep.display (hs : FrameStep w px width height stride r w') : SameDisplay w w' := by
  cases hs with
  | ignored => exact .refl w
  | throttled _ _ hw =>
    subst hw
    exact .quiet rfl rfl rfl
  | unsent _ _ _ hw =>
    subst hw
    exact .quiet rfl rfl rfl
  | @sent c enc p _ _ _ _ _ hp _ _ hw =>
    subst hw hp
    have hsent : SameDisplay w (w.setPeer c
        (rdpPeerSendFrame (w.peer c) enc.frame width height r.send).2) :=
      .setPeer (rdpPeerSendFrame_speaks ..)
    exact ⟨hsent.width, hsent.height, hsent.screen⟩

theorem onClient_display {f : Client → Worker} (hf : ∀ c, w.client = some c → SameDisplay w (f c)) :
    SameDisplay w (w.onClient f) := onClient_cases (.refl w) hf

/-- A handler that makes no request leaves the display alone; the other four end in
`on_peer_resize`. -/
theorem display_step (hr : e.randrSucceeds = true) :
    DisplayStep w (w.resizeRequest e) (w.step e) := by
  cases e with
  | peerAccepted r =>
    apply DisplayStep.kept
    change SameDisplay w (onPeerAccepted w r)
    rw [onPeerAccepted]
    split
    · exact .refl w
    · exact attachClient_display w r
  | ipcMessage msg r =>
    apply DisplayStep.kept
    change SameDisplay w (acceptIpcClient w msg r)
    simp only [acceptIpcClient]
    split
    · exact .quiet rfl rfl rfl
    split
    · exact .quiet rfl rfl rfl
    split
    · exact .refl w
    split
    · exact disconnectClient_display w
    · exact (disconnectClient_display w).trans (attachClient_display ..)
  | settings s => exact .kept (onClient_display fun c _ => .quiet rfl rfl rfl)
  | postConnect r =>
    exact .kept (onClient_display fun c _ => .setPeer (onPostConnect_speaks (w.peer c) r))
  | activate r =>
    change DisplayStep w _ (w.onClient fun c => onActivate w c r)
    simp only [Worker.resizeRequest, Worker.onClient]
    cases hc : w.client with
    | none => exact .kept (.refl w)
    | some c =>
      have hactive : SameDisplay w { w with client := some { c with ctx.activated := true } } :=
        .quiet rfl rfl rfl
      simp only [Option.bind_some, onActivate]
      split
      · exact .asked ⟨_, _, _⟩ hactive hr
      · exact .kept hactive
  | desktopResize r =>
    change DisplayStep w _ (w.onClient fun c => onDesktopResize w c r)
    simp only [Worker.resizeRequest, Worker.onClient]
    cases w.client with
    | none => exact .kept (.refl w)
    | some c => exact .asked ⟨_, _, _⟩ (.refl w) hr
  | remoteMonitors ms r =>
    change DisplayStep w _ (w.onClient fun c => onRemoteMonitors w c ms r)
    cases ms with
    | nil => exact .kept (onClient_display fun c _ => .refl w)
    | cons m ms =>
      simp only [Worker.resizeRequest, Worker.onClient]
      cases w.client with
      | none => exact .kept (.refl w)
      | some c => exact .asked ⟨_, _, _⟩ (.refl w) hr
  | dispMonitorLayout ms r =>
    cases ms with
    | nil => exact .kept (.refl w)
    | cons m ms => exact .asked ⟨_, _, _⟩ (.refl w) hr
  | capsAdvertise caps r => exact .kept (.onPeer w fun p => gfxCapsAdvertise_speaks p caps r)
  | rdpsndActivated formats => exact .kept (.onPeer w fun p => onRdpsndActivated_speaks p formats)
  | audioData n ok =>
    apply DisplayStep.kept
    change SameDisplay w (onAudioData w n ok)
    simp only [onAudioData]
    split
    · exact .refl w
    · exact .onPeer w fun p => rdpPeerSendAudio_speaks p n ok
  | wlClipboardChanged =>
    apply DisplayStep.kept
    change SameDisplay w (onWlClipboardChanged w)
    simp only [onWlClipboardChanged]
    split
    · exact .refl w
    split
    · exact .refl w
    · exact ⟨rfl, rfl, .say fun _ => rfl⟩
  | clipboardFailed => exact .kept (.quiet rfl rfl rfl)
  | checkFailed => exact .kept (disconnectClient_display w)
  | updateClient =>
    apply DisplayStep.kept
    apply onClient_display
    intro c _
    simp only [epollAddVcm]
    split
    · exact .refl w
    · exact .quiet rfl rfl rfl
  | checkVcm r =>
    apply DisplayStep.kept
    apply onClient_display
    intro c _
    simp only [checkVcm]
    cases hp : rdpPeerCheckVcm (w.peer c) r with
    | mk ok p =>
      have hchecked : SameDisplay w (w.setPeer c p) := .setPeer (rdpPeerCheckVcm_step hp).speaks
      cases ok with
      | true => exact hchecked
      | false => exact hchecked.trans (disconnectClient_display _)
  | startCapture r => exact .kept (onClient_display fun c _ => startCapture_display w c r)
  | frameBuffer id a b s r => exact .kept (.quiet rfl rfl rfl)
  | frameBufferDone id => exact .kept (.quiet rfl rfl rfl)
  | frameReady id r =>
    have hdone : SameDisplay w (w.finishFrame id) := .quiet rfl rfl rfl
    exact .kept (hdone.trans (frameReady_step w id r).display)
  | frameFailed id => exact .kept (.quiet rfl rfl rfl)
  | signal => exact .kept (.quiet rfl rfl rfl)
  | cleanup => exact .kept (cleanup_display w)

/-! ### Whole runs -/

/-- The compositor shows the size of the session. -/
def ShowsSize (s : Screen) (w : Worker) : Prop := (w.screen s).mode = (w.width, w.height)

theorem SameDisplay.screen_eq (h : SameDisplay w w') (s : Screen) : w'.screen s = w.screen s :=
  h.screen s

theorem SameDisplay.showsSize (h : SameDisplay w w') (hs : ShowsSize s w) : ShowsSize s w' := by
  rw [ShowsSize, h.screen_eq, h.width, h.height]
  exact hs

theorem sameSize_iff (hs : ShowsSize s w) (q : ResizeRequest) :
    w.sameSize q.width q.height = true ↔ (w.screen s).mode = q.commanded.mode := by
  rw [hs, Worker.sameSize, Bool.and_eq_true, decide_eq_true_eq, decide_eq_true_eq]
  exact Prod.mk.injEq .. ▸ Iff.rfl

theorem resizeTo_screen (w : Worker) (q : ResizeRequest) (hr : r.wlrRandr = true) (s : Screen) :
    (w.resizeTo (roundUp16 q.width) (roundUp16 q.height) q.scale r).screen s = q.commanded := by
  let w₁ : Worker := { w.emit (.wlrRandr (roundUp16 q.width) (roundUp16 q.height) q.scale
    r.wlrRandr) with width := roundUp16 q.width, height := roundUp16 q.height }
  have hset : w₁.screen s = q.commanded := by
    change (w.out ++ [_]).foldl Screen.apply s = _
    rw [List.foldl_concat, Screen.apply, hr]
    rfl
  have hpeer : SameDisplay w₁ (w₁.onPeer fun p =>
      rdpPeerUpdateSize p (roundUp16 q.width) (roundUp16 q.height) r.surface) :=
    .onPeer w₁ fun p => rdpPeerUpdateSize_speaks ..
  exact (hpeer.screen_eq s).trans hset

/-- A request changes the screen unless that has the mode already. -/
theorem onPeerResize_screen (hs : ShowsSize s w) (q : ResizeRequest) (hr : r.wlrRandr = true) :
    (onPeerResize w q.width q.height q.scale r).screen s =
        refresh Screen.mode (w.screen s) q.commanded ∧
      ShowsSize s (onPeerResize w q.width q.height q.scale r) := by
  cases hsame : w.sameSize q.width q.height with
  | true =>
    rw [onPeerResize_same hsame, refresh, if_pos ((sameSize_iff hs q).1 hsame)]
    exact ⟨rfl, hs⟩
  | false =>
    have hne : (w.screen s).mode ≠ q.commanded.mode := by
      intro hmode
      have ht := (sameSize_iff hs q).2 hmode
      rw [hsame] at ht
      cases ht
    have hscreen := resizeTo_screen w q hr s
    have hsize := resizeTo_size w (roundUp16 q.width) (roundUp16 q.height) q.scale r
    rw [onPeerResize_eq hsame, refresh, if_neg hne]
    have hshows : ShowsSize s (w.resizeTo (roundUp16 q.width) (roundUp16 q.height) q.scale r) := by
      rw [ShowsSize, hscreen, hsize.1, hsize.2]
      rfl
    dsimp only
    split
    · exact ⟨hscreen, hshows⟩
    · exact ⟨hscreen, hshows⟩

theorem DisplayStep.screen (hs : ShowsSize s w) (h : DisplayStep w q w') :
    w'.screen s = (q.toList.map (·.commanded)).foldl (refresh Screen.mode) (w.screen s) ∧
      ShowsSize s w' := by
  cases h with
  | kept h => exact ⟨h.screen_eq s, h.showsSize hs⟩
  | asked q h hr =>
    have hresized := onPeerResize_screen (h.showsSize hs) q hr
    rw [h.screen_eq] at hresized
    exact hresized

/-- The screen is a register of modes that the requests of a run refresh. -/
theorem run_screen (hs : ShowsSize s w) (hok : ∀ e ∈ es, e.randrSucceeds = true) :
    (worker.run w es).screen s =
        ((w.requests es).map (·.commanded)).foldl (refresh Screen.mode) (w.screen s) ∧
      ShowsSize s (worker.run w es) := by
  induction es generalizing w with
  | nil => exact ⟨rfl, hs⟩
  | cons e es ih =>
    obtain ⟨hscreen, hsize⟩ := (display_step (w := w) (hok e List.mem_cons_self)).screen hs
    obtain ⟨hrun, hlast⟩ := ih hsize fun e' he' => hok e' (List.mem_cons_of_mem e he')
    refine ⟨?_, hlast⟩
    rw [System.run_cons, Worker.requests, List.map_append, List.foldl_append, ← hscreen]
    exact hrun

/-- The input module and the attached client have the size of the session, also after its
end. -/
structure CopiesAgree (w : Worker) : Prop where
  running : w.exited = false → SizesAgree w
  input : w.inputWidth = w.width ∧ w.inputHeight = w.height
  client : ∀ c, w.client = some c → c.ctx.width = w.width ∧ c.ctx.height = w.height

theorem SizesAgree.copies (h : SizesAgree w) : CopiesAgree w := ⟨fun _ => h, h.input, h.client⟩

theorem copiesAgree_step (w : Worker) (e : Event) (h : CopiesAgree w)
    (he : worker.enabled w e) : CopiesAgree (worker.step w e) := by
  by_cases hc : e = .cleanup
  · subst hc
    exact ⟨fun hx => Bool.noConfusion hx, h.input, fun _ hc => by cases hc⟩
  · exact ((h.running he.1).step (handled_step w e) hc).copies

theorem CopiesAgree.shows_iff (h : CopiesAgree w) (hs : ShowsSize s w) :
    Shows s q w ↔ w.screen s = q.screen := by
  constructor
  · exact fun hq => hq.screen
  · intro hq
    have hmode : (w.width, w.height) = q.screen.mode := by rw [← hs, hq]
    refine ⟨hq, hmode, fun c hc => ?_, ?_⟩
    · rw [(h.client c hc).1, (h.client c hc).2]
      exact hmode
    · rw [h.input.1, h.input.2]
      exact hmode

theorem readDecimal_formatScale (scale : UInt32) :
    readDecimal (formatScale scale) = scale.toNat / 100 ↔ SixDigits scale.toNat := by
  have hscale := scale.toNat_lt
  rw [formatScale]
  generalize scale.toNat = n at hscale ⊢
  exact readDecimal_hundredths hscale

theorem Screen.eq_iff {s t : Screen} : s = t ↔ s.mode = t.mode ∧ s.scale = t.scale := by
  cases s
  cases t
  simp only [Screen.mk.injEq, Screen.mode, Prod.mk.injEq, and_assoc]

theorem ResizeRequest.commanded_mode (q : ResizeRequest) : q.commanded.mode = q.screen.mode := by
  simp only [ResizeRequest.commanded, ResizeRequest.screen, Screen.mode]

/-- The command sets what is asked for if it can write the scale. -/
theorem commanded_eq_iff (q : ResizeRequest) :
    q.commanded = q.screen ↔ SixDigits q.scale.toNat := by
  rw [← readDecimal_formatScale, Screen.eq_iff]
  exact and_iff_right q.commanded_mode

/-- A request gives the screen what it asks for, if that had the scale with the mode already or
takes both from the command. -/
theorem refresh_commanded_iff (t : Screen) (q : ResizeRequest) :
    refresh Screen.mode t q.commanded = q.screen ↔
      (t.mode = q.screen.mode → t.scale = q.screen.scale) ∧
        (t.mode ≠ q.screen.mode → SixDigits q.scale.toNat) := by
  rw [refresh, q.commanded_mode]
  by_cases hm : t.mode = q.screen.mode
  · rw [if_pos hm, Screen.eq_iff]
    constructor
    · intro h
      exact ⟨fun _ => h.2, fun hne => absurd hm hne⟩
    · intro h
      exact ⟨hm, h.1 hm⟩
  · rw [if_neg hm, commanded_eq_iff]
    constructor
    · intro h
      exact ⟨fun heq => absurd heq hm, fun _ => h⟩
    · intro h
      exact h.2 hm

theorem scaleReached_iff (current : Screen) (earlier : List ResizeRequest) (q : ResizeRequest) :
    ScaleReached current earlier q ↔
      (earlier.map (·.commanded) ++ [q.commanded]).foldl (refresh Screen.mode) current = q.screen ∧
        refresh Screen.mode current q.commanded = q.screen := by
  have hhead := head_sinceKey Screen.mode q.screen.mode current (earlier.map (·.commanded))
  rw [List.foldl_concat, refresh_commanded_iff, refresh_commanded_iff]
  generalize (earlier.map (·.commanded)).foldl (refresh Screen.mode) current = latest at hhead ⊢
  have hnil : sinceMode current earlier q = [] ↔ latest.mode ≠ q.screen.mode := by
    rw [← List.head?_eq_none_iff, sinceMode, hhead]
    split
    · next hk => simp [hk]
    · next hk => simp [hk]
  have htaken : (∀ t ∈ (sinceMode current earlier q).head?, t.scale = q.screen.scale) ↔
      (latest.mode = q.screen.mode → latest.scale = q.screen.scale) := by
    rw [sinceMode, hhead]
    split
    · next hk => simp [hk]
    · next hk => simp [hk]
  constructor
  · rintro ⟨hscale, hbefore, hwritten⟩
    exact ⟨⟨htaken.1 hscale, fun h => hwritten (.inl (hnil.2 h))⟩,
      ⟨hbefore, fun h => hwritten (.inr h)⟩⟩
  · rintro ⟨⟨hscale, hlast⟩, hbefore, halone⟩
    refine ⟨htaken.2 hscale, hbefore, ?_⟩
    rintro (h | h)
    · exact hlast (hnil.1 h)
    · exact halone h

/-- In a session whose `wlr-randr` always works, the last of a run's requests wins, exactly if
the screen had its scale when it took its mode, or takes it from a command that can write it. -/
theorem last_resize_wins_iff (standalone clipboard audio : Bool) (width height : UInt32) (scale : ℚ)
    (hl : worker.Legal (.start standalone clipboard audio width height) (before ++ events))
    (hok : ∀ e ∈ before ++ events, e.randrSucceeds = true)
    (hq : (worker.run (.start standalone clipboard audio width height) before).requests events =
      earlier ++ [last]) :
    LastWins ⟨width, height, scale⟩
        (worker.run (.start standalone clipboard audio width height) before) events last ↔
      ScaleReached ((worker.run (.start standalone clipboard audio width height) before).screen
        ⟨width, height, scale⟩) earlier last := by
  obtain ⟨hbefore, hevents⟩ := System.along_append.1 hl
  have hstart : CopiesAgree (.start standalone clipboard audio width height) :=
    SizesAgree.start.copies
  have hmode : ShowsSize ⟨width, height, scale⟩
      (.start standalone clipboard audio width height) := by
    cases standalone with
    | true => rfl
    | false => rfl
  have hcopies := (System.always_of_legal copiesAgree_step hstart hbefore).last
  have hsize := (run_screen hmode fun e he => hok e (List.mem_append_left _ he)).2
  generalize worker.run (.start standalone clipboard audio width height) before = w at *
  have hfinal := (System.always_of_legal copiesAgree_step hcopies hevents).last
  obtain ⟨hscreen, hsize'⟩ := run_screen hsize fun e he => hok e (List.mem_append_right _ he)
  rw [hq, List.map_append] at hscreen
  rw [scaleReached_iff, LastWins, hfinal.shows_iff hsize', hscreen]
  have hrunning : w.exited = false := by
    cases events with
    | nil => cases earlier <;> cases hq
    | cons e es => exact hevents.1.1
  have halone (r : ResizeTurn) (hr : r.wlrRandr = true) :
      Shows ⟨width, height, scale⟩ last (onPeerResize w last.width last.height last.scale r) ↔
        refresh Screen.mode (w.screen ⟨width, height, scale⟩) last.commanded = last.screen := by
    obtain ⟨hone, hshows⟩ := onPeerResize_screen hsize last hr
    have hagree : SizesAgree (onPeerResize w last.width last.height last.scale r) :=
      (hcopies.running hrunning).resized
    rw [hagree.copies.shows_iff hshows, hone]
  apply and_congr_right'
  constructor
  · exact fun h => (halone .done rfl).1 (h .done rfl)
  · exact fun h r hr => (halone r hr).2 h

/-- The layout of one monitor. -/
def layoutOf (width height scale : UInt32) : Event :=
  .dispMonitorLayout [⟨width, height, scale⟩] .done

/-- A client with an open display control channel. -/
def displayClient : List Event :=
  [.peerAccepted (.accepted (.basic 800 600 true true)), .postConnect ⟨some 1, true, none⟩,
    .activate .done, .updateClient,
    .checkVcm ⟨true, .ready, ⟨some 2, true⟩, ⟨some 3, true⟩, ⟨none, false⟩, ⟨none, false, false⟩,
      true⟩]

/-- The client asks for a size and comes back to it with another scale in between. -/
theorem last_resize_wins_iff_moved :
    LastWins ⟨800, 600, 1⟩ (worker.run (.start true false false 800 600) displayClient)
      [layoutOf 1280 720 100, layoutOf 1024 768 100, layoutOf 1280 720 200] ⟨1280, 720, 200⟩ :=
  have hrequests : (worker.run (.start true false false 800 600) displayClient).requests
      [layoutOf 1280 720 100, layoutOf 1024 768 100, layoutOf 1280 720 200] =
        [⟨1280, 720, 100⟩, ⟨1024, 768, 100⟩] ++ [⟨1280, 720, 200⟩] := by decide +kernel
  (last_resize_wins_iff true false false 800 600 1 (by decide +kernel) (by decide +kernel)
    hrequests).2 ⟨by decide +kernel, by decide +kernel, fun _ => ⟨200, by decide, 0, rfl⟩⟩

/-- The second request for the size has another scale, which the compositor never gets. -/
theorem scale_lost :
    worker.Legal (.start true false false 800 600)
        (displayClient ++ [layoutOf 1280 720 100, layoutOf 1280 720 200]) ∧
      (∀ e ∈ displayClient ++ [layoutOf 1280 720 100, layoutOf 1280 720 200],
        e.randrSucceeds = true) ∧
      (worker.run (.start true false false 800 600) displayClient).requests
        [layoutOf 1280 720 100, layoutOf 1280 720 200] =
          [⟨1280, 720, 100⟩, ⟨1280, 720, 200⟩] ∧
      ¬ LastWins ⟨800, 600, 1⟩ (worker.run (.start true false false 800 600) displayClient)
        [layoutOf 1280 720 100, layoutOf 1280 720 200] ⟨1280, 720, 200⟩ := by
  refine ⟨by decide +kernel, by decide +kernel, by decide +kernel, fun h => ?_⟩
  have hscreen := h.1.screen
  revert hscreen
  decide +kernel

end Wlrdp
