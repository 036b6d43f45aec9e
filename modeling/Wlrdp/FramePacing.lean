import Wlrdp.HandlerMoves
import Wlrdp.MovingAverages

namespace Wlrdp
set_option autoImplicit true

/-! ### Frames that are sent and the clock -/

def FrameAct.reading : FrameAct → Option UInt64
  | .nowMs t => some t
  | .sendFrame _ _ _ => none

/-- What an act of `on_frame_ready` makes of the peer. -/
def FrameAct.perform (send : FrameSend) (p : Peer) : FrameAct → Peer
  | .nowMs _ => p
  | .sendFrame f width height => (rdpPeerSendFrame p f width height send).2

namespace Worker

/-- What `on_frame_ready` does outside the session in an event. -/
def acts (w : Worker) : Event → List FrameAct
  | .frameReady id r =>
    (onFrameReadyActs (w.finishFrame id) w.capture.pixels w.capture.width w.capture.height
      w.capture.stride r).2
  | _ => []

/-- The turn of an event that sends a frame. -/
def sends (w : Worker) : Event → Option FrameTurn
  | .frameReady id r =>
    if (w.acts (.frameReady id r)).all fun a => a.reading.isSome then none else some r
  | _ => none

/-- The readings of the clock that an event takes. -/
def readings (w : Worker) (e : Event) : List UInt64 := (w.acts e).filterMap FrameAct.reading

/-- What `on_frame_ready` puts out is what its calls of `rdp_peer_send_frame` put out. -/
def PutsOut (w : Worker) : Event → Prop
  | .frameReady id r =>
    (w.client = none → w.acts (.frameReady id r) = [] ∧ (w.step (.frameReady id r)).out = w.out) ∧
      ∀ c, w.client = some c → (w.step (.frameReady id r)).out =
        ((w.acts (.frameReady id r)).foldl (FrameAct.perform r.send) (w.peer c)).out
  | _ => True

/-- The frames that a run sends, in order. -/
def frames (w : Worker) (es : List Event) : List FrameTurn :=
  worker.gather (fun w e => (w.sends e).toList) w es

/-- The readings of the clock that a run takes, in order. -/
def clock (w : Worker) (es : List Event) : List UInt64 := worker.gather Worker.readings w es

/-- Every frame that is sent has the target `t`, and no client is activated. -/
def aimsAt (t : UInt32) (w : Worker) (e : Event) : Prop :=
  w.begins e = false ∧ ∀ r, w.sends e = some r → frameTarget (r.sent - r.now) = t

/-- `frame_interval_ms` is where rounding lets the average rest. -/
def rests (t : UInt32) (w : Worker) : Prop :=
  t.toNat ≤ w.frameIntervalMs.toNat + 3 ∧ w.frameIntervalMs.toNat ≤ t.toNat

end Worker

/-- From `w` on the interval moves in one direction, comes to rest after at most 84 frames, and
stays where it rests. -/
structure Converges (t : UInt32) (w : Worker) (es : List Event) : Prop where
  monotone : ((worker.states w es).map Worker.frameIntervalMs).Pairwise (· ≤ ·) ∨
    ((worker.states w es).map Worker.frameIntervalMs).Pairwise (· ≥ ·)
  reaches : 84 ≤ (w.frames es).length → (worker.run w es).rests t
  stays : w.rests t → worker.Always (fun w' => w'.frameIntervalMs = w.frameIntervalMs) w es

/-! ### What a step does to the pace -/

/-- The interval and the time of the last frame are as before. -/
structure SamePace (w w' : Worker) : Prop where
  interval : w'.frameIntervalMs = w.frameIntervalMs
  last : w'.lastFrameMs = w.lastFrameMs

theorem SamePace.refl (w : Worker) : SamePace w w := ⟨rfl, rfl⟩

theorem SamePace.trans (h : SamePace a b) (h' : SamePace b c) : SamePace a c :=
  ⟨h'.interval.trans h.interval, h'.last.trans h.last⟩

/-- What an event does to the pace: nothing, it starts from the default interval, or it sends a
frame and averages. -/
inductive PaceStep (w : Worker) (e : Event) (w' : Worker) : Prop
  | kept (hs : w.sends e = none) (hb : w.begins e = false) (h : SamePace w w')
  | began (hs : w.sends e = none) (hb : w.begins e = true)
      (hi : w'.frameIntervalMs = frameIntervalDefaultMs) (hl : w'.lastFrameMs = w.lastFrameMs)
  | sent (r : FrameTurn) (hs : w.sends e = some r) (hb : w.begins e = false)
      (hr : w.readings e = [r.now, r.sent, r.last]) (hd : w.frameDue r = true)
      (hi : w'.frameIntervalMs = (w.frameIntervalMs * 3 + frameTarget (r.sent - r.now)) / 4)
      (hl : w'.lastFrameMs = r.last)

variable {w w' : Worker} {e : Event}

theorem onPeer_pace (w : Worker) (f : Peer → Peer) : SamePace w (w.onPeer f) := by
  rw [Worker.onPeer]
  cases w.client with
  | none => exact .refl w
  | some c => exact ⟨rfl, rfl⟩

theorem onClient_pace {f : Client → Worker} (hf : ∀ c, SamePace w (f c)) :
    SamePace w (w.onClient f) := onClient_cases (.refl w) fun c _ => hf c

theorem onPeerResize_pace (w : Worker) (width height scale : UInt32) (r : ResizeTurn) :
    SamePace w (onPeerResize w width height scale r) := by
  cases hs : w.sameSize width height with
  | true =>
    rw [onPeerResize_same hs]
    exact .refl w
  | false =>
    have hresized : SamePace w (w.resizeTo (roundUp16 width) (roundUp16 height) scale r) := by
      rw [Worker.resizeTo]
      obtain ⟨hi, hl⟩ := onPeer_pace ({ w.emit (.wlrRandr (roundUp16 width) (roundUp16 height)
        scale r.wlrRandr) with width := roundUp16 width, height := roundUp16 height })
        fun p => rdpPeerUpdateSize p (roundUp16 width) (roundUp16 height) r.surface
      exact ⟨hi, hl⟩
    rw [onPeerResize_eq hs]
    dsimp only
    split
    · exact ⟨hresized.interval, hresized.last⟩
    · exact hresized

theorem attachClient_pace (w : Worker) (r : AttachTurn) : SamePace w (attachClient w r) := by
  rw [attachClient]
  split
  · exact .refl w
  · dsimp only
    split
    · exact ⟨rfl, rfl⟩
    · exact ⟨rfl, rfl⟩

/-- What one call of `on_frame_ready` does to the pace and outside. -/
inductive FramePace (w : Worker) (width height : UInt32) (r : FrameTurn) (w' : Worker)
    (acts : List FrameAct) : Prop
  | silent (ha : ∀ a ∈ acts, a.reading.isSome) (hc : w.client = none → acts = [])
      (ho : w'.out = w.out) (h : SamePace w w')
  | sent (c : Client) (f : EncodedFrame) (hc : w.client = some c) (hd : w.frameDue r = true)
      (ha : acts = [.nowMs r.now, .sendFrame f width height, .nowMs r.sent, .nowMs r.last])
      (ho : w'.out = (rdpPeerSendFrame (w.peer c) f width height r.send).2.out)
      (hi : w'.frameIntervalMs = (w.frameIntervalMs * 3 + frameTarget (r.sent - r.now)) / 4)
      (hl : w'.lastFrameMs = r.last)

/-- It only looks at the clock. -/
theorem FramePace.looked (hc : w.client = some c) (ho : w'.out = w.out) (h : SamePace w w') :
    FramePace w width height r w' [.nowMs r.now] := by
  refine .silent ?_ (fun hn => ?_) ho h
  · intro a ha
    rw [List.mem_singleton.1 ha]
    rfl
  · cases hc.symm.trans hn

theorem onFrameReady_pace (w : Worker) (px : Option UInt32) (width height stride : UInt32)
    (r : FrameTurn) :
    FramePace w width height r (onFrameReady w px width height stride r)
      (onFrameReadyActs w px width height stride r).2 := by
  have hguard : (!w.clientActive || w.client.isNone || !w.encoderInitialized) = !w.serving := by
    rw [Worker.serving]
    cases w.client <;> cases w.clientActive <;> cases w.encoderInitialized <;> rfl
  have hdue : w.frameDue r =
      (w.serving && !decide (r.now - w.lastFrameMs < w.frameIntervalMs.toUInt64)) := rfl
  rw [onFrameReady, onFrameReadyActs, hguard]
  cases hserving : w.serving with
  | false => exact .silent (fun _ ha => by cases ha) (fun _ => rfl) rfl (.refl w)
  | true =>
  have hsome := (Bool.and_eq_true_iff.1 (Bool.and_eq_true_iff.1 hserving).1).2
  obtain ⟨c, hc⟩ := Option.isSome_iff_exists.1 hsome
  rw [if_neg (by decide)]
  split
  · exact .looked hc rfl ⟨rfl, rfl⟩
  next hlate =>
  cases encoderEncode w.encoder px stride r.encode with
  | mk ok enc =>
  cases ok with
  | false => exact .looked hc rfl ⟨rfl, rfl⟩
  | true =>
  dsimp only
  rw [if_neg (by decide)]
  split
  · exact .looked hc rfl ⟨rfl, rfl⟩
  · have hpeer : Worker.onPeer { w with encoder := enc }
        (fun p => (rdpPeerSendFrame p enc.frame width height r.send).2) =
        Worker.setPeer { w with encoder := enc } c
          (rdpPeerSendFrame (w.peer c) enc.frame width height r.send).2 := by
      rw [Worker.onPeer, hc]
      rfl
    rw [hpeer]
    refine .sent c enc.frame hc ?_ rfl rfl rfl rfl
    rw [hdue, hserving, decide_eq_false hlate]
    rfl

theorem sends_of_silent {id : Nat} (h : ∀ a ∈ w.acts (.frameReady id r), a.reading.isSome) :
    w.sends (.frameReady id r) = none := by
  rw [Worker.sends, if_pos (List.all_eq_true.2 h)]

theorem frameReady_pace (w : Worker) (id : Nat) (r : FrameTurn) :
    PaceStep w (.frameReady id r) (frameReady w id r) := by
  have hstep := onFrameReady_pace (w.finishFrame id) w.capture.pixels w.capture.width
    w.capture.height w.capture.stride r
  cases hstep with
  | silent ha _ _ h => exact .kept (sends_of_silent ha) rfl ⟨h.interval, h.last⟩
  | sent c f _ hd ha _ hi hl =>
    have hacts : w.acts (.frameReady id r) = [.nowMs r.now,
        .sendFrame f w.capture.width w.capture.height, .nowMs r.sent, .nowMs r.last] := ha
    refine .sent r ?_ rfl ?_ hd hi hl
    · rw [Worker.sends, hacts]
      rfl
    · rw [Worker.readings, hacts]
      rfl

/-- The readings say nothing to the peer. -/
theorem foldl_perform_silent {acts : List FrameAct} (h : ∀ a ∈ acts, a.reading.isSome) :
    acts.foldl (FrameAct.perform send) p = p := by
  induction acts with
  | nil => rfl
  | cons a acts ih =>
    cases a with
    | nowMs t => exact ih fun a ha => h a (List.mem_cons_of_mem _ ha)
    | sendFrame f width height => cases h _ List.mem_cons_self

theorem putsOut (w : Worker) (e : Event) : w.PutsOut e := by
  cases e with
  | frameReady id r =>
    have hstep := onFrameReady_pace (w.finishFrame id) w.capture.pixels w.capture.width
      w.capture.height w.capture.stride r
    cases hstep with
    | silent ha hn ho _ =>
      refine ⟨fun hc => ⟨hn hc, ho⟩, fun c _ => ?_⟩
      have hsilent : (w.acts (.frameReady id r)).foldl (FrameAct.perform r.send) (w.peer c) =
          w.peer c := foldl_perform_silent ha
      rw [hsilent]
      exact ho
    | sent c f hc _ ha ho _ _ =>
      have hclient : w.client = some c := hc
      have hacts : w.acts (.frameReady id r) = [.nowMs r.now,
          .sendFrame f w.capture.width w.capture.height, .nowMs r.sent, .nowMs r.last] := ha
      refine ⟨fun hn => ?_, fun c' hc' => ?_⟩
      · cases hclient.symm.trans hn
      · cases hclient.symm.trans hc'
        rw [hacts]
        exact ho
  | _ => trivial

theorem putsOut_along (w : Worker) (es : List Event) : worker.Along Worker.PutsOut w es := by
  induction es generalizing w with
  | nil => trivial
  | cons e es ih => exact ⟨putsOut w e, ih (w.step e)⟩

theorem startCapture_pace (w : Worker) (r : ActivationTurn) :
    PaceStep w (.startCapture r) (w.step (.startCapture r)) := by
  change PaceStep w _ (w.onClient fun c => startCapture w c r)
  rw [Worker.onClient]
  cases hc : w.client with
  | none =>
    refine .kept rfl ?_ (.refl w)
    rw [Worker.begins, hc]
    rfl
  | some c =>
    dsimp only
    rw [startCapture_eq, beginCaptureIf]
    have hbegins : w.begins (.startCapture r) = (c.settled && !w.clientActive) := by
      rw [Worker.begins, hc]
      rfl
    split
    · next hb => exact .began rfl (hbegins.trans hb) rfl rfl
    · next hb => exact .kept rfl (hbegins.trans (Bool.eq_false_iff.2 hb)) (.refl w)

theorem pace_step (w : Worker) (e : Event) : PaceStep w e (w.step e) := by
  cases e with
  | frameReady id r => exact frameReady_pace w id r
  | startCapture r => exact startCapture_pace w r
  | peerAccepted r =>
    refine .kept rfl rfl ?_
    change SamePace w (onPeerAccepted w r)
    rw [onPeerAccepted]
    split
    · exact .refl w
    · exact attachClient_pace w r
  | ipcMessage msg r =>
    refine .kept rfl rfl ?_
    change SamePace w (acceptIpcClient w msg r)
    have hleft : SamePace w (disconnectClient w) := ⟨rfl, rfl⟩
    cases msg with
    | none => exact ⟨rfl, rfl⟩
    | some msg =>
      simp only [acceptIpcClient]
      split
      · exact ⟨rfl, rfl⟩
      split
      · exact .refl w
      split
      · exact hleft
      · exact hleft.trans (attachClient_pace _ r)
  | activate r =>
    refine .kept rfl rfl (onClient_pace fun c => ?_)
    rw [onActivate]
    dsimp only
    split
    · obtain ⟨hi, hl⟩ := onPeerResize_pace { w with
        client := some { c with ctx.activated := true } } c.settings.desktopWidth
        c.settings.desktopHeight (getDesktopScale c.settings) r
      exact ⟨hi, hl⟩
    · exact ⟨rfl, rfl⟩
  | desktopResize r => exact .kept rfl rfl (onClient_pace fun c => onPeerResize_pace ..)
  | remoteMonitors ms r =>
    refine .kept rfl rfl (onClient_pace fun c => ?_)
    cases ms with
    | nil => exact .refl w
    | cons m ms => exact onPeerResize_pace ..
  | dispMonitorLayout ms r =>
    refine .kept rfl rfl ?_
    cases ms with
    | nil => exact .refl w
    | cons m ms => exact onPeerResize_pace ..
  | capsAdvertise caps r =>
    exact .kept rfl rfl (onPeer_pace w fun p => gfxCapsAdvertise p caps r)
  | rdpsndActivated formats =>
    exact .kept rfl rfl (onPeer_pace w fun p => onRdpsndActivated p formats)
  | audioData n ok =>
    refine .kept rfl rfl ?_
    change SamePace w (onAudioData w n ok)
    rw [onAudioData]
    split
    · exact .refl w
    · exact onPeer_pace ..
  | wlClipboardChanged =>
    refine .kept rfl rfl ?_
    change SamePace w (onWlClipboardChanged w)
    rw [onWlClipboardChanged]
    split
    · exact .refl w
    · split <;> exact ⟨rfl, rfl⟩
  | updateClient =>
    refine .kept rfl rfl (onClient_pace fun c => ?_)
    rw [epollAddVcm]
    split <;> exact ⟨rfl, rfl⟩
  | checkVcm r =>
    refine .kept rfl rfl (onClient_pace fun c => ?_)
    rw [checkVcm]
    dsimp only
    split <;> exact ⟨rfl, rfl⟩
  | settings s => exact .kept rfl rfl (onClient_pace fun c => ⟨rfl, rfl⟩)
  | postConnect r => exact .kept rfl rfl (onClient_pace fun c => ⟨rfl, rfl⟩)
  | clipboardFailed => exact .kept rfl rfl ⟨rfl, rfl⟩
  | checkFailed => exact .kept rfl rfl ⟨rfl, rfl⟩
  | frameBuffer id a b s r => exact .kept rfl rfl ⟨rfl, rfl⟩
  | frameBufferDone id => exact .kept rfl rfl ⟨rfl, rfl⟩
  | frameFailed id => exact .kept rfl rfl ⟨rfl, rfl⟩
  | signal => exact .kept rfl rfl ⟨rfl, rfl⟩
  | cleanup => exact .kept rfl rfl ⟨rfl, rfl⟩

/-! ### The interval -/

theorem frameTarget_bounds (encodeTime : UInt64) :
    frameIntervalMinMs ≤ frameTarget encodeTime ∧ frameTarget encodeTime ≤ frameIntervalMaxMs := by
  rw [frameTarget]
  simp only [frameIntervalMinMs, frameIntervalMaxMs]
  generalize (encodeTime * 2).toUInt32 = target
  simp only [UInt32.lt_iff_toNat_lt, UInt32.le_iff_toNat_le]
  change _ ≥ 16 ∧ _ ≤ 100
  split
  · split
    · exact ⟨by decide, by decide⟩
    · exact ⟨by decide, by decide⟩
  · next hlow =>
    change ¬ target.toNat < 16 at hlow
    split
    · exact ⟨by decide, by decide⟩
    · next hhigh =>
      change ¬ 100 < target.toNat at hhigh
      omega

/-- `frame_interval_ms` is within its limits. -/
def Worker.inLimits (w : Worker) : Prop :=
  frameIntervalMinMs ≤ w.frameIntervalMs ∧ w.frameIntervalMs ≤ frameIntervalMaxMs

/-- Within the limits the smoothing is the moving average of weight 3. -/
theorem smoothed_toNat (hi : i ≤ frameIntervalMaxMs) (ht : t ≤ frameIntervalMaxMs) :
    ((i * 3 + t) / 4).toNat = average 3 t.toNat i.toNat := by
  have hi' : i.toNat ≤ 100 := hi
  have ht' : t.toNat ≤ 100 := ht
  rw [average, UInt32.toNat_div, UInt32.toNat_add, UInt32.toNat_mul]
  change (i.toNat * 3 % 2 ^ 32 + t.toNat) % 2 ^ 32 / 4 = _
  omega

theorem inLimits_step (w : Worker) (e : Event) (h : w.inLimits) : (w.step e).inLimits := by
  rw [Worker.inLimits]
  cases pace_step w e with
  | kept _ _ hs =>
    rw [hs.interval]
    exact h
  | began _ _ hi _ =>
    rw [hi]
    exact ⟨by decide, by decide⟩
  | sent r _ _ _ _ hi _ =>
    obtain ⟨htlo, hthi⟩ := frameTarget_bounds (r.sent - r.now)
    rw [hi, UInt32.le_iff_toNat_le, UInt32.le_iff_toNat_le, smoothed_toNat h.2 hthi]
    exact ⟨MovingAverage.le_average h.1 htlo, MovingAverage.average_le h.2 hthi⟩

theorem inLimits_along (h : w.inLimits) (es : List Event) :
    worker.Always Worker.inLimits w es :=
  System.always_of_step (C := fun _ _ => True) (fun w e h _ => inLimits_step w e h) h
    (System.along_of_forall fun _ _ => trivial)

/-! ### The spacing of the frames -/

/-- The next frame that is sent is due 16 ms after the last one. -/
theorem sent_spacing (h : w.inLimits) (hd : w.frameDue r = true) (hl : w.lastFrameMs ≤ r.now) :
    w.lastFrameMs.toNat + 16 ≤ r.now.toNat := by
  have hlate : ¬ r.now - w.lastFrameMs < w.frameIntervalMs.toUInt64 := by
    have hdue := (Bool.and_eq_true_iff.1 hd).2
    rw [Bool.not_eq_true'] at hdue
    exact of_decide_eq_false hdue
  rw [UInt64.lt_iff_toNat_lt, UInt64.toNat_sub_of_le _ _ hl, UInt32.toNat_toUInt64] at hlate
  have hmin : 16 ≤ w.frameIntervalMs.toNat := h.1
  have hle : w.lastFrameMs.toNat ≤ r.now.toNat := hl
  omega

/-- The encode of `b` begins at least 16 ms after `a` was sent. -/
def Spaced (a b : FrameTurn) : Prop := a.sent.toNat + 16 ≤ b.now.toNat

theorem frames_spaced (h : w.inLimits) (hclock : (w.lastFrameMs :: w.clock es).Pairwise (· ≤ ·)) :
    (w.frames es).Pairwise Spaced ∧
      ∀ b ∈ w.frames es, w.lastFrameMs.toNat + 16 ≤ b.now.toNat := by
  induction es generalizing w with
  | nil => exact ⟨.nil, List.forall_mem_nil _⟩
  | cons e es ih =>
    have hlimits : (w.step e).inLimits := inLimits_step w e h
    have hframes : w.frames (e :: es) = (w.sends e).toList ++ (w.step e).frames es := rfl
    have hticks : w.clock (e :: es) = w.readings e ++ (w.step e).clock es := rfl
    rw [hticks] at hclock
    obtain ⟨hafter, hclock⟩ := List.pairwise_cons.1 hclock
    obtain ⟨hnow, hlater, hbetween⟩ := List.pairwise_append.1 hclock
    have hquiet (hs : w.sends e = none) (hl : (w.step e).lastFrameMs = w.lastFrameMs) :
        (w.frames (e :: es)).Pairwise Spaced ∧
          ∀ b ∈ w.frames (e :: es), w.lastFrameMs.toNat + 16 ≤ b.now.toNat := by
      rw [hframes, hs, ← hl]
      apply ih hlimits
      rw [hl]
      exact List.pairwise_cons.2 ⟨fun t ht => hafter t (List.mem_append_right _ ht), hlater⟩
    cases pace_step w e with
    | kept hs _ hsame => exact hquiet hs hsame.last
    | began hs _ _ hl => exact hquiet hs hl
    | sent r hs _ hr hd _ hl =>
      rw [hr] at hafter hnow hbetween
      simp only [List.pairwise_cons, List.mem_cons, List.not_mem_nil, or_false, forall_eq_or_imp,
        forall_eq] at hnow
      obtain ⟨⟨_, hlast⟩, hsent, _⟩ := hnow
      have hspace := sent_spacing h hd (hafter r.now (List.mem_append_left _ List.mem_cons_self))
      obtain ⟨hpairs, hfirst⟩ := ih hlimits (by
        rw [hl]
        exact List.pairwise_cons.2 ⟨fun t ht => hbetween r.last (by simp) t ht, hlater⟩)
      rw [hl] at hfirst
      rw [hframes, hs]
      have hnow' : r.now.toNat ≤ r.last.toNat := hlast
      have hsent' : r.sent.toNat ≤ r.last.toNat := hsent
      refine ⟨List.pairwise_cons.2 ⟨fun b hb => ?_, hpairs⟩, fun b hb => ?_⟩
      · have hb' := hfirst b hb
        rw [Spaced]
        omega
      · rcases List.mem_cons.1 hb with rfl | hb
        · exact hspace
        · have hb' := hfirst b hb
          omega

/-! ### Convergence -/

variable {t : UInt32}

/-- A step that aims at `t` keeps the interval, or moves it to its average with `t`. -/
theorem aimed_step (h : w.inLimits) (ha : w.aimsAt t e) :
    w.sends e = none ∧ (w.step e).frameIntervalMs = w.frameIntervalMs ∨
      (w.sends e).isSome ∧
        (w.step e).frameIntervalMs.toNat = average 3 t.toNat w.frameIntervalMs.toNat := by
  obtain ⟨hbegins, htarget⟩ := ha
  cases pace_step w e with
  | kept hs _ hsame => exact .inl ⟨hs, hsame.interval⟩
  | began _ hb _ _ => cases hbegins.symm.trans hb
  | sent r hs _ _ _ hi _ =>
    obtain ⟨_, hmax⟩ := frameTarget_bounds (r.sent - r.now)
    refine .inr ⟨hs ▸ rfl, ?_⟩
    rw [hi, smoothed_toNat h.2 hmax, htarget r hs]

theorem rising_step (h : w.inLimits) (ha : w.aimsAt t e) (hle : w.frameIntervalMs ≤ t) :
    w.frameIntervalMs ≤ (w.step e).frameIntervalMs ∧ (w.step e).frameIntervalMs ≤ t := by
  rcases aimed_step h ha with ⟨_, hi⟩ | ⟨_, hi⟩
  · rw [hi]
    exact ⟨UInt32.le_refl _, hle⟩
  · rw [UInt32.le_iff_toNat_le, UInt32.le_iff_toNat_le, hi]
    exact MovingAverage.rises hle

theorem falling_step (h : w.inLimits) (ha : w.aimsAt t e) (hle : t ≤ w.frameIntervalMs) :
    t ≤ (w.step e).frameIntervalMs ∧ (w.step e).frameIntervalMs ≤ w.frameIntervalMs := by
  rcases aimed_step h ha with ⟨_, hi⟩ | ⟨_, hi⟩
  · rw [hi]
    exact ⟨hle, UInt32.le_refl _⟩
  · rw [UInt32.le_iff_toNat_le, UInt32.le_iff_toNat_le, hi]
    exact MovingAverage.falls hle

/-- How far the interval is from where it comes to rest. -/
def Worker.gap (t : UInt32) (w : Worker) : Nat :=
  MovingAverage.gap 3 t.toNat w.frameIntervalMs.toNat

/-- Every frame of a run closes the gap by at least one. -/
theorem gap_run (h : w.inLimits) (ha : worker.Along (Worker.aimsAt t) w es) :
    (worker.run w es).gap t ≤ w.gap t - (w.frames es).length := by
  induction es generalizing w with
  | nil => exact Nat.le_refl _
  | cons e es ih =>
    have hrest : (worker.run (w.step e) es).gap t ≤
        (w.step e).gap t - ((w.step e).frames es).length :=
      ih (inLimits_step w e h) ha.2
    have hframes : (w.frames (e :: es)).length =
        (w.sends e).toList.length + ((w.step e).frames es).length := List.length_append
    change (worker.run (w.step e) es).gap t ≤ _
    rcases aimed_step h ha.1 with ⟨hs, hi⟩ | ⟨hs, hi⟩
    · have hgap : (w.step e).gap t = w.gap t := by
        rw [Worker.gap, hi]
        rfl
      rw [hframes, hs, ← hgap, Option.toList_none, List.length_nil, Nat.zero_add]
      exact hrest
    · have hgap : (w.step e).gap t ≤ w.gap t - 1 := by
        rw [Worker.gap, hi]
        exact MovingAverage.gap_average 3 t.toNat _
      have hone : (w.sends e).toList.length = 1 := by
        obtain ⟨r, hr⟩ := Option.isSome_iff_exists.1 hs
        rw [hr]
        rfl
      omega

/-- At rest, the interval does not change any more. -/
theorem rests_step (h : w.inLimits) (ha : w.aimsAt t e) (hr : w.rests t) :
    (w.step e).frameIntervalMs = w.frameIntervalMs := by
  rcases aimed_step h ha with ⟨_, hi⟩ | ⟨_, hi⟩
  · exact hi
  · rw [MovingAverage.average_eq_self hr.1 hr.2] at hi
    exact UInt32.toNat_inj.1 hi

theorem rests_iff : w.rests t ↔ w.gap t = 0 := MovingAverage.gap_eq_zero.symm

/-- A target within the limits is at most 84 ms away. -/
theorem gap_le (h : w.inLimits) (hlo : frameIntervalMinMs ≤ t) (hhi : t ≤ frameIntervalMaxMs) :
    w.gap t ≤ 84 := by
  have h₁ : 16 ≤ w.frameIntervalMs.toNat := h.1
  have h₂ : w.frameIntervalMs.toNat ≤ 100 := h.2
  have h₃ : 16 ≤ t.toNat := hlo
  have h₄ : t.toNat ≤ 100 := hhi
  rw [Worker.gap, MovingAverage.gap]
  omega

/-- The target of a run that sends a frame is within the limits. -/
theorem aimed_bounds (ha : worker.Along (Worker.aimsAt t) w es) (hf : w.frames es ≠ []) :
    frameIntervalMinMs ≤ t ∧ t ≤ frameIntervalMaxMs := by
  induction es generalizing w with
  | nil => exact absurd rfl hf
  | cons e es ih =>
    cases hs : w.sends e with
    | none =>
      have hframes : w.frames (e :: es) = (w.sends e).toList ++ (w.step e).frames es := rfl
      rw [hframes, hs] at hf
      exact ih ha.2 hf
    | some r =>
      rw [← ha.1.2 r hs]
      exact frameTarget_bounds (r.sent - r.now)

theorem intervals_rise (h : w.inLimits) (ha : worker.Along (Worker.aimsAt t) w es)
    (hle : w.frameIntervalMs ≤ t) :
    ((worker.states w es).map Worker.frameIntervalMs).Pairwise (· ≤ ·) := by
  rw [List.pairwise_map]
  refine (System.states_pairwise (I := fun w => w.inLimits ∧ w.frameIntervalMs ≤ t)
    (R := fun a b => a.frameIntervalMs ≤ b.frameIntervalMs) (fun _ => UInt32.le_refl _)
    (fun _ _ _ => UInt32.le_trans) ?_ ?_ ⟨h, hle⟩ ha).1
  · exact fun w e hw he => ⟨inLimits_step w e hw.1, (rising_step hw.1 he hw.2).2⟩
  · exact fun w e hw he => (rising_step hw.1 he hw.2).1

theorem intervals_fall (h : w.inLimits) (ha : worker.Along (Worker.aimsAt t) w es)
    (hge : t ≤ w.frameIntervalMs) :
    ((worker.states w es).map Worker.frameIntervalMs).Pairwise (· ≥ ·) := by
  rw [List.pairwise_map]
  refine (System.states_pairwise (I := fun w => w.inLimits ∧ t ≤ w.frameIntervalMs)
    (R := fun a b => b.frameIntervalMs ≤ a.frameIntervalMs) (fun _ => UInt32.le_refl _)
    (fun _ _ _ hab hbc => UInt32.le_trans hbc hab) ?_ ?_ ⟨h, hge⟩ ha).1
  · exact fun w e hw he => ⟨inLimits_step w e hw.1, (falling_step hw.1 he hw.2).1⟩
  · exact fun w e hw he => (falling_step hw.1 he hw.2).2

theorem converges_of_aimed (h : w.inLimits) (ha : worker.Along (Worker.aimsAt t) w es) :
    Converges t w es where
  monotone := by
    rcases UInt32.le_total w.frameIntervalMs t with hle | hge
    · exact .inl (intervals_rise h ha hle)
    · exact .inr (intervals_fall h ha hge)
  reaches := by
    intro hmany
    have hsome : w.frames es ≠ [] := by
      intro hnil
      rw [hnil] at hmany
      cases hmany
    obtain ⟨hlo, hhi⟩ := aimed_bounds ha hsome
    have hrun := gap_run h ha
    have hgap := gap_le h hlo hhi
    rw [rests_iff]
    omega
  stays := by
    intro hr
    have hsteps := System.always_of_step (S := worker) (C := Worker.aimsAt t)
      (I := fun w' => w'.inLimits ∧ w'.frameIntervalMs = w.frameIntervalMs)
      (fun w' e hw he => ?_) ⟨h, rfl⟩ ha
    · exact hsteps.mono fun _ hw => hw.2
    · have hrest : w'.rests t := by
        rw [Worker.rests, hw.2]
        exact hr
      exact ⟨inLimits_step w' e hw.1, (rests_step hw.1 he hrest).trans hw.2⟩

/-- In a session whose clock does not run backwards, the interval keeps its limits, the frames that
`on_frame_ready` puts out are 16 ms apart, and the interval converges while no client is activated
and the target stays. -/
theorem frame_pacing (standalone clipboard audio : Bool) (width height : UInt32)
    (hclock : ((Worker.start standalone clipboard audio width height).clock
      (before ++ after)).Pairwise (· ≤ ·)) :
    worker.Always Worker.inLimits (.start standalone clipboard audio width height)
        (before ++ after) ∧
      worker.Along Worker.PutsOut (.start standalone clipboard audio width height)
        (before ++ after) ∧
      ((Worker.start standalone clipboard audio width height).frames
        (before ++ after)).Pairwise Spaced ∧
      ∀ t, worker.Along (Worker.aimsAt t)
          (worker.run (.start standalone clipboard audio width height) before) after →
        Converges t (worker.run (.start standalone clipboard audio width height) before)
          after := by
  have hmin : frameIntervalMinMs ≤ frameIntervalDefaultMs := by decide
  have hmax : frameIntervalDefaultMs ≤ frameIntervalMaxMs := by decide
  have hstart : (Worker.start standalone clipboard audio width height).inLimits := ⟨hmin, hmax⟩
  have hzero : ∀ t ∈ (Worker.start standalone clipboard audio width height).clock
      (before ++ after), (Worker.start standalone clipboard audio width height).lastFrameMs ≤ t :=
    fun t _ => UInt64.zero_le
  refine ⟨inLimits_along hstart _, putsOut_along _ _, ?_, fun t ha => ?_⟩
  · exact (frames_spaced hstart (List.pairwise_cons.2 ⟨hzero, hclock⟩)).1
  · exact converges_of_aimed (inLimits_along hstart before).last ha

/-- A frame that takes 10 ms. -/
def slowFrame (t : UInt64) : FrameTurn :=
  { FrameTurn.due t with sent := t + 10, last := t + 10 }

/-- Two frames are sent to a client, a third one comes too early, and the target is 20 ms. -/
theorem frame_pacing_served :
    let served := plainClient (.basic 800 600 true false) ++ [.startCapture ⟨.working, true⟩]
    let frame := fun id t => [.frameBuffer id 800 600 3200 (.working 5), .frameBufferDone id,
      .frameReady id (slowFrame t)]
    let frames := frame 0 1000 ++ frame 1 1020 ++ frame 2 1100
    let w := Worker.start true false false 800 600
    (worker.Always Worker.inLimits w (served ++ frames) ∧
      worker.Along Worker.PutsOut w (served ++ frames) ∧
      (w.frames (served ++ frames)).Pairwise Spaced ∧
      ∀ t, worker.Along (Worker.aimsAt t) (worker.run w served) frames →
        Converges t (worker.run w served) frames) ∧
      w.clock (served ++ frames) = [1000, 1010, 1010, 1020, 1100, 1110, 1110] :=
  ⟨frame_pacing true false false 800 600 (by decide +kernel), by decide +kernel⟩

end Wlrdp
