import Wlrdp.WorkerSoundness

namespace Wlrdp
set_option autoImplicit true

/-- Every picture on the wire is announced as what its bytes are. -/
def Worker.CodecsAgree (w : Worker) : Prop :=
  ∀ pic ∈ framesOf w.out, pic.data.map (·.codec) = some pic.codec

instance : DecidablePred Worker.CodecsAgree := fun w =>
  inferInstanceAs (Decidable (∀ pic ∈ framesOf w.out, _))

/-- The encoder produces what the send path announces. RAW in the place of AVC420 counts as
well: its metablock is empty, and such a frame is never sent. -/
def Encoder.serves (enc : Encoder) (path : SendMode × Bool) : Bool :=
  announcedCodec path = enc.codec || path.1 = .gfxAvc420 && enc.mode = .raw

/-- The event calls `encoder_init`. -/
def Worker.initialises (w : Worker) (e : Event) : Bool :=
  w.begins e || w.resizes e && w.encoderInitialized

/-- The events after which encoder and sender still agree: where `encoder_init` runs, the
constructors of the requested codec succeed, unless AVC420 is requested; and while there is
an encoder, a new send path is one that it serves. -/
def Worker.codecSafe (w : Worker) (e : Event) : Bool :=
  (!w.initialises e || e.setup.all fun r =>
    r.delivers w.encoderRequest.1 || w.route.any (·.1 = .gfxAvc420)) &&
  (!w.encoderInitialized || (w.reroutes e).all w.encoder.serves)

/-- Encoder and sender agree, whether or not a frame is sent next. -/
def Worker.InSync (w : Worker) : Prop :=
  w.encoderInitialized = true → (w.route.all w.encoder.serves) = true

section
variable {c : Client} {r : CodecSetup} {e e' : Encoder} {w w' : Worker}

theorem initStep_codec (hd : r.delivers c.encoderRequest.1 = true)
    (h : InitStep c.encoderRequest.1 width height c.encoderRequest.2 r e e') :
    e'.codec = announcedCodec c.route := by
  have hm := h.mode
  have hv := h.version
  rw [hd, if_pos rfl] at hm
  rw [Encoder.codec, hm, hv]
  simp only [Client.encoderRequest, Client.route]
  cases rdpPeerGetSendMode c.ctx with
  | surfaceBits => cases c.settings.nscodec <;> rfl
  | gfxAvc420 => rfl
  | gfxAvc444 => rfl
  | gfxAvc444v2 => rfl
  | gfxProgressive => rfl

/-- Only RAW needs no constructor. -/
theorem announced_of_fallback (hd : r.delivers c.encoderRequest.1 = false) :
    announcedCodec c.route ≠ .none := by
  simp only [Client.encoderRequest] at hd
  simp only [Client.route]
  cases hm : rdpPeerGetSendMode c.ctx with
  | surfaceBits =>
    rw [hm] at hd
    cases hn : c.settings.nscodec with
    | false => rw [hn] at hd; cases hd
    | true => decide
  | gfxAvc420 => exact Codec.noConfusion
  | gfxAvc444 => exact Codec.noConfusion
  | gfxAvc444v2 => exact Codec.noConfusion
  | gfxProgressive => exact Codec.noConfusion

theorem initStep_serves (h : InitStep c.encoderRequest.1 width height c.encoderRequest.2 r e e') :
    e'.serves c.route = (r.delivers c.encoderRequest.1 || c.route.1 = .gfxAvc420) := by
  simp only [Encoder.serves]
  cases hd : r.delivers c.encoderRequest.1 with
  | true => rw [initStep_codec hd h, decide_eq_true rfl, Bool.true_or, Bool.true_or]
  | false =>
    have hm := h.mode
    rw [hd, if_neg (by decide)] at hm
    have hc : e'.codec = .none := by unfold Encoder.codec; rw [hm]
    rw [hc, hm, decide_eq_false (announced_of_fallback hd)]
    simp

/-- After a set-up for a client, encoder and path agree exactly when the constructors deliver
or AVC420 is requested. -/
theorem inSync_of_init (hc : w.client.map (·.route) = some c.route) (hr : w'.route = some c.route)
    (hi : w'.encoderInitialized = true)
    (h : InitStep c.encoderRequest.1 width height c.encoderRequest.2 r w.encoder w'.encoder) :
    w'.InSync ↔ (r.delivers c.encoderRequest.1 || w.route.any (·.1 = .gfxAvc420)) = true := by
  rw [Worker.InSync, hr, Option.all_some, initStep_serves h]
  have hw : w.route = some c.route := hc
  rw [hw, Option.any_some]
  exact ⟨fun h => h hi, fun h _ => h⟩

end

variable {w w' : Worker} {e : Event}

/-- What ties the encoder to the pictures. A RAW encoder has no region rectangles. -/
structure CodecInv (w : Worker) : Prop where
  sync : w.InSync
  bare : w.encoderInitialized = true → w.encoder.mode = .raw →
    w.encoder.h264Meta.numRegionRects = 0
  backed : w.Backed
  sent : w.CodecsAgree

theorem Worker.CodecsAgree.of_frames (h : Worker.CodecsAgree w)
    (hf : framesOf w'.out = framesOf w.out) : Worker.CodecsAgree w' := by
  simp only [Worker.CodecsAgree]
  rwa [hf]

theorem CodecInv.media (h : CodecInv w) (hs : SameMedia w w') (hsync : w'.InSync) :
    CodecInv w' := by
  refine ⟨hsync, fun hi => ?_, fun hi => ?_, h.sent.of_frames hs.frames⟩
  · rw [hs.encoder]
    exact h.bare (hs.encoderInitialized ▸ hi)
  · rw [hs.encoder]
    exact h.backed (hs.encoderInitialized ▸ hi)

theorem SameSetup.serves {e e' : Encoder} (h : SameSetup e e') : e'.serves = e.serves := by
  funext path
  unfold Encoder.serves Encoder.codec
  rw [h.mode, h.version]

theorem encode_bare (he : encoderEncode enc px stride r = (ok, enc'))
    (hb : enc.mode = .raw → enc.h264Meta.numRegionRects = 0) :
    enc'.mode = .raw → enc'.h264Meta.numRegionRects = 0 := by
  intro hm
  rw [(encoderEncode_spec he).setup.mode] at hm
  rw [encoderEncode_raw_metadata he hm]
  exact hb hm

/-- The picture that is sent is announced as what the encoder has just produced. -/
theorem sent_agrees {w : Worker} {c : Client} (h : CodecInv w) (hi : w.encoderInitialized = true)
    (hc : w.client = some c) (he : encoderEncode w.encoder px stride r = (true, enc))
    (hn : ¬ (enc.outLen = 0 ∧ enc.auxLen = 0)) :
    ∀ pic ∈ framesOf (rdpPeerSendFrame (w.peer c) enc.frame width height send).2.out,
      pic.data.map (·.codec) = some pic.codec := by
  intro pic hpic
  have hstep := encoderEncode_spec he
  rcases rdpPeerSendFrame_frames (w.peer c) enc.frame width height send with hf | ⟨hf, h420⟩
  · rw [hf] at hpic
    exact h.sent pic hpic
  · rw [hf, List.mem_append, List.mem_singleton] at hpic
    rcases hpic with hpic | rfl
    · exact h.sent pic hpic
    · have hsync := h.sync hi
      rw [Worker.route, hc] at hsync
      have hcodec : announcedCodec c.route = w.encoder.codec := by
        rcases Bool.or_eq_true_iff.1 hsync with hcodec | hraw
        · exact of_decide_eq_true hcodec
        · obtain ⟨ha, hm⟩ := Bool.and_eq_true_iff.1 hraw
          have hm := of_decide_eq_true hm
          have hz := encode_bare he (h.bare hi) (hstep.setup.mode.trans hm)
          exact absurd hz (h420 (of_decide_eq_true ha))
      change enc.outBuf.map (·.codec) = some (announcedCodec c.route)
      rw [hstep.outBuf rfl (h.backed hi) hn, hcodec]
      rfl

theorem frameStep_codec (h : CodecInv w) (hs : FrameStep w px width height stride r w') :
    CodecInv w' := by
  have hbacked := frameStep_backed h.backed hs
  cases hs with
  | ignored => exact h
  | throttled _ _ hw => exact hw ▸ ⟨h.sync, h.bare, h.backed, h.sent⟩
  | unsent _ _ he hw =>
    have hserves := (encoderEncode_spec he).setup.serves
    subst hw
    refine ⟨fun hi => ?_, fun hi => encode_bare he (h.bare hi), hbacked, h.sent⟩
    have hsync := h.sync hi
    rw [← hserves] at hsync
    exact hsync
  | sent hs _ hc he hp _ _ hw hn =>
    have hi : w.encoderInitialized = true := (Bool.and_eq_true_iff.1 hs).2
    have hserves := (encoderEncode_spec he).setup.serves
    subst hw hp
    refine ⟨fun hi => ?_, fun hi => encode_bare he (h.bare hi), hbacked,
      sent_agrees h hi hc he hn⟩
    have hsync := h.sync hi
    rw [Worker.route, hc, ← hserves] at hsync
    change (some (Client.route _)).all _ = true
    rw [route_sendFrame]
    exact hsync

theorem keepsEncoder_safe (hq : w.keepsEncoder e = true) : w.codecSafe e = true := by
  simp only [Worker.keepsEncoder] at hq
  simp only [Worker.codecSafe, Worker.initialises]
  simp only [Bool.and_eq_true, Bool.not_eq_true', Option.isNone_iff_eq_none] at hq
  rw [hq.1.1, hq.1.2, hq.2]
  simp

theorem quiet_safe (hq : w.quiet e = true) : w.codecSafe e = true :=
  keepsEncoder_safe (Bool.and_eq_true_iff.1 hq).2

theorem encoderRequest_of_client {w : Worker} {c : Client} (hc : w.client = some c) :
    w.encoderRequest = c.encoderRequest := by
  rw [Worker.encoderRequest, hc]

/-- What one event does to the agreement between encoder and sender. -/
theorem mediaStep_inSync (hw : WorkerInv w) (hx : w.exited = false) (h : CodecInv w)
    (hs : MediaStep w e w') : w'.InSync ↔ w.codecSafe e = true := by
  cases hs with
  | kept hq hs hr =>
    refine iff_of_true (fun hi => ?_) (quiet_safe hq)
    have hi' : w.encoderInitialized = true := hs.encoderInitialized ▸ hi
    rw [hr hi', hs.encoder]
    exact h.sync hi'
  | left hq hs =>
    refine iff_of_true (fun hi => ?_) (quiet_safe hq)
    rw [hs.encoderInitialized] at hi
    cases hi
  | rerouted hs path he hr =>
    obtain ⟨hb, hz, _⟩ := reroutes_alone he
    simp only [Worker.InSync, Worker.codecSafe, Worker.initialises]
    rw [hb, hz, he, hs.encoderInitialized, hs.encoder]
    cases hi : w.encoderInitialized with
    | false => exact iff_of_true (fun hi => by cases hi) rfl
    | true =>
      rw [hr hi]
      exact ⟨fun h => h rfl, fun h _ => h⟩
  | resized hz hset hs =>
    obtain ⟨hb, he, _⟩ := resizes_alone hz
    rw [Worker.codecSafe, Worker.initialises, hb, hz, he, hset]
    cases hi : w.encoderInitialized with
    | false =>
      refine iff_of_true (fun hi' => ?_) rfl
      rw [hs.encoderInitialized, hi] at hi'
      cases hi'
    | true =>
      obtain ⟨c, hc, _⟩ := hw.settled hx hi
      have hroute : w.route = some c.route := congrArg (Option.map Client.route) hc
      have hinit := hs.encoder hi
      rw [encoderRequest_of_client hc] at hinit ⊢
      rw [inSync_of_init hroute (hs.route.trans hroute) (hs.encoderInitialized.trans hi) hinit]
      simp
  | began r hb hs =>
    obtain ⟨c, hc⟩ : ∃ c, w.client = some c := by
      simp only [Worker.begins] at hb
      cases hc : w.client with
      | none => rw [hc] at hb; cases hb
      | some c => exact ⟨c, rfl⟩
    have hroute : w.route = some c.route := congrArg (Option.map Client.route) hc
    have hroute' : w'.route = some c.route :=
      congrArg (Option.map Client.route) (hs.client.trans hc)
    have hinit := hs.encoder
    simp only [Worker.codecSafe, Worker.initialises]
    rw [encoderRequest_of_client hc] at hinit ⊢
    rw [inSync_of_init hroute hroute' hs.encoderInitialized hinit, hb]
    simp [Event.setup, Worker.reroutes]
  | frameBuffer => exact iff_of_true h.sync (keepsEncoder_safe rfl)
  | frameBufferDone => exact iff_of_true h.sync (keepsEncoder_safe rfl)
  | frameReady id r =>
    have hd : CodecInv (w.finishFrame id) := ⟨h.sync, h.bare, h.backed, h.sent⟩
    exact iff_of_true (frameStep_codec hd (frameReady_step w id r)).sync (keepsEncoder_safe rfl)
  | frameFailed => exact iff_of_true h.sync (keepsEncoder_safe rfl)
  | exited => exact iff_of_true (fun _ => rfl) (keepsEncoder_safe rfl)

theorem mediaStep_codec (h : CodecInv w) (hs : MediaStep w e w') (hsync : w'.InSync) :
    CodecInv w' := by
  have hbare : w'.encoder.h264Meta = .zero → w'.encoder.h264Meta.numRegionRects = 0 := by
    intro hz
    rw [hz]
    rfl
  have hbacked := mediaStep_backed h.backed hs
  cases hs with
  | kept _ hs => exact h.media hs hsync
  | rerouted hs => exact h.media hs hsync
  | resized _ _ hs =>
    refine ⟨hsync, fun hi _ => ?_, hbacked, h.sent.of_frames hs.frames⟩
    exact hbare (hs.encoder (hs.encoderInitialized ▸ hi)).h264Meta
  | began r _ hs =>
    exact ⟨hsync, fun _ _ => hbare hs.encoder.h264Meta, hbacked, h.sent.of_frames hs.frames⟩
  | left _ hs =>
    refine ⟨hsync, fun hi => ?_, hbacked, h.sent.of_frames hs.frames⟩
    rw [hs.encoderInitialized] at hi
    cases hi
  | frameBuffer => exact ⟨hsync, h.bare, hbacked, h.sent⟩
  | frameBufferDone => exact ⟨hsync, h.bare, hbacked, h.sent⟩
  | frameReady id r =>
    have hd : CodecInv (w.finishFrame id) := ⟨h.sync, h.bare, h.backed, h.sent⟩
    exact frameStep_codec hd (frameReady_step w id r)
  | frameFailed => exact ⟨hsync, h.bare, hbacked, h.sent⟩
  | exited =>
    refine ⟨hsync, fun hi _ => ?_, hbacked, h.sent.of_frames (framesOf_quiet fun o ho => ?_)⟩
    · change w.encoderInitialized = true at hi
      simp only [Wlrdp.cleanup]
      rw [hi]
      rfl
    · split at ho
      · cases ho
      · rw [List.mem_singleton.1 ho]; rfl

theorem CodecInv.start : CodecInv (.start standalone clipboard audio width height) := by
  refine ⟨fun hi => (by cases hi), fun hi => (by cases hi), fun hi => (by cases hi), ?_⟩
  cases standalone <;> exact List.forall_mem_nil _

/-- A run keeps encoder and sender in agreement exactly when all of its events are safe. -/
theorem codecInv_iff_safe
    (hl : worker.Legal (.start standalone clipboard audio width height) es) :
    worker.Always CodecInv (.start standalone clipboard audio width height) es ↔
      worker.Along (fun w e => w.codecSafe e = true)
        (.start standalone clipboard audio width height) es := by
  refine System.always_iff_along workerInv_step ?_ .start .start hl
  intro w e hw hc he
  have hs := (step_sound hw he).media
  have hiff := mediaStep_inSync hw he.1 hc hs
  exact ⟨fun h => hiff.1 h.sync, fun h => mediaStep_codec hc hs (hiff.2 h)⟩

/-- Every picture of a run of safe events is announced as what it is. -/
theorem codecs_agree_of_safe
    (hl : worker.Legal (.start standalone clipboard audio width height) es)
    (hs : worker.Along (fun w e => w.codecSafe e = true)
      (.start standalone clipboard audio width height) es) :
    worker.Always Worker.CodecsAgree (.start standalone clipboard audio width height) es :=
  ((codecInv_iff_safe hl).2 hs).mono fun _ h => h.sent

/-- A client whose first frame is sent with NSCodec. -/
def servedRun (setup : CodecSetup) : List Event :=
  plainClient (.basic 16 16 true false) ++ [.startCapture ⟨setup, true⟩] ++
    frameEvents 0 16 16 64 100

theorem codecs_agree_of_safe_served :
    worker.Legal (.start true false false 16 16) (servedRun .working) ∧
      worker.Always Worker.CodecsAgree (.start true false false 16 16) (servedRun .working) :=
  ⟨by decide, codecs_agree_of_safe (by decide) (by decide)⟩

/-- Without its NSCodec constructor the encoder falls back to RAW, which the sender goes on to
announce as NSCodec. -/
theorem nscodec_fallback_disagrees :
    worker.Legal (.start true false false 16 16) (servedRun .broken) ∧
      ¬ worker.Always Worker.CodecsAgree (.start true false false 16 16) (servedRun .broken) := by
  decide

end Wlrdp
