import Wlrdp.CaptureSoundness
import Wlrdp.WorkerSoundness

namespace Wlrdp
set_option autoImplicit true

variable {w w' : Worker} {cap : Capture} {id : Nat}

/-! ### The number of outstanding frames -/

@[simp] theorem setPhase_length (cap : Capture) (id : Nat) (phase : FramePhase) :
    (cap.setPhase id phase).frames.length = cap.frames.length := List.length_map ..

theorem destroyFrame_length (h : cap.mayFail id = true) :
    (cap.destroyFrame id).frames.length = cap.frames.length - 1 := by
  obtain ⟨f, hf, hid⟩ := List.any_eq_true.1 h
  exact List.length_eraseP_of_mem hf (by simpa using hid)

theorem mayFail_of_inPhase (h : cap.inPhase id phase = true) : cap.mayFail id = true := by
  obtain ⟨f, hf, hid⟩ := List.any_eq_true.1 h
  exact List.any_eq_true.2 ⟨f, hf, by simpa using (Bool.and_eq_true_iff.1 hid).1⟩

theorem mayFail_setPhase (h : cap.mayFail id = true) :
    (cap.setPhase id phase).mayFail id = true := by
  obtain ⟨f, hf, hid⟩ := List.any_eq_true.1 h
  refine List.any_eq_true.2 ⟨_, List.mem_map_of_mem hf, ?_⟩
  split <;> simpa using hid

theorem mayFail_of_frames {cap' : Capture} (hf : cap.frames = cap'.frames)
    (h : cap.mayFail id = true) : cap'.mayFail id = true := by
  simp only [Capture.mayFail, Capture.inPhase] at h ⊢
  rwa [← hf]

theorem request_length (cap : Capture) (frame : Bool) :
    (captureRequestFrame cap frame).2.frames.length =
      cap.frames.length + if frame then 1 else 0 := by
  cases frame with
  | false => rfl
  | true => exact List.length_append

/-- A buffer announcement costs the frame exactly when a new buffer is needed and fails. -/
theorem frameBuffer_length (h : cap.mayFail id = true) :
    (frameBuffer cap id width height stride r).frames.length =
      if cap.hasGeometry width height stride || r.ok then cap.frames.length
      else cap.frames.length - 1 := by
  have hstep := frameBuffer_step cap id width height stride r
  generalize frameBuffer cap id width height stride r = cap₁ at hstep
  cases hstep with
  | reused hg => rw [hg, Bool.true_or, if_pos rfl, setPhase_length]
  | mapped hg hr ha => rw [hg, hr, Bool.or_true, if_pos rfl, ha.frames, setPhase_length]
  | failed hg hr ha =>
    have hset : (cap.setPhase id .announced).mayFail id = true := mayFail_setPhase h
    have hfail : Capture.mayFail _ id = true := mayFail_of_frames ha.frames.symm hset
    rw [hg, hr, Bool.or_false, if_neg (by decide), destroyFrame_length hfail, ha.frames,
      setPhase_length]

/-- A served frame is followed by the next request. -/
theorem frameStep_length (hs : FrameStep w px width height stride r w') :
    w'.capture.frames.length = w.capture.frames.length + if w.serving && r.frame then 1 else 0 := by
  cases hs with
  | ignored hs => rw [hs]; rfl
  | throttled hs _ hw => rw [hs, Bool.true_and, hw]; exact request_length ..
  | unsent hs _ _ hw => rw [hs, Bool.true_and, hw]; exact request_length ..
  | sent hs _ _ _ _ _ _ hw => rw [hs, Bool.true_and, hw]; exact request_length ..

def Worker.outstanding (w : Worker) : Nat := w.capture.frames.length

/-- How many frames are outstanding after an event. -/
def Worker.outstandingAfter (w : Worker) : Event → Nat
  | .startCapture r =>
    w.outstanding + if w.begins (.startCapture r) && r.frame then 1 else 0
  | .frameBuffer _ width height stride r =>
    if w.capture.hasGeometry width height stride || r.ok then w.outstanding
    else w.outstanding - 1
  | .frameReady _ r => w.outstanding - 1 + if w.serving && r.frame then 1 else 0
  | .frameFailed _ => w.outstanding - 1
  | .cleanup => 0
  | _ => w.outstanding

theorem outstandingAfter_calm (hn : e.capturing = false) (hb : w.begins e = false) :
    w.outstandingAfter e = w.outstanding := by
  cases e with
  | startCapture r =>
    simp only [Worker.outstandingAfter, hb, Bool.false_and]
    rfl
  | frameBuffer => cases hn
  | frameReady => cases hn
  | frameFailed => cases hn
  | cleanup => cases hn
  | _ => rfl

theorem outstandingAfter_quiet (hq : w.quiet e = true) :
    w.outstandingAfter e = w.outstanding := by
  obtain ⟨hn, hk⟩ := Bool.and_eq_true_iff.1 hq
  have hb := (Bool.and_eq_true_iff.1 (Bool.and_eq_true_iff.1 hk).1).1
  exact outstandingAfter_calm (Bool.not_eq_true' _ ▸ hn) (Bool.not_eq_true' _ ▸ hb)

theorem mediaStep_outstanding (he : w.enabled e) (hs : MediaStep w e w') :
    w'.outstanding = w.outstandingAfter e := by
  have hsame : w'.capture = w.capture → w'.outstanding = w.outstanding := by
    intro h
    simp only [Worker.outstanding]
    rw [h]
  cases hs with
  | kept hq hs => rw [outstandingAfter_quiet hq, hsame hs.capture]
  | left hq hs => rw [outstandingAfter_quiet hq, hsame hs.capture]
  | rerouted hs _ hr =>
    obtain ⟨hb, _, hn⟩ := reroutes_alone hr
    rw [outstandingAfter_calm hn hb, hsame hs.capture]
  | resized hz _ hs =>
    obtain ⟨hb, _, hn⟩ := resizes_alone hz
    rw [outstandingAfter_calm hn hb, hsame hs.capture]
  | began r hb hs =>
    simp only [Worker.outstandingAfter, hb, Bool.true_and]
    rw [Worker.outstanding, hs.capture]
    exact request_length ..
  | frameBuffer id =>
    have hmay : w.capture.mayAnnounce id = true := (Bool.and_eq_true_iff.1 he.2).1
    exact frameBuffer_length (mayFail_of_inPhase hmay)
  | frameBufferDone => exact setPhase_length ..
  | frameReady id r =>
    have hmay : w.capture.mayBeReady id = true := he.2
    have hlen := destroyFrame_length (mayFail_of_inPhase hmay)
    exact (frameStep_length (frameReady_step w id r)).trans (congrArg (· + _) hlen)
  | frameFailed => exact destroyFrame_length he.2
  | exited => rfl

/-! ### At most one capture in flight -/

def Worker.SingleCapture (w : Worker) : Prop := w.outstanding ≤ 1

instance : DecidablePred Worker.SingleCapture := fun w =>
  inferInstanceAs (Decidable (w.outstanding ≤ 1))

/-- The event does not start a second chain: a client is only activated, if that requests a
frame, once no frame of an earlier client is outstanding. -/
def Worker.startsAlone (w : Worker) : Event → Bool
  | .startCapture r => !(w.begins (.startCapture r) && r.frame) || w.outstanding = 0
  | _ => true

theorem singleCapture_step (h : w.SingleCapture) (he : w.enabled e) (hs : MediaStep w e w') :
    w'.SingleCapture ↔ w.startsAlone e = true := by
  have hle : w.outstanding ≤ 1 := h
  rw [Worker.SingleCapture, mediaStep_outstanding he hs]
  cases e with
  | startCapture r =>
    simp only [Worker.outstandingAfter, Worker.startsAlone]
    cases w.begins (.startCapture r) && r.frame with
    | false => exact iff_of_true (by simpa using hle) rfl
    | true =>
      simp only [↓reduceIte, Bool.not_true, Bool.false_or, decide_eq_true_eq]
      omega
  | frameBuffer id width height stride r =>
    refine iff_of_true ?_ rfl
    simp only [Worker.outstandingAfter]
    split <;> omega
  | frameReady id r =>
    have hmay : w.capture.mayBeReady id = true := he.2
    obtain ⟨f, hf, _⟩ := List.any_eq_true.1 hmay
    have hpos : 0 < w.outstanding := List.length_pos_of_mem hf
    refine iff_of_true ?_ rfl
    simp only [Worker.outstandingAfter]
    split <;> omega
  | frameFailed id =>
    refine iff_of_true ?_ rfl
    simp only [Worker.outstandingAfter]
    omega
  | cleanup => exact iff_of_true (Nat.zero_le _) rfl
  | _ => exact iff_of_true hle rfl

/-- A run never has two captures in flight exactly when every activation finds none. -/
theorem single_capture_iff
    (hl : worker.Legal (.start standalone clipboard audio width height) es) :
    worker.Always Worker.SingleCapture (.start standalone clipboard audio width height) es ↔
      worker.Along (fun w e => w.startsAlone e = true)
        (.start standalone clipboard audio width height) es := by
  refine System.always_iff_along workerInv_step ?_ .start (Nat.zero_le 1) hl
  intro w e hw hone he
  exact singleCapture_step hone he (step_sound hw he).media

/-- A client that disconnects with its first frame outstanding, and the next one. -/
def reconnectRun : List Event :=
  plainClient (.basic 16 16 false false) ++ [.startCapture ⟨.working, true⟩, .checkFailed] ++
    plainClient (.basic 16 16 false false)

theorem single_capture_iff_reconnect :
    worker.Legal (.start true false false 16 16)
        (reconnectRun ++ frameEvents 0 16 16 64 100 ++ [.startCapture ⟨.working, true⟩]) ∧
      worker.Always Worker.SingleCapture (.start true false false 16 16)
        (reconnectRun ++ frameEvents 0 16 16 64 100 ++ [.startCapture ⟨.working, true⟩]) :=
  ⟨by decide, (single_capture_iff (by decide)).2 (by decide)⟩

/-- The second client activates before the frame of the first completes. -/
theorem reconnect_doubles_capture :
    worker.Legal (.start true false false 16 16)
        (reconnectRun ++ [.startCapture ⟨.working, true⟩]) ∧
      ¬ worker.Always Worker.SingleCapture (.start true false false 16 16)
        (reconnectRun ++ [.startCapture ⟨.working, true⟩]) := by
  decide

/-! ### The capture never stalls -/

/-- Whoever is being served waits for a frame. -/
def Worker.NeverStalled (w : Worker) : Prop :=
  w.exited = false → w.clientActive = true → w.encoderInitialized = true → 0 < w.outstanding

instance : DecidablePred Worker.NeverStalled := fun w =>
  inferInstanceAs (Decidable (_ → _ → _ → 0 < w.outstanding))

/-- The event's `capture_output`, if there is one, yields a frame. -/
def Event.yields : Event → Bool
  | .startCapture r => r.frame
  | .frameReady _ r => r.frame
  | _ => true

/-- The event does not lose the only outstanding frame of a client being served: a capture that
fails, or cannot get its buffer, is another client's leftover or one of several. -/
def Worker.capturesOn (w : Worker) : Event → Bool
  | .frameBuffer _ width height stride r =>
    w.capture.hasGeometry width height stride || r.ok || !w.clientActive || 1 < w.outstanding
  | .frameFailed _ => !w.clientActive || 1 < w.outstanding
  | _ => true

theorem capturesOn_calm (hn : e.capturing = false) : w.capturesOn e = true := by
  cases e with
  | frameBuffer => cases hn
  | frameFailed => cases hn
  | _ => rfl

theorem neverStalled_same (h : w.NeverStalled) (hx : w'.exited = w.exited)
    (ha : w'.clientActive = w.clientActive)
    (hi : w'.encoderInitialized = w.encoderInitialized) (ho : w'.outstanding = w.outstanding) :
    w'.NeverStalled := by
  rw [Worker.NeverStalled, hx, ha, hi, ho]
  exact h

/-- What is left of the frames when one is lost. -/
theorem neverStalled_iff_lost (hw : WorkerInv w) :
    (w.clientActive = true → w.encoderInitialized = true → 0 < w.outstanding - 1) ↔
      (!w.clientActive || decide (1 < w.outstanding)) = true := by
  rw [← hw.active]
  cases w.clientActive with
  | false => simp
  | true =>
    simp only [Bool.not_true, Bool.false_or, decide_eq_true_eq, true_imp_iff]
    omega

theorem serving_of_active (hw : WorkerInv w) (hx : w.exited = false)
    (ha : w.clientActive = true) : w.serving = true := by
  have hi : w.encoderInitialized = true := hw.active ▸ ha
  obtain ⟨c, hc, _⟩ := hw.settled hx hi
  rw [Worker.serving, ha, hi, hc]
  rfl

theorem frameStep_active (hs : FrameStep w px width height stride r w') :
    w'.clientActive = w.clientActive := by
  cases hs with
  | ignored => rfl
  | throttled _ _ hw => rw [hw]; rfl
  | unsent _ _ _ hw => rw [hw]; rfl
  | sent _ _ _ _ _ _ _ hw => rw [hw]; rfl

theorem neverStalled_step (hw : WorkerInv w) (h : w.NeverStalled) (he : w.enabled e)
    (hy : e.yields = true) (hs : MediaStep w e w') :
    w'.NeverStalled ↔ w.capturesOn e = true := by
  have hout := mediaStep_outstanding he hs
  have hcalm : e.capturing = false → w'.NeverStalled →
      (w'.NeverStalled ↔ w.capturesOn e = true) := fun hn hp => iff_of_true hp (capturesOn_calm hn)
  cases hs with
  | kept hq hs =>
    have hn : e.capturing = false := by simpa using (Bool.and_eq_true_iff.1 hq).1
    rw [outstandingAfter_quiet hq] at hout
    exact hcalm hn (neverStalled_same h hs.exited hs.clientActive hs.encoderInitialized hout)
  | rerouted hs _ hr =>
    obtain ⟨hb, _, hn⟩ := reroutes_alone hr
    rw [outstandingAfter_calm hn hb] at hout
    exact hcalm hn (neverStalled_same h hs.exited hs.clientActive hs.encoderInitialized hout)
  | resized hz _ hs =>
    obtain ⟨hb, _, hn⟩ := resizes_alone hz
    rw [outstandingAfter_calm hn hb] at hout
    exact hcalm hn (neverStalled_same h hs.exited hs.clientActive hs.encoderInitialized hout)
  | left hq hs =>
    have hn : e.capturing = false := by simpa using (Bool.and_eq_true_iff.1 hq).1
    apply hcalm hn
    intro _ ha
    rw [hs.clientActive] at ha
    cases ha
  | began r hb hs =>
    apply hcalm rfl
    intro _ _ _
    have hframe : r.frame = true := hy
    simp only [Worker.outstandingAfter, hb, hframe, Bool.and_self, ↓reduceIte] at hout
    omega
  | frameBuffer id width height stride r =>
    rw [Worker.NeverStalled, hout]
    simp only [Worker.outstandingAfter, Worker.capturesOn]
    cases w.capture.hasGeometry width height stride || r.ok with
    | true => exact iff_of_true h rfl
    | false =>
      rw [if_neg (by decide), Bool.false_or, ← neverStalled_iff_lost hw]
      exact ⟨fun h => h he.1, fun h _ => h⟩
  | frameBufferDone => exact iff_of_true (neverStalled_same h rfl rfl rfl hout) rfl
  | frameReady id r =>
    refine iff_of_true (fun _ ha _ => ?_) rfl
    have hframe : r.frame = true := hy
    rw [frameStep_active (frameReady_step w id r)] at ha
    have hserving : w.serving = true := serving_of_active hw he.1 ha
    simp only [Worker.outstandingAfter, hserving, hframe, Bool.and_self, ↓reduceIte] at hout
    omega
  | frameFailed id =>
    rw [Worker.NeverStalled, hout]
    simp only [Worker.outstandingAfter, Worker.capturesOn]
    rw [← neverStalled_iff_lost hw]
    exact ⟨fun h => h he.1, fun h _ => h⟩
  | exited => exact iff_of_true (fun hx => by cases hx) rfl

/-- A run in which every request yields a frame never stalls exactly when it never loses the
last frame of the client being served. -/
theorem never_stalled_iff
    (hl : worker.Legal (.start standalone clipboard audio width height) es)
    (hy : ∀ e ∈ es, e.yields = true) :
    worker.Always Worker.NeverStalled (.start standalone clipboard audio width height) es ↔
      worker.Along (fun w e => w.capturesOn e = true)
        (.start standalone clipboard audio width height) es := by
  refine System.always_iff_along (fun w e h he => workerInv_step w e h he.1) ?_ .start
    (fun _ h => by cases h) (hl.and (System.along_of_forall hy))
  rintro w e hw hlive ⟨he, hy⟩
  exact neverStalled_step hw hlive he hy (step_sound hw he).media

theorem never_stalled_iff_served :
    worker.Legal (.start true false false 16 16)
        (plainClient (.basic 16 16 false false) ++ [.startCapture ⟨.working, true⟩] ++
          frameEvents 0 16 16 64 100) ∧
      worker.Always Worker.NeverStalled (.start true false false 16 16)
        (plainClient (.basic 16 16 false false) ++ [.startCapture ⟨.working, true⟩] ++
          frameEvents 0 16 16 64 100) :=
  ⟨by decide, (never_stalled_iff (by decide) (by decide)).2 (by decide)⟩

/-- The compositor fails the only outstanding frame. -/
theorem failed_capture_stalls :
    worker.Legal (.start true false false 16 16)
        (plainClient (.basic 16 16 false false) ++
          [.startCapture ⟨.working, true⟩, .frameFailed 0]) ∧
      ¬ worker.Always Worker.NeverStalled (.start true false false 16 16)
        (plainClient (.basic 16 16 false false) ++
          [.startCapture ⟨.working, true⟩, .frameFailed 0]) := by
  decide

end Wlrdp
