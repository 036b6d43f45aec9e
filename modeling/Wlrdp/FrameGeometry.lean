import Wlrdp.CaptureSoundness
import Wlrdp.WorkerSoundness

namespace Wlrdp
set_option autoImplicit true

/-- Every byte that the pass reads lies inside the mapping it was given. -/
def PixelRead.inBounds (rd : PixelRead) : Prop :=
  ∀ y < rd.height.toNat, ∀ x < 4 * rd.width.toNat,
    rd.pixels.any (fun n => y * rd.stride.toNat + x < n.toNat) = true

instance : DecidablePred PixelRead.inBounds := fun rd =>
  inferInstanceAs (Decidable (∀ y < rd.height.toNat, ∀ x < 4 * rd.width.toNat, _))

/-- Every codec pass stayed inside the mapping, and every picture on the wire is announced
with the size it was encoded for. -/
def Worker.GeometryAgrees (w : Worker) : Prop :=
  (∀ rd ∈ w.encoder.history.reads, rd.inBounds) ∧
    ∀ pic ∈ framesOf w.out, pic.data.map (fun b => (b.width, b.height)) =
      some (pic.width, pic.height)

instance : DecidablePred Worker.GeometryAgrees := fun w =>
  inferInstanceAs (Decidable (_ ∧ ∀ pic ∈ framesOf w.out, _))

/-- The path of the client's frames has room for both sides of the desktop. -/
def Worker.announcesWhole (w : Worker) : Bool :=
  w.client.any (rdpPeerGetSendMode ·.ctx ≠ .surfaceBits) || w.width < 65536 && w.height < 65536

/-- The events that keep capture and encoder in the same geometry: a frame is only encoded at
the size that the desktop has by then and the client can be told, and the buffers suffice. -/
def Worker.geometrySafe (w : Worker) : Event → Bool
  | .frameReady _ r =>
    !w.frameDue r ||
      w.capture.width = w.width && w.capture.height = w.height && w.announcesWhole
  | .frameBuffer _ width height stride r => w.capture.bufferSafe width height stride r
  | _ => true

/-- What ties the encoder to the desktop and the capture. -/
structure GeometryInv (w : Worker) : Prop where
  size : w.exited = false → w.encoderInitialized = true →
    w.encoder.width = w.width ∧ w.encoder.height = w.height
  capture : CaptureInv w.capture
  backed : w.Backed
  agrees : w.GeometryAgrees

variable {w w' : Worker} {e : Event}

theorem GeometryInv.start :
    GeometryInv (.start standalone clipboard audio width height) := by
  refine ⟨fun _ hi => (by cases hi), .init, fun hi => (by cases hi), fun _ h => (by cases h), ?_⟩
  cases standalone <;> exact List.forall_mem_nil _

theorem inBounds_of_mapped (hs : n.toNat = stride.toNat * height.toNat)
    (hw : 4 * width.toNat ≤ stride.toNat) : PixelRead.inBounds ⟨some n, width, height, stride⟩ := by
  intro y hy x hx
  rw [Option.any_some, decide_eq_true_eq, hs]
  calc y * stride.toNat + x < y * stride.toNat + stride.toNat := by
        apply Nat.add_lt_add_left
        exact Nat.lt_of_lt_of_le hx hw
    _ = (y + 1) * stride.toNat := (Nat.succ_mul ..).symm
    _ ≤ height.toNat * stride.toNat := Nat.mul_le_mul_right _ hy
    _ = stride.toNat * height.toNat := Nat.mul_comm ..

theorem toUInt16_toUInt32 {x : UInt32} (h : x < 65536) : x.toUInt16.toUInt32 = x := by
  rw [UInt32.lt_iff_toNat_lt] at h
  apply UInt32.toNat_inj.1
  rw [UInt16.toNat_toUInt32, UInt32.toNat_toUInt16]
  exact Nat.mod_eq_of_lt h

theorem announcedSide_whole (h : mode ≠ .surfaceBits ∨ side < 65536) :
    announcedSide mode side = side := by
  cases mode with
  | surfaceBits => exact toUInt16_toUInt32 (h.resolve_left fun hm => hm rfl)
  | gfxAvc420 | gfxAvc444 | gfxAvc444v2 | gfxProgressive => rfl

theorem announcesWhole_sides {c : Client} (hc : w.client = some c)
    (h : w.announcesWhole = true) :
    announcedSide (rdpPeerGetSendMode c.ctx) w.width = w.width ∧
      announcedSide (rdpPeerGetSendMode c.ctx) w.height = w.height := by
  rw [Worker.announcesWhole, hc, Option.any_some] at h
  rcases Bool.or_eq_true_iff.1 h with hmode | hsize
  · have hmode := of_decide_eq_true hmode
    exact ⟨announcedSide_whole (.inl hmode), announcedSide_whole (.inl hmode)⟩
  · obtain ⟨hwidth, hheight⟩ := Bool.and_eq_true_iff.1 hsize
    exact ⟨announcedSide_whole (.inr (of_decide_eq_true hwidth)),
      announcedSide_whole (.inr (of_decide_eq_true hheight))⟩

/-- An encode at the size of the desktop reads inside the mapping. -/
theorem encode_geometry (h : GeometryInv w) (hx : w.exited = false)
    (hi : w.encoderInitialized = true)
    (hm : ∃ n, w.capture.pixels = some n)
    (hd : w.capture.width = w.width ∧ w.capture.height = w.height)
    (he : encoderEncode w.encoder w.capture.pixels w.capture.stride r = (ok, enc)) :
    (enc.width = w.width ∧ enc.height = w.height) ∧ ∀ rd ∈ enc.history.reads, rd.inBounds := by
  have hstep := encoderEncode_spec he
  obtain ⟨hw, hh⟩ := h.size hx hi
  refine ⟨⟨hstep.setup.width.trans hw, hstep.setup.height.trans hh⟩, fun rd hrd => ?_⟩
  rcases hstep.reads with hr | hr
  · rw [hr] at hrd
    exact h.agrees.1 rd hrd
  · rw [hr] at hrd
    rcases List.mem_cons.1 hrd with rfl | hrd
    · obtain ⟨n, hn⟩ := hm
      obtain ⟨hsize, hstride⟩ := h.capture.mapped n hn
      rw [hn, hw, hh, ← hd.1, ← hd.2]
      exact inBounds_of_mapped hsize hstride
    · exact h.agrees.1 rd hrd

theorem frameStep_geometry (h : GeometryInv w) (hx : w.exited = false)
    (hm : ∃ n, w.capture.pixels = some n)
    (hd : w.frameDue r = true →
      (w.capture.width = w.width ∧ w.capture.height = w.height) ∧ w.announcesWhole = true)
    (hs : FrameStep w w.capture.pixels w.capture.width w.capture.height w.capture.stride r w') :
    GeometryInv w' := by
  have hbacked := frameStep_backed h.backed hs
  cases hs with
  | ignored => exact h
  | throttled _ _ hw => exact hw ▸ ⟨h.size, h.capture.request _, h.backed, h.agrees⟩
  | unsent hs hdue he hw =>
    have hi : w.encoderInitialized = true := (Bool.and_eq_true_iff.1 hs).2
    obtain ⟨hsize, hreads⟩ := encode_geometry h hx hi hm (hd hdue).1 he
    subst hw
    exact ⟨fun _ _ => hsize, h.capture.request _, hbacked, hreads, h.agrees.2⟩
  | sent hs hdue hc he hp _ _ hw hn =>
    have hi : w.encoderInitialized = true := (Bool.and_eq_true_iff.1 hs).2
    obtain ⟨hdesktop, hwhole⟩ := hd hdue
    obtain ⟨hsize, hreads⟩ := encode_geometry h hx hi hm hdesktop he
    subst hw hp
    refine ⟨fun _ _ => hsize, h.capture.request _, hbacked, hreads, fun pic hpic => ?_⟩
    rcases rdpPeerSendFrame_frames (w.peer _) _ w.capture.width w.capture.height r.send with
      hf | ⟨hf, _⟩
    · exact h.agrees.2 pic (hf ▸ hpic)
    · rcases List.mem_append.1 (hf ▸ hpic) with hpic | hpic
      · exact h.agrees.2 pic hpic
      · rw [List.mem_singleton.1 hpic]
        obtain ⟨hw, hh⟩ := h.size hx hi
        obtain ⟨hwidth, hheight⟩ := announcesWhole_sides hc hwhole
        change Option.map _ (Encoder.outBuf _) = some (announcedSide _ w.capture.width,
          announcedSide _ w.capture.height)
        rw [(encoderEncode_spec he).outBuf rfl (h.backed hi) hn, hw, hh, hdesktop.1, hdesktop.2]
        exact congrArg some (Prod.ext hwidth.symm hheight.symm)

theorem GeometryInv.keep (h : GeometryInv w)
    (hsize : w'.exited = false → w'.encoderInitialized = true →
      w'.encoder.width = w'.width ∧ w'.encoder.height = w'.height)
    (hcap : CaptureInv w'.capture) (hbacked : w'.Backed)
    (hreads : w'.encoder.history.reads = w.encoder.history.reads)
    (hf : framesOf w'.out = framesOf w.out) : GeometryInv w' := by
  refine ⟨hsize, hcap, hbacked, ?_⟩
  rw [Worker.GeometryAgrees, hreads, hf]
  exact h.agrees

theorem GeometryInv.media (h : GeometryInv w) (hs : SameMedia w w') : GeometryInv w' := by
  refine h.keep ?_ ?_ (fun hi => ?_) ?_ ?_
  · rw [hs.encoder, hs.width, hs.height, hs.encoderInitialized, hs.exited]
    exact h.size
  · exact hs.capture ▸ h.capture
  · rw [hs.encoder]
    exact h.backed (hs.encoderInitialized ▸ hi)
  · rw [hs.encoder]
  · exact hs.frames

theorem mediaStep_geometry (h : GeometryInv w) (he : w.enabled e)
    (hg : w.geometrySafe e = true) (hs : MediaStep w e w') : GeometryInv w' := by
  have hbacked := mediaStep_backed h.backed hs
  cases hs with
  | kept _ hs => exact h.media hs
  | rerouted hs => exact h.media hs
  | resized _ _ hs =>
    refine h.keep ?_ ?_ hbacked ?_ ?_
    · intro _ hi
      have hinit := hs.encoder (hs.encoderInitialized ▸ hi)
      exact ⟨hinit.width, hinit.height⟩
    · exact hs.capture ▸ h.capture
    · cases hi : w.encoderInitialized with
      | false => rw [hs.idle hi]
      | true => exact (hs.encoder hi).reads
    · exact hs.frames
  | began r _ hs =>
    refine h.keep ?_ ?_ hbacked ?_ ?_
    · intro _ _
      rw [hs.width, hs.height]
      exact ⟨hs.encoder.width, hs.encoder.height⟩
    · rw [hs.capture]
      exact h.capture.request _
    · exact hs.encoder.reads
    · exact hs.frames
  | left _ hs =>
    refine h.keep ?_ ?_ hbacked ?_ ?_
    · intro _ hi
      rw [hs.encoderInitialized] at hi
      cases hi
    · exact hs.capture ▸ h.capture
    · exact hs.reads
    · exact hs.frames
  | frameBuffer id width height stride r =>
    have hw : 4 * width.toNat ≤ stride.toNat := by
      simpa using (Bool.and_eq_true_iff.1 he.2).2
    exact ⟨h.size, h.capture.buffer hg hw, hbacked, h.agrees⟩
  | frameBufferDone id => exact ⟨h.size, h.capture.bufferDone id, hbacked, h.agrees⟩
  | frameReady id r =>
    have hd : GeometryInv (w.finishFrame id) :=
      ⟨h.size, h.capture.destroyFrame id, h.backed, h.agrees⟩
    have hg' : (!w.frameDue r || w.capture.width = w.width && w.capture.height = w.height &&
      w.announcesWhole) = true := hg
    refine frameStep_geometry hd he.1 (h.capture.ready he.2) (fun hdue => ?_)
      (frameReady_step w id r)
    have hdue' : w.frameDue r = true := hdue
    rw [hdue', Bool.not_true, Bool.false_or, Bool.and_eq_true, Bool.and_eq_true,
      decide_eq_true_eq, decide_eq_true_eq] at hg'
    exact hg'
  | frameFailed id => exact ⟨h.size, h.capture.destroyFrame id, hbacked, h.agrees⟩
  | exited =>
    refine h.keep ?_ ?_ hbacked ?_ ?_
    · intro hx
      cases hx
    · exact .cleared
    · change (if w.encoderInitialized then encoderDestroy w.encoder else w.encoder).history.reads = _
      split
      · exact encoderDestroy_reads _
      · rfl
    · apply framesOf_quiet
      intro o ho
      split at ho
      · cases ho
      · rw [List.mem_singleton.1 ho]; rfl

/-- Every frame of a run of safe events is read inside its mapping and announced with the size
it was encoded for. -/
theorem geometry_agrees_of_safe
    (hl : worker.Legal (.start standalone clipboard audio width height) es)
    (hs : worker.Along (fun w e => w.geometrySafe e = true)
      (.start standalone clipboard audio width height) es) :
    worker.Always Worker.GeometryAgrees (.start standalone clipboard audio width height) es := by
  have hinv : worker.Always (fun w => WorkerInv w ∧ GeometryInv w)
      (.start standalone clipboard audio width height) es := by
    refine System.always_of_step ?_ ⟨.start, .start⟩ (hl.and hs)
    rintro w e ⟨hw, hg⟩ ⟨he, hsafe⟩
    have hsound := step_sound hw he
    exact ⟨hsound.inv, mediaStep_geometry hg he hsafe hsound.media⟩
  exact hinv.mono fun _ h => h.2.agrees

/-- A 16x16 client asks for 32x32 while its first frame is outstanding, and the compositor
announces that frame with the given geometry. -/
def resizedRun (width height stride : UInt32) : List Event :=
  plainClient (.basic 16 16 false false) ++ [.startCapture ⟨.working, true⟩,
    .settings (.basic 32 32 false false), .desktopResize .done] ++
    frameEvents 0 width height stride 100

theorem geometry_agrees_of_safe_resized :
    worker.Legal (.start true false false 16 16) (resizedRun 32 32 128) ∧
      worker.Always Worker.GeometryAgrees (.start true false false 16 16) (resizedRun 32 32 128) :=
  ⟨by decide, geometry_agrees_of_safe (by decide) (by decide)⟩

/-- When the compositor has not switched modes yet, the encoder reads past the mapping. -/
theorem late_mode_switch_disagrees :
    worker.Legal (.start true false false 16 16) (resizedRun 16 16 64) ∧
      ¬ worker.Always Worker.GeometryAgrees (.start true false false 16 16)
        (resizedRun 16 16 64) := by
  decide +kernel

end Wlrdp
