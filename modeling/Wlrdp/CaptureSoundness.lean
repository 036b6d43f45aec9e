import Wlrdp.CaptureSemantics

namespace Wlrdp
set_option autoImplicit true

/-- The frame is being copied into a real buffer. -/
def Frame.copies (f : Frame) : Bool :=
  match f.phase with
  | .copying (some _) => true
  | _ => false

/-- What `alloc_buffer` leaves behind. -/
structure AllocStep (w h s : UInt32) (r : ShmSetup) (cap : Capture) (ok : Bool)
    (cap' : Capture) : Prop where
  result : ok = r.ok
  width : cap'.width = w
  height : cap'.height = h
  stride : cap'.stride = s
  pixels : cap'.pixels = if ok then some (s * h) else none
  buffer : cap'.buffer = if ok then some ⟨w, h, s, s * h⟩ else none
  frames : cap'.frames = cap.frames
  nextFrame : cap'.nextFrame = cap.nextFrame

theorem allocBuffer_step (h : allocBuffer cap width height stride r = (ok, cap')) :
    AllocStep width height stride r cap ok cap' := by
  rw [allocBuffer, createShmFile] at h
  cases hs : r.shmOpen with
  | none =>
    rw [hs] at h
    obtain ⟨rfl, rfl⟩ := h
    refine ⟨?_, rfl, rfl, rfl, rfl, rfl, rfl, rfl⟩
    rw [ShmSetup.ok, hs]
    rfl
  | some fd =>
  rw [hs] at h
  cases ht : r.ftruncate with
  | false =>
    rw [ht] at h
    obtain ⟨rfl, rfl⟩ := h
    refine ⟨?_, rfl, rfl, rfl, rfl, rfl, rfl, rfl⟩
    rw [ShmSetup.ok, ht, Bool.and_false, Bool.false_and]
  | true =>
  rw [ht] at h
  cases hm : r.mmap with
  | false =>
    rw [hm] at h
    obtain ⟨rfl, rfl⟩ := h
    refine ⟨?_, rfl, rfl, rfl, rfl, rfl, rfl, rfl⟩
    rw [ShmSetup.ok, hm, Bool.and_false]
  | true =>
    rw [hm] at h
    obtain ⟨rfl, rfl⟩ := h
    refine ⟨?_, rfl, rfl, rfl, rfl, rfl, rfl, rfl⟩
    rw [ShmSetup.ok, hs, ht, hm]
    rfl

/-- What `frame_buffer` does to the frames and the mapping. -/
inductive BufferStep (cap : Capture) (id : Nat) (width height stride : UInt32) (r : ShmSetup) :
    Capture → Prop
  | reused (hg : cap.hasGeometry width height stride = true) :
      BufferStep cap id width height stride r (cap.setPhase id .announced)
  | mapped (hg : cap.hasGeometry width height stride = false) (hr : r.ok = true)
      (h : AllocStep width height stride r (cap.setPhase id .announced) true cap') :
      BufferStep cap id width height stride r cap'
  | failed (hg : cap.hasGeometry width height stride = false) (hr : r.ok = false)
      (h : AllocStep width height stride r (cap.setPhase id .announced) false cap') :
      BufferStep cap id width height stride r (cap'.destroyFrame id)

theorem frameBuffer_step (cap : Capture) (id : Nat) (width height stride : UInt32)
    (r : ShmSetup) :
    BufferStep cap id width height stride r (frameBuffer cap id width height stride r) := by
  rw [frameBuffer]
  have hset : (cap.setPhase id .announced).hasGeometry width height stride =
      cap.hasGeometry width height stride := rfl
  dsimp only
  rw [hset]
  cases hg : cap.hasGeometry width height stride with
  | true => exact .reused hg
  | false =>
    rw [if_neg (by decide)]
    cases ha : allocBuffer (cap.setPhase id .announced) width height stride r with
    | mk ok cap' =>
      have hs := allocBuffer_step ha
      cases ok with
      | true => exact .mapped hg hs.result.symm hs
      | false => exact .failed hg hs.result.symm hs

/-! ### The mapping -/

variable {cap : Capture} {id : Nat}

/-- While there is a mapping it holds the announced picture; without one no frame is being
copied. -/
structure CaptureInv (cap : Capture) : Prop where
  mapped : ∀ n, cap.pixels = some n →
    n.toNat = cap.stride.toNat * cap.height.toNat ∧ 4 * cap.width.toNat ≤ cap.stride.toNat
  unmapped : cap.pixels = none → cap.buffer = none ∧ ∀ f ∈ cap.frames, f.copies = false

theorem CaptureInv.init : CaptureInv .init :=
  ⟨fun _ h => (by cases h), fun _ => ⟨rfl, fun _ hf => (by cases hf)⟩⟩

theorem CaptureInv.cleared : CaptureInv (captureDestroy cap) :=
  ⟨fun _ h => (by cases h), fun _ => ⟨rfl, fun _ hf => (by cases hf)⟩⟩

/-- The frames of a capture that copy nowhere new. -/
theorem CaptureInv.frames {fs : List Frame} (h : CaptureInv cap)
    (hf : ∀ f ∈ fs, f.copies = true → ∃ g ∈ cap.frames, g.copies = true) :
    CaptureInv { cap with frames := fs, nextFrame := n } := by
  refine ⟨h.mapped, fun hp => ⟨(h.unmapped hp).1, fun f hmem => ?_⟩⟩
  cases hc : f.copies with
  | false => rfl
  | true =>
    obtain ⟨g, hg, hgc⟩ := hf f hmem hc
    rw [(h.unmapped hp).2 g hg] at hgc
    cases hgc

theorem mem_of_mem_destroyFrame (h : f ∈ (cap.destroyFrame id).frames) :
    f ∈ cap.frames := List.mem_of_mem_eraseP h

theorem CaptureInv.destroyFrame (h : CaptureInv cap) (id : Nat) :
    CaptureInv (cap.destroyFrame id) :=
  h.frames fun f hf hc => ⟨f, mem_of_mem_destroyFrame hf, hc⟩

theorem CaptureInv.request (h : CaptureInv cap) (frame : Bool) :
    CaptureInv (captureRequestFrame cap frame).2 := by
  cases frame with
  | false => exact h
  | true =>
    apply h.frames
    intro f hf hc
    rcases List.mem_append.1 hf with hf | hf
    · exact ⟨f, hf, hc⟩
    · rw [List.mem_singleton.1 hf] at hc
      cases hc

theorem mem_setPhase_id (h : f ∈ (cap.setPhase id phase).frames) :
    f ∈ cap.frames ∧ f.id ≠ id ∨ f.id = id ∧ f.phase = phase := by
  obtain ⟨g, hg, rfl⟩ := List.mem_map.1 h
  split
  · next hid => exact .inr ⟨hid, rfl⟩
  · next hid => exact .inl ⟨hg, hid⟩

theorem mem_setPhase (h : f ∈ (cap.setPhase id phase).frames) :
    f ∈ cap.frames ∨ f.phase = phase := by
  rcases mem_setPhase_id h with ⟨hf, _⟩ | ⟨_, hp⟩
  · exact .inl hf
  · exact .inr hp

theorem CaptureInv.announce (h : CaptureInv cap) (id : Nat) :
    CaptureInv (cap.setPhase id .announced) := by
  apply h.frames
  intro f hf hc
  rcases mem_setPhase hf with hf | hp
  · exact ⟨f, hf, hc⟩
  · rw [Frame.copies, hp] at hc
    cases hc

theorem CaptureInv.bufferDone (h : CaptureInv cap) (id : Nat) :
    CaptureInv (frameBufferDone cap id) := by
  refine ⟨h.mapped, fun hp => ⟨(h.unmapped hp).1, fun f hf => ?_⟩⟩
  rcases mem_setPhase hf with hf | hf
  · exact (h.unmapped hp).2 f hf
  · rw [Frame.copies, hf, (h.unmapped hp).1]

/-- A buffer announcement that needs no new buffer, or gets one whose size fits 32 bits, or
fails to get one while no frame is being copied. -/
def Capture.bufferSafe (cap : Capture) (width height stride : UInt32) (r : ShmSetup) : Bool :=
  cap.hasGeometry width height stride ||
    if r.ok then decide (stride.toNat * height.toNat < UInt32.size) else cap.frames.all (!·.copies)

theorem CaptureInv.buffer (h : CaptureInv cap) (hs : cap.bufferSafe width height stride r = true)
    (hw : 4 * width.toNat ≤ stride.toNat) :
    CaptureInv (frameBuffer cap id width height stride r) := by
  have hstep := frameBuffer_step cap id width height stride r
  generalize frameBuffer cap id width height stride r = cap₁ at hstep
  simp only [Capture.bufferSafe] at hs
  cases hstep with
  | reused => exact h.announce id
  | mapped hg hr ha =>
    rw [hg, hr, Bool.false_or, if_pos rfl, decide_eq_true_eq] at hs
    constructor
    · intro n hn
      rw [ha.pixels] at hn
      cases hn
      rw [ha.stride, ha.height, ha.width, UInt32.toNat_mul, Nat.mod_eq_of_lt hs]
      exact ⟨rfl, hw⟩
    · intro hn
      rw [ha.pixels] at hn
      cases hn
  | failed hg hr ha =>
    rw [hg, hr, Bool.false_or, if_neg (by decide)] at hs
    refine CaptureInv.destroyFrame ⟨fun n hn => ?_, fun _ => ⟨ha.buffer, fun f hf => ?_⟩⟩ id
    · rw [ha.pixels] at hn
      cases hn
    · rw [ha.frames] at hf
      rcases mem_setPhase hf with hf | hp
      · simpa using List.all_eq_true.1 hs f hf
      · rw [Frame.copies, hp]

/-- A frame can only become ready while there is a mapping. -/
theorem CaptureInv.ready (h : CaptureInv cap) (hr : cap.mayBeReady id = true) :
    ∃ n, cap.pixels = some n := by
  cases hp : cap.pixels with
  | some n => exact ⟨n, rfl⟩
  | none =>
    obtain ⟨f, hf, hc⟩ := List.any_eq_true.1 hr
    have hcopies := (h.unmapped hp).2 f hf
    simp only [Frame.copies] at hcopies
    cases hphase : f.phase with
    | requested => rw [hphase] at hc; simp at hc
    | announced => rw [hphase] at hc; simp at hc
    | copying t =>
      cases t with
      | none => rw [hphase] at hc; simp at hc
      | some b => rw [hphase] at hcopies; cases hcopies

end Wlrdp
