import Wlrdp.CaptureSoundness
import Wlrdp.TransitionSystems

namespace Wlrdp
set_option autoImplicit true

/-! ### The capture module on its own -/

/-- The geometry of a `buffer` event. -/
structure Announcement where
  width : UInt32
  height : UInt32
  stride : UInt32
deriving DecidableEq

/-- The bytes of a picture with that geometry. -/
def Announcement.size (a : Announcement) : Nat := a.stride.toNat * a.height.toNat

/-- A capture with what was announced to it since it was made, the last announcement first, and
the frames that the announcements were for. -/
structure Capturing where
  cap : Capture
  announced : List (Nat × Announcement)
deriving DecidableEq

def Capturing.start : Capturing := ⟨.init, []⟩

inductive CaptureEvent
  | requestFrame (frame : Bool)
  | buffer (id : Nat) (a : Announcement) (r : ShmSetup)
  | bufferDone (id : Nat)
  | ready (id : Nat)
  | failed (id : Nat)
  | destroy
deriving DecidableEq

def Capture.has (cap : Capture) (a : Announcement) : Bool :=
  cap.hasGeometry a.width a.height a.stride

namespace Capturing

/-- The geometry that the frame has to be copied in. -/
def announcedFor (s : Capturing) (id : Nat) : Option Announcement :=
  (s.announced.find? fun p => p.1 = id).map (·.2)

def step (s : Capturing) : CaptureEvent → Capturing
  | .requestFrame frame => { s with cap := (captureRequestFrame s.cap frame).2 }
  | .buffer id a r =>
    ⟨frameBuffer s.cap id a.width a.height a.stride r, (id, a) :: s.announced⟩
  | .bufferDone id => { s with cap := frameBufferDone s.cap id }
  | .ready id => { s with cap := s.cap.destroyFrame id }
  | .failed id => { s with cap := frameFailed s.cap id }
  | .destroy => ⟨captureDestroy s.cap, []⟩

def mayFinish (cap : Capture) (id : Nat) : Bool :=
  cap.inPhase id fun | .announced => true | _ => false

def admits (s : Capturing) : CaptureEvent → Bool
  | .buffer id _ _ => s.cap.mayAnnounce id
  | .bufferDone id => mayFinish s.cap id
  | .ready id => s.cap.mayBeReady id
  | .failed id => s.cap.mayFail id
  | .requestFrame _ | .destroy => true

end Capturing

def capturing : System Capturing CaptureEvent := ⟨fun s e => s.admits e = true, Capturing.step⟩

instance (s : Capturing) (e : CaptureEvent) : Decidable (capturing.enabled s e) :=
  inferInstanceAs (Decidable (s.admits e = true))

/-! ### Buffers -/

/-- The buffer has exactly the geometry, and a pool of its size. -/
structure Announcement.Fits (a : Announcement) (b : ShmBuffer) : Prop where
  width : b.width = a.width
  height : b.height = a.height
  stride : b.stride = a.stride
  pool : b.poolSize.toNat = a.size

/-- There is a buffer of the geometry, and a mapping of its size. -/
structure Capture.Backs (cap : Capture) (a : Announcement) : Prop where
  buffer : ∃ b, cap.buffer = some b ∧ a.Fits b
  mapping : ∃ n, cap.pixels = some n ∧ n.toNat = a.size

/-- The buffer invariant: an announced geometry that the capture has is backed, a frame is copied
into a buffer of the geometry that was announced for it, and `shm_fd` is the only open descriptor,
none having been closed twice. -/
structure BuffersSound (s : Capturing) : Prop where
  backed : ∀ p ∈ s.announced, s.cap.has p.2 = true → s.cap.Backs p.2
  copies : ∀ f ∈ s.cap.frames, ∀ target, f.phase = .copying target →
    ∃ b a, target = some b ∧ s.announcedFor f.id = some a ∧ a.Fits b
  owned : s.cap.fds.Owns s.cap.shmFd.toList

/-- An announcement that makes the capture allocate finds every call successful and a size below
2^32, and the first one is not that of an empty picture. When the announcements for a frame are
done, the last one of all has the geometry of its own. -/
def Capturing.keepsBuffers (s : Capturing) : CaptureEvent → Bool
  | .buffer _ a r =>
    if s.cap.has a then s.announced ≠ [] else r.ok && a.size < UInt32.size
  | .bufferDone id => s.announced.head?.any fun p => s.announcedFor id = some p.2
  | _ => true

/-- The capture has the geometry announced last, and no buffer without an announcement. -/
structure Capturing.Inv (s : Capturing) : Prop where
  last : ∀ p ps, s.announced = p :: ps → s.cap.has p.2 = true
  unannounced : s.announced = [] → s.cap.buffer = none

theorem Capturing.Inv.start : Capturing.start.Inv := ⟨nofun, fun _ => rfl⟩

theorem BuffersSound.start : BuffersSound .start := ⟨nofun, nofun, .empty⟩

/-! ### What one event preserves -/

variable {s : Capturing} {cap cap' : Capture} {a : Announcement}

theorem has_iff : cap.has a = true ↔
    cap.width = a.width ∧ cap.height = a.height ∧ cap.stride = a.stride := by
  rw [Capture.has, Capture.hasGeometry, Bool.and_eq_true, Bool.and_eq_true, decide_eq_true_eq,
    decide_eq_true_eq, decide_eq_true_eq, and_assoc]

theorem eq_of_has (h : cap.has a = true) (h' : cap.has b = true) : a = b := by
  obtain ⟨hw, hh, hs⟩ := has_iff.1 h
  obtain ⟨hw', hh', hs'⟩ := has_iff.1 h'
  obtain ⟨_, _, _⟩ := a
  obtain ⟨_, _, _⟩ := b
  cases hw.symm.trans hw'
  cases hh.symm.trans hh'
  cases hs.symm.trans hs'
  rfl

theorem BuffersSound.frames (h : BuffersSound s)
    (hf : ∀ f ∈ fs, ∀ target, f.phase = .copying target → f ∈ s.cap.frames) :
    BuffersSound ⟨{ s.cap with frames := fs, nextFrame := n }, s.announced⟩ :=
  ⟨fun p hp hg => ⟨(h.backed p hp hg).buffer, (h.backed p hp hg).mapping⟩,
    fun f hmem target hp => h.copies f (hf f hmem target hp) target hp, h.owned⟩

theorem Capturing.Inv.frames (h : s.Inv) :
    Capturing.Inv ⟨{ s.cap with frames := fs, nextFrame := n }, s.announced⟩ :=
  ⟨h.last, h.unannounced⟩

theorem mem_request (h : f ∈ (captureRequestFrame cap frame).2.frames) :
    f ∈ cap.frames ∨ f.phase = .requested := by
  cases frame with
  | false => exact .inl h
  | true =>
    rcases List.mem_append.1 h with h | h
    · exact .inl h
    · rw [List.mem_singleton.1 h]
      exact .inr rfl

theorem captureRequestFrame_eq (cap : Capture) (frame : Bool) :
    (captureRequestFrame cap frame).2 = { cap with
      frames := (captureRequestFrame cap frame).2.frames
      nextFrame := (captureRequestFrame cap frame).2.nextFrame } := by
  cases frame <;> rfl

theorem exists_of_mayFinish {id : Nat} (h : Capturing.mayFinish cap id = true) :
    ∃ f ∈ cap.frames, f.id = id := by
  obtain ⟨f, hf, hp⟩ := List.any_eq_true.1 h
  exact ⟨f, hf, of_decide_eq_true (Bool.and_eq_true_iff.1 hp).1⟩

theorem closeFd_owns (h : cap.fds.Owns cap.shmFd.toList) :
    (closeFd cap.fds cap.shmFd).Owns [] := by
  cases hfd : cap.shmFd with
  | none =>
    rw [hfd] at h
    exact h
  | some fd =>
    rw [hfd] at h
    have howns : cap.fds.Owns ([] ++ fd :: []) := h
    exact howns.release

/-- A successful allocation leaves the capture with one open descriptor, that of its buffer. -/
theorem allocBuffer_owns (h : cap.fds.Owns cap.shmFd.toList)
    (ha : allocBuffer cap width height stride r = (true, cap')) :
    cap'.fds.Owns cap'.shmFd.toList := by
  have hclosed := closeFd_owns h
  rw [allocBuffer, createShmFile] at ha
  cases hs : r.shmOpen with
  | none =>
    rw [hs] at ha
    cases ha
  | some fd =>
  rw [hs] at ha
  cases ht : r.ftruncate with
  | false =>
    rw [ht] at ha
    cases ha
  | true =>
  rw [ht] at ha
  cases hm : r.mmap with
  | false =>
    rw [hm] at ha
    cases ha
  | true =>
    rw [hm] at ha
    cases ha
    have howns : (closeFd cap.fds cap.shmFd).Owns ([] ++ []) := hclosed
    exact howns.acquire

theorem mem_of_announcedFor {id : Nat} (h : s.announcedFor id = some a) :
    (id, a) ∈ s.announced := by
  obtain ⟨p, hp, rfl⟩ := Option.map_eq_some_iff.1 h
  have hid := List.find?_some hp
  rw [← of_decide_eq_true hid]
  exact List.mem_of_find?_eq_some hp

theorem has_of_fits (h : BuffersSound s) (hi : s.Inv) (hb : s.cap.buffer = some b)
    (hfits : a.Fits b) : s.cap.has a = true := by
  cases has : s.announced with
  | nil => cases (hi.unannounced has).symm.trans hb
  | cons p ps =>
    have hmem : p ∈ s.announced := by
      rw [has]
      exact List.mem_cons_self
    have hlast := hi.last p ps has
    obtain ⟨b', hb', hfits'⟩ := (h.backed p hmem hlast).buffer
    cases hb.symm.trans hb'
    obtain ⟨hw, hh, hs⟩ := has_iff.1 hlast
    apply has_iff.2
    refine ⟨?_, ?_, ?_⟩
    · exact hw.trans (hfits'.width.symm.trans hfits.width)
    · exact hh.trans (hfits'.height.symm.trans hfits.height)
    · exact hs.trans (hfits'.stride.symm.trans hfits.stride)

/-- The capture has the geometry of a frame exactly if it was announced last. -/
theorem has_iff_last {id : Nat} (hi : s.Inv) (h : s.announcedFor id = some a) :
    s.cap.has a = true ↔ s.keepsBuffers (.bufferDone id) = true := by
  rw [Capturing.keepsBuffers, h]
  cases hs : s.announced with
  | nil =>
    rw [Capturing.announcedFor, hs] at h
    cases h
  | cons p ps =>
    have hlast := hi.last p ps hs
    rw [List.head?_cons, Option.any_some, decide_eq_true_eq, Option.some.injEq]
    constructor
    · intro ha
      exact eq_of_has ha hlast
    · rintro rfl
      exact hlast

/-- The copy of a frame goes into a buffer of its own geometry exactly if that was announced
last. -/
theorem bufferDone_sound_iff {id : Nat} (h : BuffersSound s) (hi : s.Inv)
    (hid : Capturing.mayFinish s.cap id = true) :
    BuffersSound (s.step (.bufferDone id)) ↔ s.keepsBuffers (.bufferDone id) = true := by
  change BuffersSound ⟨frameBufferDone s.cap id, s.announced⟩ ↔ _
  constructor
  · intro hs
    obtain ⟨f, hf, rfl⟩ := exists_of_mayFinish hid
    have hmem : { f with phase := .copying s.cap.buffer } ∈ (frameBufferDone s.cap f.id).frames :=
      List.mem_map.2 ⟨f, hf, if_pos rfl⟩
    obtain ⟨b, a, hb, ha, hfits⟩ := hs.copies _ hmem _ rfl
    exact (has_iff_last hi ha).1 (has_of_fits h hi hb hfits)
  · intro hlast
    obtain ⟨p, _, hp⟩ := (Option.any_eq_true _ _).1 hlast
    have ha : s.announcedFor id = some p.2 := of_decide_eq_true hp
    have hg := (has_iff_last hi ha).2 hlast
    obtain ⟨b, hb, hfits⟩ := (h.backed (id, p.2) (mem_of_announcedFor ha) hg).buffer
    refine ⟨fun p hp hg => ⟨(h.backed p hp hg).buffer, (h.backed p hp hg).mapping⟩, ?_, h.owned⟩
    intro f hf target hp
    rcases mem_setPhase_id hf with ⟨hf, _⟩ | ⟨hfid, hphase⟩
    · exact h.copies f hf target hp
    · cases hphase.symm.trans hp
      rw [hfid]
      exact ⟨b, p.2, hb, ha, hfits⟩

/-- The copies that go on while a geometry is announced for another frame. -/
theorem copies_announce {id : Nat} (h : BuffersSound s) (a : Announcement) (cap : Capture) :
    ∀ f ∈ (s.cap.setPhase id .announced).frames, ∀ target, f.phase = .copying target →
      ∃ b a', target = some b ∧
        Capturing.announcedFor ⟨cap, (id, a) :: s.announced⟩ f.id = some a' ∧ a'.Fits b := by
  intro f hf target hp
  rcases mem_setPhase_id hf with ⟨hf, hne⟩ | ⟨_, hphase⟩
  · obtain ⟨b, a', hb, ha', hfits⟩ := h.copies f hf target hp
    refine ⟨b, a', hb, ?_, hfits⟩
    rw [Capturing.announcedFor, List.find?_cons_of_neg (by simpa using Ne.symm hne)]
    exact ha'
  · cases hphase.symm.trans hp

/-- After an announcement the capture has its geometry, whatever the allocation returned. -/
theorem frameBuffer_has (cap : Capture) (id : Nat) (a : Announcement) (r : ShmSetup) :
    (frameBuffer cap id a.width a.height a.stride r).has a = true := by
  have hstep := frameBuffer_step cap id a.width a.height a.stride r
  generalize frameBuffer cap id a.width a.height a.stride r = cap' at hstep ⊢
  cases hstep with
  | reused hg => exact hg
  | mapped _ _ h => exact has_iff.2 ⟨h.width, h.height, h.stride⟩
  | failed _ _ h => exact has_iff.2 ⟨h.width, h.height, h.stride⟩

theorem frameBuffer_owns {id : Nat} (h : cap.fds.Owns cap.shmFd.toList) (hg : cap.has a = false)
    (hr : r.ok = true) :
    (frameBuffer cap id a.width a.height a.stride r).fds.Owns
      (frameBuffer cap id a.width a.height a.stride r).shmFd.toList := by
  have hset : (cap.setPhase id .announced).hasGeometry a.width a.height a.stride = false := hg
  have hopen : (cap.setPhase id .announced).fds.Owns (cap.setPhase id .announced).shmFd.toList := h
  rw [frameBuffer]
  dsimp only
  rw [hset, if_neg (by decide)]
  cases ha : allocBuffer (cap.setPhase id .announced) a.width a.height a.stride r with
  | mk ok cap' =>
    have hok := (allocBuffer_step ha).result.trans hr
    cases hok
    exact allocBuffer_owns hopen ha

/-- An announcement keeps the buffers sound exactly if it allocates when it has to. -/
theorem buffer_sound_iff {id : Nat} (h : BuffersSound s) (hi : s.Inv) :
    BuffersSound (s.step (.buffer id a r)) ↔ s.keepsBuffers (.buffer id a r) = true := by
  have hhas := frameBuffer_has s.cap id a r
  have hstep := frameBuffer_step s.cap id a.width a.height a.stride r
  change BuffersSound ⟨frameBuffer s.cap id a.width a.height a.stride r, (id, a) :: s.announced⟩ ↔ _
  have hunbacked {cap : Capture} (hc : cap.has a = true) (hb : cap.buffer = none) :
      ¬ BuffersSound ⟨cap, (id, a) :: s.announced⟩ := by
    intro hs
    obtain ⟨b, hsome, _⟩ := (hs.backed (id, a) List.mem_cons_self hc).buffer
    cases hb.symm.trans hsome
  generalize hcap' : frameBuffer s.cap id a.width a.height a.stride r = cap' at hstep hhas ⊢
  cases hstep with
  | reused hg =>
    have hg' : s.cap.has a = true := hg
    rw [Capturing.keepsBuffers, if_pos hg', decide_eq_true_eq]
    cases has : s.announced with
    | nil =>
      apply iff_of_false
      · rw [← has]
        exact hunbacked hg (hi.unannounced has)
      · exact fun hn => hn rfl
    | cons p₀ ps =>
      apply iff_of_true
      · have hlast : s.cap.has p₀.2 = true := hi.last p₀ ps has
        have hmem : p₀ ∈ s.announced := by
          rw [has]
          exact List.mem_cons_self
        obtain ⟨hbuffer, hmapping⟩ := h.backed p₀ hmem hlast
        refine ⟨fun a' _ hg'' => ?_, ?_, h.owned⟩
        · rw [eq_of_has hg'' hlast]
          exact ⟨hbuffer, hmapping⟩
        · rw [← has]
          exact copies_announce h a _
      · exact List.cons_ne_nil p₀ ps
  | mapped hg hr ha =>
    have hg' : s.cap.has a = false := hg
    rw [Capturing.keepsBuffers, hg', if_neg (by decide), hr, Bool.true_and, decide_eq_true_eq]
    have hmul : (a.stride * a.height).toNat = a.size % UInt32.size := UInt32.toNat_mul ..
    constructor
    · intro hs
      obtain ⟨n, hn, hsize⟩ := (hs.backed (id, a) List.mem_cons_self hhas).mapping
      rw [ha.pixels, if_pos rfl] at hn
      cases hn
      rw [← hsize, hmul]
      exact Nat.mod_lt _ (by decide)
    · intro hsize
      rw [Nat.mod_eq_of_lt hsize] at hmul
      refine ⟨fun a' _ hg'' => ?_, ?_, ?_⟩
      · rw [eq_of_has hg'' hhas]
        exact ⟨⟨_, ha.buffer, rfl, rfl, rfl, hmul⟩, _, ha.pixels, hmul⟩
      · change ∀ f ∈ cap'.frames, _
        rw [ha.frames]
        exact copies_announce h a _
      · rw [← hcap']
        exact frameBuffer_owns h.owned hg' hr
  | failed hg hr ha =>
    have hg' : s.cap.has a = false := hg
    rw [Capturing.keepsBuffers, hg', if_neg (by decide), hr, Bool.false_and]
    exact iff_of_false (hunbacked hhas ha.buffer) (by decide)

theorem inv_step (hi : s.Inv) : (s.step e).Inv := by
  cases e with
  | requestFrame frame =>
    change Capturing.Inv ⟨(captureRequestFrame s.cap frame).2, s.announced⟩
    rw [captureRequestFrame_eq]
    exact hi.frames
  | buffer id a r =>
    refine ⟨fun p ps hp => ?_, nofun⟩
    cases hp
    exact frameBuffer_has s.cap id a r
  | bufferDone id => exact hi.frames (n := s.cap.nextFrame)
  | ready id => exact hi.frames (n := s.cap.nextFrame)
  | failed id => exact hi.frames (n := s.cap.nextFrame)
  | destroy => exact ⟨nofun, fun _ => rfl⟩

theorem buffersSound_step_iff (h : BuffersSound s) (hi : s.Inv) (he : s.admits e = true) :
    BuffersSound (s.step e) ↔ s.keepsBuffers e = true := by
  cases e with
  | requestFrame frame =>
    refine iff_of_true ?_ rfl
    change BuffersSound ⟨(captureRequestFrame s.cap frame).2, s.announced⟩
    rw [captureRequestFrame_eq]
    apply h.frames
    intro f hf target hp
    rcases mem_request hf with hf | hr
    · exact hf
    · cases hr.symm.trans hp
  | buffer id a r => exact buffer_sound_iff h hi
  | bufferDone id => exact bufferDone_sound_iff h hi he
  | ready id => exact iff_of_true (h.frames fun f hf _ _ => mem_of_mem_destroyFrame hf) rfl
  | failed id => exact iff_of_true (h.frames fun f hf _ _ => mem_of_mem_destroyFrame hf) rfl
  | destroy => exact iff_of_true ⟨nofun, nofun, closeFd_owns h.owned⟩ rfl

/-- In every sequence of announcements the buffer invariant holds throughout, exactly if every
announcement that has to allocate does, and no other geometry is announced before a frame's
announcements are done. -/
theorem capture_buffers_sound_iff (hl : capturing.Legal .start es) :
    capturing.Always BuffersSound .start es ↔
      capturing.Along (fun s e => s.keepsBuffers e = true) .start es :=
  System.always_iff_along (fun _ _ hi _ => inv_step hi)
    (fun _ _ hi h he => buffersSound_step_iff h hi he) .start .start hl

/-- A frame is requested, announced and copied. -/
def captureFrame (id : Nat) (a : Announcement) (r : ShmSetup) : List CaptureEvent :=
  [.requestFrame true, .buffer id a r, .bufferDone id]

/-- The compositor changes its mode, and the capture is destroyed. -/
theorem capture_buffers_sound_iff_resized : capturing.Always BuffersSound .start
    (captureFrame 0 ⟨800, 600, 3200⟩ ⟨some 5, true, true⟩ ++ [.ready 0] ++
      captureFrame 1 ⟨1280, 720, 5120⟩ ⟨some 5, true, true⟩ ++ [.ready 1, .destroy]) :=
  (capture_buffers_sound_iff (by decide)).2 (by decide)

/-- Two frames are outstanding: the geometry announced for the second one is that of the buffer into
which the first one is copied. -/
example : let es := [.requestFrame true, .requestFrame true,
      .buffer 0 ⟨800, 600, 3200⟩ ⟨some 5, true, true⟩,
      .buffer 1 ⟨1280, 720, 5120⟩ ⟨some 5, true, true⟩,
      .bufferDone 0]
    capturing.Legal .start es ∧ (capturing.run .start es).cap.frames =
      [⟨0, .copying (some ⟨1280, 720, 5120, 3686400⟩)⟩, ⟨1, .announced⟩] := by decide

/-- `mmap` fails for the first frame. The same geometry is announced again, the copy goes into no
buffer, and `capture_destroy` closes the descriptor a second time. -/
theorem geometry_without_buffer :
    let es := [.requestFrame true, .buffer 0 ⟨800, 600, 3200⟩ ⟨some 5, true, false⟩] ++
      captureFrame 1 ⟨800, 600, 3200⟩ ⟨some 6, true, true⟩ ++ [.destroy]
    capturing.Legal .start es ∧ ¬ capturing.Always BuffersSound .start es ∧
      (capturing.run .start es.dropLast).cap.frames = [⟨1, .copying none⟩] ∧
      (capturing.run .start es).cap.fds.faults = [5] := by
  refine ⟨by decide, fun h => ?_, by decide, by decide⟩
  have hfaults := h.last.owned.faults
  revert hfaults
  decide

end Wlrdp
