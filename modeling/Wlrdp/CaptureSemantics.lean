import Wlrdp.Ledgers

namespace Wlrdp
set_option autoImplicit true

/-- A `wl_buffer`: its geometry and the size of the pool behind it. -/
structure ShmBuffer where
  width : UInt32
  height : UInt32
  stride : UInt32
  poolSize : UInt32
deriving DecidableEq

/-- Where a `zwlr_screencopy_frame_v1` stands: requested, announced with `buffer`, or copying
into the buffer that `copy` named (`none` for a null one). -/
inductive FramePhase
  | requested
  | announced
  | copying (target : Option ShmBuffer)
deriving DecidableEq

structure Frame where
  id : Nat
  phase : FramePhase
deriving DecidableEq

/-- `struct wlrdp_capture`, with the frame objects that exist on its display connection and
the descriptors its shm files have taken. `pixels` is the length of the mapping. -/
structure Capture where
  pool : Option UInt32
  buffer : Option ShmBuffer
  pixels : Option UInt32
  shmFd : Option Nat
  bufSize : UInt32
  width : UInt32
  height : UInt32
  stride : UInt32
  frames : List Frame
  nextFrame : Nat
  fds : Ledger Nat
deriving DecidableEq

/-- The capture after a successful `capture_init`. -/
def Capture.init : Capture where
  pool := none
  buffer := none
  pixels := none
  shmFd := none
  bufSize := 0
  width := 0
  height := 0
  stride := 0
  frames := []
  nextFrame := 0
  fds := .empty

/-- Results of the system calls of one buffer allocation. -/
structure ShmSetup where
  shmOpen : Option Nat
  ftruncate : Bool
  mmap : Bool
deriving DecidableEq

def ShmSetup.ok (r : ShmSetup) : Bool := r.shmOpen.isSome && r.ftruncate && r.mmap

/-- `create_shm_file`, on the descriptors of the capture. -/
def createShmFile (fds : Ledger Nat) (r : ShmSetup) : Option Nat × Ledger Nat :=
  match r.shmOpen with
  | none => (none, fds)
  | some fd =>
    if !r.ftruncate then (none, (fds.acquire fd).release fd) else (some fd, fds.acquire fd)

def closeFd (fds : Ledger Nat) : Option Nat → Ledger Nat
  | none => fds
  | some fd => fds.release fd

def allocBuffer (cap : Capture) (width height stride : UInt32) (r : ShmSetup) :
    Bool × Capture :=
  let (fd, fds) := createShmFile (closeFd cap.fds cap.shmFd) r
  let cap := { cap with
    buffer := none, pool := none, pixels := none
    width := width, height := height, stride := stride, bufSize := stride * height
    shmFd := fd, fds := fds }
  if fd = none then (false, cap)
  -- the failure exit closes the descriptor but leaves its number in `shm_fd`
  else if !r.mmap then (false, { cap with fds := closeFd fds fd })
  else
    (true, { cap with
      pixels := some cap.bufSize
      pool := some cap.bufSize
      buffer := some ⟨width, height, stride, cap.bufSize⟩ })

def Capture.destroyFrame (cap : Capture) (id : Nat) : Capture :=
  { cap with frames := cap.frames.eraseP (·.id = id) }

def Capture.setPhase (cap : Capture) (id : Nat) (phase : FramePhase) : Capture :=
  { cap with frames := cap.frames.map fun f => if f.id = id then { f with phase := phase } else f }

/-- `cap` already has the announced geometry, so that `frame_buffer` allocates nothing. -/
def Capture.hasGeometry (cap : Capture) (width height stride : UInt32) : Bool :=
  cap.width = width && cap.height = height && cap.stride = stride

def frameBuffer (cap : Capture) (id : Nat) (width height stride : UInt32) (r : ShmSetup) :
    Capture :=
  let cap := cap.setPhase id .announced
  if cap.hasGeometry width height stride then cap else
  let (ok, cap) := allocBuffer cap width height stride r
  if !ok then cap.destroyFrame id else cap

def frameBufferDone (cap : Capture) (id : Nat) : Capture :=
  cap.setPhase id (.copying cap.buffer)

def frameFailed (cap : Capture) (id : Nat) : Capture := cap.destroyFrame id

/-- `capture_request_frame`: `frame` says whether `capture_output` made a frame object. -/
def captureRequestFrame (cap : Capture) (frame : Bool) : Bool × Capture :=
  if !frame then (false, cap) else
  (true, { cap with
    frames := cap.frames ++ [⟨cap.nextFrame, .requested⟩], nextFrame := cap.nextFrame + 1 })

def captureDestroy (cap : Capture) : Capture :=
  { Capture.init with fds := closeFd cap.fds cap.shmFd, nextFrame := cap.nextFrame }

/-! What the compositor may send about a frame, by the screencopy protocol. -/

def Capture.inPhase (cap : Capture) (id : Nat) (p : FramePhase → Bool) : Bool :=
  cap.frames.any fun f => f.id = id && p f.phase

def Capture.mayAnnounce (cap : Capture) (id : Nat) : Bool :=
  cap.inPhase id fun | .requested => true | _ => false

def Capture.mayFinishAnnouncing (cap : Capture) (id : Nat) : Bool :=
  cap.inPhase id fun | .copying _ => false | _ => true

/-- `ready` is only sent for a frame that is being copied into a real buffer. -/
def Capture.mayBeReady (cap : Capture) (id : Nat) : Bool :=
  cap.inPhase id fun | .copying (some _) => true | _ => false

def Capture.mayFail (cap : Capture) (id : Nat) : Bool := cap.inPhase id fun _ => true

end Wlrdp
