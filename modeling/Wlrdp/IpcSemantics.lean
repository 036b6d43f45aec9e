import Wlrdp.DescriptorTables
import Wlrdp.TransitionSystems

namespace Wlrdp
set_option autoImplicit true

/-! ### Datagrams -/

/-- A datagram of a `SOCK_SEQPACKET` pair, with the open file that its control message refers
to. -/
structure Datagram (α : Type) where
  bytes : List UInt8
  file : Option α

/-- The four bytes of a word in memory. -/
def wordBytes (w : UInt32) : List UInt8 :=
  [UInt8.ofNat w.toNat, UInt8.ofNat (w.toNat / 256), UInt8.ofNat (w.toNat / 65536),
    UInt8.ofNat (w.toNat / 16777216)]

/-- The word in the first four bytes. -/
def bytesWord : List UInt8 → UInt32
  | a :: b :: c :: d :: _ =>
    UInt32.ofNat (a.toNat + 256 * b.toNat + 65536 * c.toNat + 16777216 * d.toNat)
  | _ => 0

/-- `sendmsg` with an optional `SCM_RIGHTS` descriptor: the number of bytes sent and the
datagram. A descriptor that is not open is an error, and `refused` stands for any other. -/
def sendmsg (files : DescriptorTable α) (bytes : List UInt8) (rights : Option Nat)
    (refused : Bool) : Option (Nat × Datagram α) :=
  if refused then none else
  match rights with
  | none => some (bytes.length, ⟨bytes, none⟩)
  | some fd =>
    match files fd with
    | none => none
    | some d => some (bytes.length, ⟨bytes, some d.object⟩)

/-- What `recvmsg` returns: the bytes that fit into the buffer, the descriptor in the control
message, and the table in which that descriptor is open. -/
def recvmsg (files : DescriptorTable α) (dgram : Datagram α) (iovLen fd : Nat) :
    List UInt8 × Option Nat × DescriptorTable α :=
  match dgram.file with
  | none => (dgram.bytes.take iovLen, none, files)
  | some a => (dgram.bytes.take iovLen, some fd, files.install fd a false)

/-! ### Messages -/

/-- `sizeof(msg->payload)`. -/
def payloadSize : Nat := 256

/-- The inline payload, an array of `payloadSize` bytes. -/
structure Payload where
  bytes : List UInt8
  full : bytes.length = payloadSize

/-- `memcpy` into the payload. -/
def Payload.memcpy (p : Payload) (src : List UInt8) (h : src.length ≤ payloadSize) : Payload where
  bytes := src ++ p.bytes.drop src.length
  full := by
    rw [List.length_append, List.length_drop, p.full]
    omega

/-- `struct wlrdp_ipc_msg`. -/
structure WlrdpIpcMsg where
  type : UInt32
  payloadLen : UInt32
  payload : Payload

/-- The part of the payload that `payload_len` covers. -/
def WlrdpIpcMsg.content (msg : WlrdpIpcMsg) : List UInt8 :=
  msg.payload.bytes.take msg.payloadLen.toNat

/-- `ipc_send_msg`, for a `payload_len` within the payload. -/
def ipcSendMsg (files : DescriptorTable α) (msg : WlrdpIpcMsg) (fd : Int) (refused : Bool) :
    Bool × Option (Datagram α) :=
  let buf := wordBytes msg.type ++ wordBytes msg.payloadLen ++
    if msg.payloadLen > 0 then msg.payload.bytes.take msg.payloadLen.toNat else []
  let total := 8 + msg.payloadLen
  let rights := if fd ≥ 0 then some fd.toNat else none
  match sendmsg files buf rights refused with
  | none => (false, none)
  | some (n, dgram) => (n == total.toNat, some dgram)

/-- What a call of `ipc_recv_msg` leaves: its result, `*msg`, `*out_fd` and the descriptor table
of the receiver. -/
structure Receipt (α : Type) where
  ok : Bool
  msg : WlrdpIpcMsg
  outFd : Int
  files : DescriptorTable α

/-- `ipc_recv_msg` on a socket whose next datagram is `dgram`; a descriptor in it is installed
as `fd`. -/
def ipcRecvMsg (files : DescriptorTable α) (dgram : Datagram α) (fd : Nat) (msg : WlrdpIpcMsg) :
    Receipt α :=
  let (buf, rights, files) := recvmsg files dgram (8 + payloadSize) fd
  let n := buf.length
  if n = 0 then ⟨false, msg, -1, files⟩ else
  if n < 8 then ⟨false, msg, -1, files⟩ else
  let msg := { msg with type := bytesWord buf, payloadLen := bytesWord (buf.drop 4) }
  if h : msg.payloadLen.toNat > payloadSize then ⟨false, msg, -1, files⟩ else
  let src := (buf.drop 8).take msg.payloadLen.toNat
  let msg :=
    if msg.payloadLen > 0 ∧ n ≥ (8 + msg.payloadLen).toNat then
      { msg with payload := msg.payload.memcpy src (by
          rw [List.length_take]
          omega) }
    else msg
  match rights with
  | none => ⟨true, msg, -1, files⟩
  | some fd => ⟨true, msg, fd, files⟩

/-! ### Conversations -/

/-- A message that was sent, with the open file attached to it. -/
structure Sent (α : Type) where
  msg : WlrdpIpcMsg
  file : Option α

/-- One direction of a socket pair between two processes, with what was sent and what the calls
of `ipc_recv_msg` have returned so far. -/
structure Conversation (α : Type) where
  sender : DescriptorTable α
  receiver : DescriptorTable α
  queue : List (Datagram α)
  sent : List (Sent α)
  received : List (Receipt α)

def Conversation.opened (sender receiver : DescriptorTable α) : Conversation α where
  sender := sender
  receiver := receiver
  queue := []
  sent := []
  received := []

/-- `send` and `recv` are calls of the two functions; `senderFiles` and `receiverFiles` stand for
whatever the processes do to their descriptors in between. -/
inductive IpcEvent (α : Type)
  | send (msg : WlrdpIpcMsg) (fd : Int) (refused : Bool)
  | recv (msg : WlrdpIpcMsg) (fd : Nat)
  | senderFiles (files : DescriptorTable α)
  | receiverFiles (files : DescriptorTable α)

/-- The open file that a sender attaches by passing `fd`. -/
def attachedFile (files : DescriptorTable α) (fd : Int) : Option α :=
  if fd < 0 then none else (files fd.toNat).map (·.object)

/-- A socket takes a message that it does not refuse and whose descriptor, if any, is open. -/
def takes (files : DescriptorTable α) (fd : Int) (refused : Bool) : Bool :=
  !refused && (fd < 0 || (files fd.toNat).isSome)

namespace Conversation

/-- The message that an event hands to a socket that takes it. -/
def posts (c : Conversation α) : IpcEvent α → List (Sent α)
  | .send msg fd refused =>
    if takes c.sender fd refused then [⟨msg, attachedFile c.sender fd⟩] else []
  | _ => []

def send (c : Conversation α) (msg : WlrdpIpcMsg) (fd : Int) (refused : Bool) : Conversation α :=
  let (ok, dgram) := ipcSendMsg c.sender msg fd refused
  { c with
    queue := c.queue ++ dgram.toList
    sent := if ok then c.sent ++ [⟨msg, attachedFile c.sender fd⟩] else c.sent }

def recv (c : Conversation α) (msg : WlrdpIpcMsg) (fd : Nat) : Conversation α :=
  match c.queue with
  | [] => c
  | dgram :: queue =>
    let r := ipcRecvMsg c.receiver dgram fd msg
    { c with queue := queue, receiver := r.files, received := c.received ++ [r] }

def step (c : Conversation α) : IpcEvent α → Conversation α
  | .send msg fd refused => c.send msg fd refused
  | .recv msg fd => c.recv msg fd
  | .senderFiles files => { c with sender := files }
  | .receiverFiles files => { c with receiver := files }

/-- A message's length stays within its payload, and a call of `ipc_recv_msg` blocks until a
datagram is there, whose descriptor gets an unused number. -/
def admits (c : Conversation α) : IpcEvent α → Bool
  | .send msg _ _ => msg.payloadLen.toNat ≤ payloadSize
  | .recv _ fd => !c.queue.isEmpty && (c.receiver fd).isNone
  | _ => true

end Conversation

def conversation (α : Type) : System (Conversation α) (IpcEvent α) :=
  ⟨fun c e => c.admits e = true, Conversation.step⟩

instance (c : Conversation α) (e : IpcEvent α) : Decidable ((conversation α).enabled c e) :=
  inferInstanceAs (Decidable (c.admits e = true))

end Wlrdp
