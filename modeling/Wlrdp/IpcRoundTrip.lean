import Mathlib.Data.List.Forall2
import Wlrdp.IpcSemantics

namespace Wlrdp
set_option autoImplicit true

variable {α : Type} {msg : WlrdpIpcMsg} {m : Sent α} {dgram : Datagram α}

/-! ### One message -/

/-- The datagram carries the message and the file. -/
structure Encodes (m : Sent α) (dgram : Datagram α) : Prop where
  bytes : dgram.bytes = wordBytes m.msg.type ++ wordBytes m.msg.payloadLen ++ m.msg.content
  file : dgram.file = m.file
  fits : m.msg.payloadLen.toNat ≤ payloadSize

/-- The descriptor that `*out_fd` names refers to the attached file, and is `-1` without one. -/
def Receipt.Yields (r : Receipt α) : Option α → Prop
  | none => r.outFd = -1
  | some a => r.outFd ≥ 0 ∧ ∃ d, r.files r.outFd.toNat = some d ∧ d.object = a

/-- The call of `ipc_recv_msg` returned the message, and the descriptor exactly if there is
one. -/
structure Delivers (m : Sent α) (r : Receipt α) : Prop where
  ok : r.ok = true
  type : r.msg.type = m.msg.type
  payloadLen : r.msg.payloadLen = m.msg.payloadLen
  content : r.msg.content = m.msg.content
  file : r.Yields m.file

@[simp] theorem length_wordBytes (w : UInt32) : (wordBytes w).length = 4 := rfl

theorem bytesWord_wordBytes (w : UInt32) (bytes : List UInt8) :
    bytesWord (wordBytes w ++ bytes) = w := by
  apply UInt32.toNat_inj.1
  have hw := w.toNat_lt
  simp only [wordBytes, List.cons_append, List.nil_append, bytesWord, UInt8.toNat_ofNat',
    UInt32.toNat_ofNat']
  omega

theorem length_content (h : msg.payloadLen.toNat ≤ payloadSize) :
    msg.content.length = msg.payloadLen.toNat := by
  rw [WlrdpIpcMsg.content, List.length_take, msg.payload.full]
  omega

theorem payloadLen_zero (h : ¬ msg.payloadLen > 0) : msg.payloadLen.toNat = 0 := by
  rw [gt_iff_lt, UInt32.lt_iff_toNat_lt] at h
  exact Nat.eq_zero_of_not_pos h

theorem sent_content (msg : WlrdpIpcMsg) :
    (if msg.payloadLen > 0 then msg.payload.bytes.take msg.payloadLen.toNat else []) =
      msg.content := by
  split
  · rfl
  · rename_i h
    rw [WlrdpIpcMsg.content, payloadLen_zero h, List.take_zero]

theorem total_eq (h : msg.payloadLen.toNat ≤ payloadSize) :
    (8 + msg.payloadLen).toNat = 8 + msg.payloadLen.toNat := by
  simp only [payloadSize] at h
  rw [UInt32.toNat_add]
  change (8 + msg.payloadLen.toNat) % 2 ^ 32 = _
  omega

/-- What a call of `ipc_send_msg` does on a socket that takes the message, or does not. -/
inductive SendStep (m : Sent α) : Bool → Bool × Option (Datagram α) → Prop
  | failed : SendStep m false (false, none)
  | sent {dgram : Datagram α} (h : Encodes m dgram) : SendStep m true (true, some dgram)

theorem attachedFile_none (h : ¬ fd ≥ 0) : attachedFile files fd = none := if_pos (by omega)

theorem attachedFile_some (h : fd ≥ 0) (hfd : files fd.toNat = some d) :
    attachedFile files fd = some d.object := by
  rw [attachedFile, if_neg (by omega), hfd]
  rfl

theorem takes_unattached (h : ¬ fd ≥ 0) : takes files fd false = true := by
  have hneg : fd < 0 := by omega
  rw [takes, decide_eq_true hneg]
  rfl

theorem takes_attached (h : fd ≥ 0) : takes files fd false = (files fd.toNat).isSome := by
  have hneg : ¬ fd < 0 := by omega
  rw [takes, decide_eq_false hneg]
  rfl

theorem ipcSendMsg_step (files : DescriptorTable α) (fd : Int) (refused : Bool)
    (h : msg.payloadLen.toNat ≤ payloadSize) :
    SendStep ⟨msg, attachedFile files fd⟩ (takes files fd refused)
      (ipcSendMsg files msg fd refused) := by
  have htotal : (wordBytes msg.type ++ wordBytes msg.payloadLen ++ msg.content).length =
      (8 + msg.payloadLen).toNat := by
    rw [total_eq h, List.length_append, length_content h]
    rfl
  simp only [ipcSendMsg, sendmsg, sent_content]
  cases refused with
  | true => exact .failed
  | false =>
    rw [if_neg Bool.false_ne_true]
    by_cases hfd : fd ≥ 0
    · rw [takes_attached hfd]
      cases hopen : files fd.toNat with
      | none =>
        simp only [hfd, hopen, if_true]
        exact .failed
      | some d =>
        simp only [hfd, hopen, if_true, htotal, beq_self_eq_true]
        exact .sent ⟨rfl, (attachedFile_some hfd hopen).symm, h⟩
    · rw [takes_unattached hfd]
      simp only [hfd, if_false, htotal, beq_self_eq_true]
      exact .sent ⟨rfl, (attachedFile_none hfd).symm, h⟩

/-- What `ipc_recv_msg` reads back from the buffer. -/
theorem buffer_fields (h : Encodes m dgram) :
    bytesWord dgram.bytes = m.msg.type ∧ bytesWord (dgram.bytes.drop 4) = m.msg.payloadLen ∧
      dgram.bytes.drop 8 = m.msg.content ∧
      dgram.bytes.length = (8 + m.msg.payloadLen).toNat := by
  rw [h.bytes, List.append_assoc]
  refine ⟨bytesWord_wordBytes _ _, bytesWord_wordBytes _ _, rfl, ?_⟩
  rw [total_eq h.fits, List.length_append, List.length_append, length_content h.fits]
  simp only [length_wordBytes]
  omega

theorem datagram_fits (h : Encodes m dgram) :
    dgram.bytes.take (8 + payloadSize) = dgram.bytes := by
  have hlen := (buffer_fields h).2.2.2
  have hfits := h.fits
  rw [total_eq hfits] at hlen
  apply List.take_of_length_le
  omega

theorem recvmsg_none (h : Encodes m dgram) (hfile : m.file = none) :
    recvmsg files dgram (8 + payloadSize) fd = (dgram.bytes, none, files) := by
  simp only [recvmsg, h.file, hfile, datagram_fits h]

theorem recvmsg_some (h : Encodes m dgram) (hfile : m.file = some a) :
    recvmsg files dgram (8 + payloadSize) fd =
      (dgram.bytes, some fd, files.install fd a false) := by
  simp only [recvmsg, h.file, hfile, datagram_fits h]

theorem receipt_elim (msg : WlrdpIpcMsg) (rights : Option Nat) (files : DescriptorTable α) :
    (match rights with
      | none => ⟨true, msg, -1, files⟩
      | some fd => ⟨true, msg, fd, files⟩ : Receipt α) =
      ⟨true, msg, rights.elim (-1) fun fd => fd, files⟩ := by
  cases rights <;> rfl

/-- Whatever `*msg` held before, the call returns the message that the datagram encodes. -/
theorem ipcRecvMsg_eq (h : Encodes m dgram)
    (hr : recvmsg files dgram (8 + payloadSize) fd = (dgram.bytes, rights, files'))
    (prior : WlrdpIpcMsg) :
    ∃ msg, (msg.type = m.msg.type ∧ msg.payloadLen = m.msg.payloadLen ∧
        msg.content = m.msg.content) ∧
      ipcRecvMsg files dgram fd prior = ⟨true, msg, rights.elim (-1) fun fd => fd, files'⟩ := by
  obtain ⟨htype, hpayloadLen, hcontent, hlen⟩ := buffer_fields h
  have hfits := h.fits
  have htotal := total_eq hfits
  have hsrc : (dgram.bytes.drop 8).take m.msg.payloadLen.toNat = m.msg.content := by
    rw [hcontent, List.take_of_length_le (Nat.le_of_eq (length_content hfits))]
  simp only [ipcRecvMsg, hr]
  rw [if_neg (by omega), if_neg (by omega), dif_neg (by rw [hpayloadLen]; omega)]
  by_cases hpos : m.msg.payloadLen > 0
  · rw [if_pos (by rw [hpayloadLen]; exact ⟨hpos, Nat.le_of_eq hlen.symm⟩)]
    refine ⟨_, ?_, receipt_elim _ rights files'⟩
    refine ⟨htype, hpayloadLen, ?_⟩
    change (List.take _ (dgram.bytes.drop 8) ++ List.drop _ _).take
      (bytesWord (dgram.bytes.drop 4)).toNat = _
    simp only [hpayloadLen, hsrc]
    exact List.take_left' (length_content hfits)
  · rw [if_neg (by rw [hpayloadLen]; exact fun h => hpos h.1)]
    refine ⟨_, ?_, receipt_elim _ rights files'⟩
    refine ⟨htype, hpayloadLen, ?_⟩
    rw [WlrdpIpcMsg.content, WlrdpIpcMsg.content, hpayloadLen, payloadLen_zero hpos]
    rfl

theorem ipcRecvMsg_delivers (h : Encodes m dgram) (files : DescriptorTable α) (fd : Nat)
    (prior : WlrdpIpcMsg) : Delivers m (ipcRecvMsg files dgram fd prior) := by
  cases hfile : m.file with
  | none =>
    obtain ⟨msg, ⟨htype, hlen, hcontent⟩, heq⟩ := ipcRecvMsg_eq h (recvmsg_none h hfile) prior
    rw [heq]
    refine ⟨rfl, htype, hlen, hcontent, ?_⟩
    rw [hfile]
    rfl
  | some a =>
    obtain ⟨msg, ⟨htype, hlen, hcontent⟩, heq⟩ := ipcRecvMsg_eq h (recvmsg_some h hfile) prior
    rw [heq]
    refine ⟨rfl, htype, hlen, hcontent, ?_⟩
    rw [hfile]
    exact ⟨Int.natCast_nonneg fd, _, DescriptorTable.install_self .., rfl⟩

/-! ### Whole conversations -/

variable {c : Conversation α}

/-- What has been posted so far was sent, and is what the receiver has got followed by what is
queued. -/
structure ConversationInv (c : Conversation α) (past pending : List (Sent α)) : Prop where
  sent : c.sent = past ++ pending
  queue : List.Forall₂ Encodes pending c.queue
  received : List.Forall₂ Delivers past c.received

theorem ConversationInv.send (h : ConversationInv c past pending) (fd : Int) (refused : Bool)
    (hfits : msg.payloadLen.toNat ≤ payloadSize) :
    ConversationInv (c.send msg fd refused) past (pending ++ c.posts (.send msg fd refused)) := by
  have hstep := ipcSendMsg_step c.sender fd refused hfits
  simp only [Conversation.send, Conversation.posts]
  generalize ipcSendMsg c.sender msg fd refused = res at hstep
  generalize takes c.sender fd refused = taken at hstep
  cases hstep with
  | failed =>
    simp only [Bool.false_eq_true, if_false, List.append_nil]
    exact ⟨h.sent, (List.append_nil c.queue).symm ▸ h.queue, h.received⟩
  | sent hdgram =>
    refine ⟨?_, List.rel_append h.queue (.cons hdgram .nil), h.received⟩
    simp only [if_true, h.sent, List.append_assoc]

theorem ConversationInv.recv (h : ConversationInv c past pending) (msg : WlrdpIpcMsg) (fd : Nat) :
    ∃ past' pending', past' ++ pending' = past ++ pending ∧
      ConversationInv (c.recv msg fd) past' pending' := by
  have hqueue := h.queue
  simp only [Conversation.recv]
  cases hq : c.queue with
  | nil => exact ⟨past, pending, rfl, h⟩
  | cons dgram queue =>
    rw [hq] at hqueue
    cases hqueue with
    | @cons m _ pending _ hdgram htail =>
      have hsplit : past ++ [m] ++ pending = past ++ m :: pending := by
        rw [List.append_assoc, List.singleton_append]
      refine ⟨past ++ [m], pending, hsplit, ?_, htail, ?_⟩
      · rw [hsplit]
        exact h.sent
      · exact List.rel_append h.received (.cons (ipcRecvMsg_delivers hdgram _ fd msg) .nil)

/-- The messages posted so far split into the received and the queued ones. -/
def Conversation.Accounts (c : Conversation α) (posted : List (Sent α)) : Prop :=
  ∃ past pending, past ++ pending = posted ∧ ConversationInv c past pending

theorem accounts_step (h : c.Accounts posted) (he : c.admits e = true) :
    (c.step e).Accounts (posted ++ c.posts e) := by
  obtain ⟨past, pending, rfl, h⟩ := h
  cases e with
  | send msg fd refused =>
    exact ⟨past, _, (List.append_assoc ..).symm, h.send fd refused (of_decide_eq_true he)⟩
  | recv msg fd =>
    obtain ⟨past', pending', hsplit, h⟩ := h.recv msg fd
    exact ⟨past', pending', hsplit.trans (List.append_nil _).symm, h⟩
  | senderFiles files =>
    exact ⟨past, pending, (List.append_nil _).symm, h.sent, h.queue, h.received⟩
  | receiverFiles files =>
    exact ⟨past, pending, (List.append_nil _).symm, h.sent, h.queue, h.received⟩

/-- `ipc_send_msg` succeeds for exactly the messages that the socket takes; each of them is received
or queued, and every call of `ipc_recv_msg` returns the message of the send with its number. -/
theorem ipc_round_trip (sender receiver : DescriptorTable α)
    (hl : (conversation α).Legal (.opened sender receiver) es) :
    let c := (conversation α).run (.opened sender receiver) es
    let posted := (conversation α).gather Conversation.posts (.opened sender receiver) es
    c.sent = posted ∧ posted.length = c.received.length + c.queue.length ∧
      List.Forall₂ Delivers (posted.take c.received.length) c.received := by
  have hstart : (Conversation.opened sender receiver).Accounts [] := ⟨[], [], rfl, rfl, .nil, .nil⟩
  obtain ⟨past, pending, hposted, h⟩ :=
    System.gathered (J := Conversation.Accounts) (fun _ _ _ => accounts_step) hstart hl
  rw [List.nil_append] at hposted
  intro c posted
  change past ++ pending = posted at hposted
  rw [← hposted, ← h.received.length_eq]
  refine ⟨h.sent, ?_, ?_⟩
  · rw [List.length_append, h.queue.length_eq]
  · rw [List.take_left]
    exact h.received

/-- A message of the given type and length whose payload bytes are all `b`. -/
def WlrdpIpcMsg.uniform (type payloadLen : UInt32) (b : UInt8) : WlrdpIpcMsg where
  type := type
  payloadLen := payloadLen
  payload := ⟨List.replicate payloadSize b, List.length_replicate⟩

/-- A message with a descriptor and an empty one without, received over old contents. -/
def twoMessages : List (IpcEvent Nat) :=
  [.send (.uniform 1 3 7) 5 false, .recv (.uniform 9 9 9) 3, .send (.uniform 5 0 0) (-1) false,
    .recv (.uniform 9 9 9) 4]

theorem twoMessages_delivered :
    let c := (conversation Nat).run (.opened (.install .empty 5 0 true) .empty) twoMessages
    c.queue.length = 0 ∧
      List.Forall₂ Delivers [⟨.uniform 1 3 7, some 0⟩, ⟨.uniform 5 0 0, none⟩] c.received := by
  have hl : (conversation Nat).Legal (.opened (.install .empty 5 0 true) .empty) twoMessages := by
    decide
  exact ⟨rfl, (ipc_round_trip (.install .empty 5 0 true) .empty hl).2.2⟩

end Wlrdp
