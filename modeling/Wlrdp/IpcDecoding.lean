import Wlrdp.IpcRoundTrip

namespace Wlrdp
set_option autoImplicit true

variable {α : Type} {dgram : Datagram α} {prior : WlrdpIpcMsg}

/-! ### What a datagram says -/

/-- The length that the word at offset 4 declares. -/
def Datagram.declared (dgram : Datagram α) : Nat := (bytesWord (dgram.bytes.drop 4)).toNat

/-- The header and the declared payload are there. -/
def Datagram.containsPayload (dgram : Datagram α) : Bool :=
  8 + dgram.declared ≤ dgram.bytes.length

/-- The message is the one that the datagram holds, byte for byte. -/
structure Decodes (dgram : Datagram α) (msg : WlrdpIpcMsg) : Prop where
  type : msg.type = bytesWord dgram.bytes
  payloadLen : msg.payloadLen = bytesWord (dgram.bytes.drop 4)
  bound : msg.payloadLen.toNat ≤ payloadSize
  payload : ∀ i < msg.payloadLen.toNat, ∃ b : UInt8,
    dgram.bytes[8 + i]? = some b ∧ msg.payload.bytes[i]? = some b

/-- What the call returns as a message is in the datagram, and a datagram without its payload is
rejected. -/
structure SoundReceipt (dgram : Datagram α) (r : Receipt α) : Prop where
  decodes : r.ok = true → Decodes dgram r.msg
  rejects : dgram.containsPayload = false → r.ok = false

/-- The datagram is not one that declares a payload of an admissible length and lacks a part of
it. -/
def Datagram.untruncated (dgram : Datagram α) : Bool :=
  dgram.bytes.length < 8 || payloadSize < dgram.declared || dgram.containsPayload

/-! ### The decoder -/

theorem bytesWord_take (bytes : List UInt8) (h : 4 ≤ n) :
    bytesWord (bytes.take n) = bytesWord bytes := by
  match bytes, n with
  | [], _ => rw [List.take_nil]
  | [_], n + 1 => rw [List.take_succ_cons, List.take_nil]
  | [_, _], n + 2 => rw [List.take_succ_cons, List.take_succ_cons, List.take_nil]
  | [_, _, _], n + 3 =>
    rw [List.take_succ_cons, List.take_succ_cons, List.take_succ_cons, List.take_nil]
  | _ :: _ :: _ :: _ :: _, n + 4 => rfl

/-- What `ipc_recv_msg` makes of a datagram: it is too short, declares too much, is copied, or has
its payload skipped. -/
inductive RecvStep (dgram : Datagram α) (prior : WlrdpIpcMsg) (r : Receipt α) : Prop
  | short (h : dgram.bytes.length < 8) (hr : r.ok = false)
  | oversized (h : payloadSize < dgram.declared) (hr : r.ok = false)
  | copied (h : dgram.declared ≤ payloadSize) (hc : dgram.containsPayload = true)
      (hr : r.ok = true) (htype : r.msg.type = bytesWord dgram.bytes)
      (hlen : r.msg.payloadLen = bytesWord (dgram.bytes.drop 4))
      (hpayload : r.msg.payload.bytes =
        (dgram.bytes.drop 8).take dgram.declared ++ prior.payload.bytes.drop dgram.declared)
  | skipped (h₈ : 8 ≤ dgram.bytes.length) (h : dgram.declared ≤ payloadSize)
      (hc : dgram.containsPayload = false) (hr : r.ok = true)

theorem receipt_cases {P : Receipt α → Prop} {rights : Option Nat} {files : DescriptorTable α}
    (h : ∀ outFd, P ⟨true, msg, outFd, files⟩) :
    P (match rights with
      | none => ⟨true, msg, -1, files⟩
      | some fd => ⟨true, msg, fd, files⟩) := by
  cases rights with
  | none => exact h _
  | some fd => exact h _

theorem ipcRecvMsg_step (files : DescriptorTable α) (dgram : Datagram α) (fd : Nat)
    (prior : WlrdpIpcMsg) : RecvStep dgram prior (ipcRecvMsg files dgram fd prior) := by
  obtain ⟨rights, files', hrecv⟩ : ∃ rights files', recvmsg files dgram (8 + payloadSize) fd =
      (dgram.bytes.take (8 + payloadSize), rights, files') := by
    rw [recvmsg]
    split
    · exact ⟨_, _, rfl⟩
    · exact ⟨_, _, rfl⟩
  have hread : (dgram.bytes.take (8 + payloadSize)).length =
      min (8 + payloadSize) dgram.bytes.length := List.length_take
  have hword : bytesWord ((dgram.bytes.take (8 + payloadSize)).drop 4) =
      bytesWord (dgram.bytes.drop 4) := by
    rw [List.drop_take]
    exact bytesWord_take _ (by decide)
  have hsize : payloadSize = 256 := rfl
  simp only [ipcRecvMsg, hrecv, hread, hword]
  split
  · exact .short (by omega) rfl
  split
  · exact .short (by omega) rfl
  split
  · next h => exact .oversized h rfl
  next h₀ h₈ hmax =>
  have hlen : dgram.declared ≤ payloadSize := Nat.not_lt.1 hmax
  let declaring : WlrdpIpcMsg := { prior with payloadLen := bytesWord (dgram.bytes.drop 4) }
  have htotal : (8 + bytesWord (dgram.bytes.drop 4)).toNat = 8 + dgram.declared :=
    total_eq (show declaring.payloadLen.toNat ≤ payloadSize from hlen)
  rw [htotal]
  refine receipt_cases fun outFd => ?_
  cases hc : dgram.containsPayload with
  | false => exact .skipped (by omega) hlen hc rfl
  | true =>
    have hcontains : 8 + dgram.declared ≤ dgram.bytes.length := of_decide_eq_true hc
    refine .copied hlen hc rfl ?_ ?_ ?_
    · split
      · exact bytesWord_take _ (by decide)
      · exact bytesWord_take _ (by decide)
    · split
      · rfl
      · rfl
    · split
      · next hpos =>
        have hsrc : ((dgram.bytes.take (8 + payloadSize)).drop 8).take dgram.declared =
            (dgram.bytes.drop 8).take dgram.declared := by
          rw [List.drop_take, List.take_take, Nat.min_eq_left (by omega)]
        have hlength : ((dgram.bytes.drop 8).take dgram.declared).length = dgram.declared := by
          rw [List.length_take, List.length_drop]
          omega
        change _ ++ prior.payload.bytes.drop (List.length _) = _
        rw [show (bytesWord (dgram.bytes.drop 4)).toNat = dgram.declared from rfl, hsrc, hlength]
      · next hzero =>
        have hnone : dgram.declared = 0 := by
          have hnot : ¬ declaring.payloadLen > 0 := fun hpos => hzero ⟨hpos, by omega⟩
          exact payloadLen_zero hnot
        rw [hnone]
        rfl

/-- The receipt is sound exactly for the datagrams that are not cut short within an admissible
payload. -/
theorem ipc_decoder_sound_iff (files : DescriptorTable α) (dgram : Datagram α) (fd : Nat)
    (prior : WlrdpIpcMsg) :
    SoundReceipt dgram (ipcRecvMsg files dgram fd prior) ↔ dgram.untruncated = true := by
  rw [Datagram.untruncated, Bool.or_eq_true, Bool.or_eq_true, decide_eq_true_eq,
    decide_eq_true_eq]
  have hrejected {r : Receipt α} (hr : r.ok = false) : SoundReceipt dgram r := by
    refine ⟨fun h => ?_, fun _ => hr⟩
    rw [hr] at h
    cases h
  cases ipcRecvMsg_step files dgram fd prior with
  | short h hr => exact iff_of_true (hrejected hr) (.inl (.inl h))
  | oversized h hr => exact iff_of_true (hrejected hr) (.inl (.inr h))
  | copied h hc hr htype hlen hpayload =>
    refine iff_of_true ⟨fun _ => ⟨htype, hlen, ?_, fun i hi => ?_⟩, fun hn => ?_⟩ (.inr hc)
    · rw [hlen]
      exact h
    · rw [hlen] at hi
      have hi' : i < dgram.declared := hi
      have hcontains : 8 + dgram.declared ≤ dgram.bytes.length := of_decide_eq_true hc
      have hread : 8 + i < dgram.bytes.length := by omega
      have hget : dgram.bytes[8 + i]? = some dgram.bytes[8 + i] := List.getElem?_eq_getElem hread
      refine ⟨_, hget, ?_⟩
      rw [hpayload, List.getElem?_append_left, List.getElem?_take_of_lt hi', List.getElem?_drop]
      · exact hget
      · rw [List.length_take, List.length_drop]
        omega
    · rw [hc] at hn
      cases hn
  | skipped h₈ h hc hr =>
    apply iff_of_false
    · intro hs
      have hn := hs.rejects hc
      rw [hr] at hn
      cases hn
    · rintro ((hshort | hmax) | hcontains)
      · omega
      · omega
      · rw [hc] at hcontains
        cases hcontains

/-- A `NEW_CLIENT` header that declares four bytes, and no byte of them. -/
def headerOnly : Datagram Unit := ⟨wordBytes 1 ++ wordBytes 4, none⟩

/-- What was in the memory of the receiver. -/
def staleMsg : WlrdpIpcMsg := ⟨0, 0, ⟨List.replicate payloadSize 0xAA, List.length_replicate⟩⟩

/-- The old memory becomes the payload of a message. -/
theorem stale_payload_accepted :
    (ipcRecvMsg (fun _ => none) headerOnly 3 staleMsg).ok = true ∧
      (ipcRecvMsg (fun _ => none) headerOnly 3 staleMsg).msg.content =
        [0xAA, 0xAA, 0xAA, 0xAA] ∧
      ¬ SoundReceipt headerOnly (ipcRecvMsg (fun _ => none) headerOnly 3 staleMsg) := by
  refine ⟨rfl, rfl, fun h => ?_⟩
  cases h.rejects rfl

end Wlrdp
