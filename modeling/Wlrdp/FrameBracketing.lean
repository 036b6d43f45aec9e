import Wlrdp.GfxStreams
import Wlrdp.WorkerSemantics

namespace Wlrdp
set_option autoImplicit true

variable {p : Peer} {c : FrameCall} {calls : List FrameCall}

/-! ### Sequences of frames -/

/-- A call of one of the three frame senders. -/
inductive FrameCall
  | avc420 (f : EncodedFrame) (width height : UInt32) (r : FrameSend)
  | avc444 (f : EncodedFrame) (width height : UInt32) (isAvc444v2 : Bool) (r : FrameSend)
  | progressive (f : EncodedFrame) (width height : UInt32) (r : FrameSend)

namespace FrameCall

/-- The peer after the call. `on_frame_ready` ignores the result. -/
def send (p : Peer) : FrameCall → Peer
  | .avc420 f width height r => (sendGfxAvc420 p f width height r).2
  | .avc444 f width height isAvc444v2 r => (sendGfxAvc444 p f width height isAvc444v2 r).2
  | .progressive f width height r => (sendGfxProgressive p f width height r).2

/-- The frame has something to send. -/
def hasData : FrameCall → Bool
  | .avc420 f _ _ _ => !(f.metablock.numRegionRects = 0 ∨ f.len = 0)
  | .avc444 f _ _ _ _ => !(f.len = 0 ∧ f.auxLen = 0)
  | .progressive f _ _ _ => !(f.data = none ∨ f.len = 0)

def result : FrameCall → FrameSend
  | .avc420 _ _ _ r => r
  | .avc444 _ _ _ _ r => r
  | .progressive _ _ _ r => r

/-- Once its `StartFrame` is out, the rest of the frame goes out too. -/
def closes (c : FrameCall) : Bool :=
  !(c.hasData && c.result.startFrame) || c.result.surfaceCommand && c.result.endFrame

end FrameCall

def sendFrames (p : Peer) (calls : List FrameCall) : Peer := calls.foldl FrameCall.send p

/-- A PDU that was sent successfully. -/
def GfxEvent.sent : GfxEvent → Option GfxPdu
  | .pdu frame true => some frame
  | _ => none

def sentOf (said : List GfxEvent) : List GfxPdu := said.filterMap GfxEvent.sent

/-- The PDUs that a peer sent successfully since it was `p`. -/
def sentSince (p p' : Peer) : List GfxPdu := sentOf (gfxSaid (p'.out.drop p.out.length))

/-! ### Bracketing -/

/-- A frame on the wire. -/
structure FrameGroup where
  frameId : UInt32
  cmds : List SurfaceCommand

def FrameGroup.pdus (g : FrameGroup) : List GfxPdu :=
  .startFrame g.frameId :: g.cmds.map GfxPdu.surfaceCommand ++ [.endFrame g.frameId]

/-- The PDUs are whole frames whose ids count on from `id₀`: they are `id₀ + n` modulo `2 ^ 32`
for increasing numbers `n` of frames begun, of which there are at most `frames`. -/
def Bracketed (id₀ : UInt32) (frames : Nat) (pdus : List GfxPdu) : Prop :=
  ∃ groups : List FrameGroup, ∃ ns : List Nat,
    pdus = groups.flatMap FrameGroup.pdus ∧
      groups.map (·.frameId) = ns.map (fun n => id₀ + UInt32.ofNat n) ∧
      ns.Pairwise (· < ·) ∧ ∀ n ∈ ns, 0 < n ∧ n ≤ frames

theorem Bracketed.nil : Bracketed id₀ frames [] :=
  ⟨[], [], rfl, rfl, .nil, fun _ h => by cases h⟩

theorem Bracketed.mono (h : Bracketed id₀ frames pdus) : Bracketed id₀ (frames + 1) pdus := by
  obtain ⟨groups, ns, hpdus, hids, hlt, hle⟩ := h
  exact ⟨groups, ns, hpdus, hids, hlt, fun n hn => ⟨(hle n hn).1, Nat.le_succ_of_le (hle n hn).2⟩⟩

theorem frame_number (id₀ : UInt32) (n : Nat) :
    id₀ + 1 + UInt32.ofNat n = id₀ + UInt32.ofNat (n + 1) := by
  rw [UInt32.ofNat_add, UInt32.add_assoc, UInt32.add_comm 1]
  rfl

/-- The ids still count on if a frame was begun before these. -/
theorem Bracketed.skip (h : Bracketed (id₀ + 1) frames pdus) :
    Bracketed id₀ (frames + 1) pdus := by
  obtain ⟨groups, ns, hpdus, hids, hlt, hle⟩ := h
  refine ⟨groups, ns.map (· + 1), hpdus, ?_, ?_, ?_⟩
  · rw [hids, List.map_map]
    exact List.map_congr_left fun n _ => frame_number id₀ n
  · rw [List.pairwise_map]
    exact hlt.imp Nat.succ_lt_succ
  · intro n hn
    obtain ⟨m, hm, rfl⟩ := List.mem_map.1 hn
    exact ⟨Nat.succ_pos m, Nat.succ_le_succ (hle m hm).2⟩

theorem Bracketed.cons (cmd : SurfaceCommand) (h : Bracketed (id₀ + 1) frames pdus) :
    Bracketed id₀ (frames + 1) ((⟨id₀ + 1, [cmd]⟩ : FrameGroup).pdus ++ pdus) := by
  obtain ⟨groups, ns, hpdus, hids, hlt, hle⟩ := h
  refine ⟨⟨id₀ + 1, [cmd]⟩ :: groups, 1 :: ns.map (· + 1), ?_, ?_, ?_, ?_⟩
  · rw [List.flatMap_cons, hpdus]
  · rw [List.map_cons, List.map_cons, hids, List.map_map]
    have hns : ns.map (fun n => id₀ + 1 + UInt32.ofNat n) =
        ns.map ((fun n => id₀ + UInt32.ofNat n) ∘ (· + 1)) :=
      List.map_congr_left fun n _ => frame_number id₀ n
    rw [hns]
    rfl
  · rw [List.pairwise_cons, List.pairwise_map]
    refine ⟨fun n hn => ?_, hlt.imp Nat.succ_lt_succ⟩
    obtain ⟨m, hm, rfl⟩ := List.mem_map.1 hn
    exact Nat.succ_lt_succ (hle m hm).1
  · intro n hn
    rcases List.mem_cons.1 hn with rfl | hn
    · exact ⟨Nat.one_pos, Nat.succ_pos frames⟩
    · obtain ⟨m, hm, rfl⟩ := List.mem_map.1 hn
      exact ⟨Nat.succ_pos m, Nat.succ_le_succ (hle m hm).2⟩

def GfxPdu.starts : GfxPdu → Bool
  | .startFrame _ => true
  | _ => false

def GfxPdu.ends : GfxPdu → Bool
  | .endFrame _ => true
  | _ => false

/-- Every frame that was begun has been ended. -/
def Balanced (pdus : List GfxPdu) : Prop := pdus.countP GfxPdu.starts = pdus.countP GfxPdu.ends

instance : DecidablePred Balanced := fun pdus =>
  inferInstanceAs (Decidable (pdus.countP GfxPdu.starts = pdus.countP GfxPdu.ends))

theorem Balanced.append (h : Balanced pdus) (h' : Balanced pdus') : Balanced (pdus ++ pdus') := by
  simp only [Balanced] at h h' ⊢
  rw [List.countP_append, List.countP_append, h, h']

theorem FrameGroup.balanced (g : FrameGroup) : Balanced g.pdus := by
  have hcmds : Balanced (g.cmds.map GfxPdu.surfaceCommand) := by
    rw [Balanced, List.countP_map, List.countP_map]
    rfl
  simp only [Balanced] at hcmds ⊢
  simp only [FrameGroup.pdus, List.countP_append, List.countP_cons, List.countP_nil, hcmds,
    GfxPdu.starts, GfxPdu.ends]
  simp

theorem Bracketed.balanced (h : Bracketed id₀ frames pdus) : Balanced pdus := by
  obtain ⟨groups, ns, rfl, -⟩ := h
  clear ns
  induction groups with
  | nil => rfl
  | cons g groups ih =>
    rw [List.flatMap_cons]
    exact g.balanced.append ih

/-! ### One call -/

theorem sentOf_append (said said' : List GfxEvent) :
    sentOf (said ++ said') = sentOf said ++ sentOf said' := List.filterMap_append

theorem sendGfxFrame_frameId (p : Peer) :
    (sendGfxFrame p codecId data extra len width height r).2.ctx.gfxFrameId =
      p.ctx.gfxFrameId + 1 := by
  simp only [sendGfxFrame]
  split
  · rfl
  · split <;> rfl

/-- A call skips an empty frame and begins any other. -/
theorem FrameCall.send_cases (c : FrameCall) (p : Peer) :
    c.hasData = false ∧ c.send p = p ∨
      c.hasData = true ∧ (c.send p).ctx.gfxFrameId = p.ctx.gfxFrameId + 1 ∧
        ∃ cmd, cmd.surfaceId = p.ctx.gfxSurfaceId ∧
          Says p (c.send p) (c.result.said (p.ctx.gfxFrameId + 1) cmd) := by
  cases c with
  | avc420 f width height r =>
    simp only [hasData, send, sendGfxAvc420]
    by_cases h : f.metablock.numRegionRects = 0 ∨ f.len = 0
    · left
      rw [if_pos h]
      exact ⟨by simp only [h, decide_true, Bool.not_true], rfl⟩
    · right
      rw [if_neg h]
      obtain ⟨cmd, hid, htells⟩ := sendGfxFrame_tells p .avc420 f.data (.avc420 f.metablock f.len)
        f.len width height r
      refine ⟨?_, sendGfxFrame_frameId p, cmd, hid, htells⟩
      simp only [h, decide_false, Bool.not_false]
  | avc444 f width height isAvc444v2 r =>
    simp only [hasData, send, sendGfxAvc444]
    by_cases h : f.len = 0 ∧ f.auxLen = 0
    · left
      rw [if_pos h]
      exact ⟨by simp only [h, and_self, decide_true, Bool.not_true], rfl⟩
    · right
      rw [if_neg h]
      obtain ⟨cmd, hid, htells⟩ := sendGfxFrame_tells p (if isAvc444v2 then .avc444v2 else .avc444)
        f.data (.avc444 (4 + f.metablock.numRegionRects * 10 + f.len) f.avc444Lc f.metablock f.len
          f.auxMetablock f.auxLen) (f.len + f.auxLen) width height r
      refine ⟨?_, sendGfxFrame_frameId p, cmd, hid, htells⟩
      simp only [h, decide_false, Bool.not_false]
  | progressive f width height r =>
    simp only [hasData, send, sendGfxProgressive]
    by_cases h : f.data = none ∨ f.len = 0
    · left
      rw [if_pos h]
      exact ⟨by simp only [h, decide_true, Bool.not_true], rfl⟩
    · right
      rw [if_neg h]
      obtain ⟨cmd, hid, htells⟩ := sendGfxFrame_tells p .caprogressive f.data .none f.len width
        height r
      refine ⟨?_, sendGfxFrame_frameId p, cmd, hid, htells⟩
      simp only [h, decide_false, Bool.not_false]

theorem sentOf_said_closed (hs : r.startFrame = true) (hc : r.surfaceCommand = true)
    (he : r.endFrame = true) :
    sentOf (FrameSend.said k cmd r) = (⟨k, [cmd]⟩ : FrameGroup).pdus := by
  simp only [FrameSend.said, hs, hc, he]
  rfl

theorem sentOf_said_unsent (hs : r.startFrame = false) : sentOf (FrameSend.said k cmd r) = [] := by
  simp only [FrameSend.said, hs]
  rfl

/-- A frame that breaks off leaves a `StartFrame` without its `EndFrame`. -/
theorem sentOf_said_open (k : UInt32) (cmd : SurfaceCommand) (hs : r.startFrame = true)
    (h : (r.surfaceCommand && r.endFrame) = false) :
    (sentOf (FrameSend.said k cmd r)).countP GfxPdu.ends <
      (sentOf (FrameSend.said k cmd r)).countP GfxPdu.starts := by
  simp only [FrameSend.said, hs]
  cases hc : r.surfaceCommand with
  | false => exact Nat.one_pos
  | true =>
    rw [hc, Bool.true_and] at h
    simp only [h]
    exact Nat.one_pos

/-! ### Whole sequences -/

/-- Where every frame that begins is finished, the PDUs are bracketed. -/
theorem bracketed_of_closes (h : ∀ c ∈ calls, c.closes = true) :
    ∃ said, Says p (sendFrames p calls) said ∧
      Bracketed p.ctx.gfxFrameId calls.length (sentOf said) := by
  induction calls generalizing p with
  | nil => exact ⟨[], .refl p, .nil⟩
  | cons c calls ih =>
    obtain ⟨said, htells, hbr⟩ := ih (p := c.send p) fun c hc => h c (List.mem_cons_of_mem _ hc)
    have hc := h c List.mem_cons_self
    rcases c.send_cases p with ⟨_, hsame⟩ | ⟨hdata, hid, cmd, _, hcall⟩
    · rw [hsame] at htells hbr
      refine ⟨said, ?_, hbr.mono⟩
      rw [sendFrames, List.foldl_cons, hsame]
      exact htells
    · refine ⟨_, hcall.trans htells, ?_⟩
      rw [hid] at hbr
      rw [sentOf_append]
      simp only [FrameCall.closes, hdata, Bool.true_and] at hc
      cases hs : c.result.startFrame with
      | false =>
        rw [sentOf_said_unsent hs]
        exact hbr.skip
      | true =>
        rw [hs, Bool.not_true, Bool.false_or, Bool.and_eq_true] at hc
        rw [sentOf_said_closed hs hc.1 hc.2]
        exact hbr.cons cmd

/-- A run never ends more frames than it begins, and as many only if all are finished. -/
theorem closes_of_balanced (p : Peer) (calls : List FrameCall) :
    ∃ said, Says p (sendFrames p calls) said ∧
      (sentOf said).countP GfxPdu.ends ≤ (sentOf said).countP GfxPdu.starts ∧
      (Balanced (sentOf said) → ∀ c ∈ calls, c.closes = true) := by
  induction calls generalizing p with
  | nil => exact ⟨[], .refl p, Nat.le_refl _, fun _ c hc => by cases hc⟩
  | cons c calls ih =>
    obtain ⟨said, htells, hle, hall⟩ := ih (c.send p)
    rcases c.send_cases p with ⟨hdata, hsame⟩ | ⟨hdata, _, cmd, _, hcall⟩
    · rw [hsame] at htells
      refine ⟨said, ?_, hle, fun hb => List.forall_mem_cons.2 ⟨?_, hall hb⟩⟩
      · rw [sendFrames, List.foldl_cons, hsame]
        exact htells
      · rw [FrameCall.closes, hdata]
        rfl
    · refine ⟨_, hcall.trans htells, ?_⟩
      rw [sentOf_append]
      simp only [Balanced] at hall ⊢
      rw [List.countP_append, List.countP_append]
      cases hclose : c.closes with
      | true =>
        have hbr : Balanced (sentOf (c.result.said (p.ctx.gfxFrameId + 1) cmd)) := by
          rw [FrameCall.closes, hdata, Bool.true_and] at hclose
          cases hs : c.result.startFrame with
          | false =>
            rw [sentOf_said_unsent hs]
            rfl
          | true =>
            rw [hs, Bool.not_true, Bool.false_or, Bool.and_eq_true] at hclose
            rw [sentOf_said_closed hs hclose.1 hclose.2]
            exact FrameGroup.balanced _
        simp only [Balanced] at hbr
        refine ⟨by omega, fun hb => List.forall_mem_cons.2 ⟨hclose, hall (by omega)⟩⟩
      | false =>
        rw [FrameCall.closes, hdata, Bool.true_and, Bool.or_eq_false_iff] at hclose
        have hopen := sentOf_said_open (p.ctx.gfxFrameId + 1) cmd
          ((Bool.not_eq_false' _).mp hclose.1) hclose.2
        exact ⟨by omega, fun hb => by omega⟩

/-- The PDUs sent by a sequence of frames on a peer in any state are whole frames with rising
ids exactly when no frame breaks off after its `StartFrame`. -/
theorem frames_bracketed_iff (p : Peer) (calls : List FrameCall) :
    Bracketed p.ctx.gfxFrameId calls.length (sentSince p (sendFrames p calls)) ↔
      ∀ c ∈ calls, c.closes = true := by
  constructor
  · intro h
    obtain ⟨said, htells, _, hall⟩ := closes_of_balanced p calls
    rw [sentSince, htells.drop] at h
    exact hall h.balanced
  · intro h
    obtain ⟨said, htells, hbr⟩ := bracketed_of_closes (p := p) h
    rw [sentSince, htells.drop]
    exact hbr

/-! ### A surface command that fails -/

/-- A peer with a graphics pipeline that is ready. -/
def Peer.streaming : Peer where
  id := 0
  settings := .basic 800 600 true true
  ctx := { PeerContext.new 800 600 false with
    gfxVcm := some 1, gfxContext := some 2, gfxOpened := true, gfxReady := true
    gfxSurfaceId := 1, sendMode := .gfxProgressive }
  cliprdr := none
  chans := .empty
  out := []

/-- Two frames of which the first fails at its surface command. -/
def interruptedFrames : List FrameCall :=
  let f : EncodedFrame := ⟨some ⟨.caprogressive, 800, 600⟩, 10, none, 0, .zero, .zero, 0⟩
  [.progressive f 800 600 ⟨true, false, true, true⟩, .progressive f 800 600 ⟨true, true, true, true⟩]

theorem interruptedFrames_not_bracketed :
    ¬ Bracketed Peer.streaming.ctx.gfxFrameId interruptedFrames.length
      (sentSince .streaming (sendFrames .streaming interruptedFrames)) := by
  intro h
  have hopen : ¬ Balanced (sentSince .streaming (sendFrames .streaming interruptedFrames)) := by
    decide
  exact hopen h.balanced

end Wlrdp
