import Wlrdp.ClipboardFreshness

namespace Wlrdp
set_option autoImplicit true

/-! ### Both ends of a transfer -/

/-- The third argument of `read`, in 64 bits. -/
def Reading.requested (rd : Reading) : Nat :=
  (rd.capacity.toUInt64 - rd.buf.length.toUInt64).toNat

/-- `source_send` of one session that writes to `read_offer_text` of another one: `written` of the
writer and whether it has closed its end, what its calls of `write` have taken, and what of that is
still in the pipe. -/
structure SplitTransfer where
  sender : Clipboard
  written : Nat
  closed : Bool
  sent : List UInt8
  pipe : List UInt8
  cb : Clipboard

/-- A call of `write` or of `read` returns that number, the writer leaves its loop, or `read`
returns 0. -/
inductive SplitEvent
  | wrote (n : Nat)
  | closes
  | readReturned (n : Nat)
  | readEnded
deriving DecidableEq

namespace SplitTransfer

/-- `pending_set_text` of the writer. -/
def text (s : SplitTransfer) : List UInt8 := s.sender.pendingSetText.getD []

/-- Both functions are at the head of their loops. -/
def start (sender cb : Clipboard) (offer pipe : Nat) (r : DispatchTurn) : SplitTransfer where
  sender := sender
  written := 0
  closed := false
  sent := []
  pipe := []
  cb := readOfferText cb offer pipe r

def step (s : SplitTransfer) : SplitEvent → SplitTransfer
  | .wrote n =>
    { s with
      written := s.written + n
      sent := s.sent ++ (s.text.drop s.written).take n
      pipe := s.pipe ++ (s.text.drop s.written).take n }
  | .closes => { s with closed := true }
  | .readReturned n =>
    match s.cb.reading with
    | none => s
    | some rd =>
      { s with
        cb := readOn { s.cb with reading := none } { rd with buf := rd.buf ++ s.pipe.take n } true
        pipe := s.pipe.drop n }
  | .readEnded =>
    match s.cb.reading with
    | none => s
    | some rd => { s with cb := readDone s.cb rd }

/-- Every call transfers at least one byte and at most what was requested. A `read` returns 0 at
the end of the file, and when nothing was requested. -/
def admits (s : SplitTransfer) : SplitEvent → Bool
  | .wrote n => !s.closed && s.written < s.text.length && 0 < n && n ≤ s.text.length - s.written
  | .closes => !s.closed && !(s.written < s.text.length)
  | .readReturned n => s.cb.reading.any fun rd => 0 < n && n ≤ s.pipe.length && n ≤ rd.requested
  | .readEnded => s.cb.reading.any fun rd => s.pipe.isEmpty && s.closed || rd.requested = 0

/-- Both functions have left their loops. -/
def finished (s : SplitTransfer) : Bool := s.closed && s.cb.reading.isNone

/-- At a call of `read` there is room in the buffer. -/
def HasRoom (s : SplitTransfer) : Prop :=
  ∀ rd, s.cb.reading = some rd → rd.buf.length < rd.capacity ∧ rd.capacity ≤ clipboardMaxSize

/-- Nothing is stored behind the buffer, and 0 means the end of the file. -/
def Exact (s : SplitTransfer) (e : SplitEvent) : Prop :=
  match e, s.cb.reading with
  | .readReturned n, some rd => rd.buf.length + n ≤ rd.capacity
  | .readEnded, some _ => s.pipe = [] ∧ s.closed = true
  | _, _ => True

end SplitTransfer

def splitting : System SplitTransfer SplitEvent :=
  ⟨fun s e => s.admits e = true, SplitTransfer.step⟩

instance (s : SplitTransfer) (e : SplitEvent) : Decidable (splitting.enabled s e) :=
  inferInstanceAs (Decidable (s.admits e = true))

variable {rd : Reading} {text : List UInt8} {s : SplitTransfer}

theorem step_readReturned (hr : s.cb.reading = some rd) (n : Nat) :
    s.step (.readReturned n) = { s with
      cb := readOn { s.cb with reading := none } { rd with buf := rd.buf ++ s.pipe.take n } true
      pipe := s.pipe.drop n } := by
  rw [SplitTransfer.step, hr]

theorem step_readEnded (hr : s.cb.reading = some rd) :
    s.step .readEnded = { s with cb := readDone s.cb rd } := by
  rw [SplitTransfer.step, hr]

/-! ### The growth of the buffer -/

/-- A buffer with a size that the loop allows. -/
structure Reading.Fits (rd : Reading) : Prop where
  length : rd.buf.length ≤ rd.capacity
  capacity : rd.capacity ≤ clipboardMaxSize

/-- Below the size limit the loop goes on with room for another byte. -/
theorem more_room (h : rd.Fits) (hmax : rd.buf.length < clipboardMaxSize) :
    ∃ rd', rd.more true = some rd' ∧ rd'.buf = rd.buf ∧ rd'.buf.length < rd'.capacity ∧
      rd'.capacity ≤ clipboardMaxSize := by
  have hlength := h.length
  have hgrown : rd.buf.length < if rd.capacity = 0 then 4096 else rd.capacity * 2 := by
    split <;> omega
  simp only [Reading.more]
  rw [if_neg (Nat.not_le.2 hmax)]
  split
  · refine ⟨_, rfl, rfl, ?_⟩
    generalize (if rd.capacity = 0 then 4096 else rd.capacity * 2) = n at hgrown ⊢
    dsimp only
    split
    · exact ⟨hmax, Nat.le_refl _⟩
    · next hsmall => exact ⟨hgrown, Nat.not_lt.1 hsmall⟩
  · next hroom => exact ⟨rd, rfl, rfl, by omega, h.capacity⟩

theorem more_full (hmax : clipboardMaxSize ≤ rd.buf.length) : rd.more true = none := if_pos hmax

/-- Nothing wraps in the size of a read. -/
theorem requested_eq (h : rd.Fits) : rd.requested = rd.capacity - rd.buf.length := by
  have hmax : clipboardMaxSize < 18446744073709551616 := by decide
  have hcapacity : rd.capacity.toUInt64.toNat = rd.capacity :=
    Nat.mod_eq_of_lt (Nat.lt_of_le_of_lt h.capacity hmax)
  have htotal : rd.buf.length.toUInt64.toNat = rd.buf.length :=
    Nat.mod_eq_of_lt (Nat.lt_of_le_of_lt (Nat.le_trans h.length h.capacity) hmax)
  have hle : rd.buf.length.toUInt64 ≤ rd.capacity.toUInt64 := by
    rw [UInt64.le_iff_toNat_le, hcapacity, htotal]
    exact h.length
  rw [Reading.requested, UInt64.toNat_sub_of_le _ _ hle, hcapacity, htotal]

/-! ### The invariant -/

/-- What was sent is a part of the text, and what was read a part of that. -/
structure SplitTransfer.Inv (text : List UInt8) (s : SplitTransfer) : Prop where
  pending : s.text = text
  sent : s.sent = text.take s.written
  written : s.written ≤ text.length
  closed : s.closed = true → s.written = text.length
  reading : ∀ rd, s.cb.reading = some rd → rd.buf ++ s.pipe = s.sent
  room : s.HasRoom
  stored : s.cb.reading = none → s.cb.wlClipboardText = some (text.take clipboardMaxSize)

theorem SplitTransfer.HasRoom.fits (h : s.HasRoom) (hr : s.cb.reading = some rd) : rd.Fits :=
  ⟨Nat.le_of_lt (h rd hr).1, (h rd hr).2⟩

theorem exact_of_inv (h : s.Inv text) (he : s.admits e = true) : s.Exact e := by
  cases e with
  | wrote | closes => trivial
  | readReturned n =>
    obtain ⟨rd, hr, hn⟩ := (Option.any_eq_true _ _).1 he
    have hrequested := of_decide_eq_true (Bool.and_eq_true_iff.1 hn).2
    rw [requested_eq (h.room.fits hr)] at hrequested
    have hroom := (h.room rd hr).1
    simp only [SplitTransfer.Exact, hr]
    omega
  | readEnded =>
    obtain ⟨rd, hr, hends⟩ := (Option.any_eq_true _ _).1 he
    simp only [SplitTransfer.Exact, hr]
    rcases (Bool.or_eq_true _ _).mp hends with heof | hnothing
    · obtain ⟨hempty, hclosed⟩ := Bool.and_eq_true_iff.1 heof
      exact ⟨List.isEmpty_iff.1 hempty, hclosed⟩
    · have hrequested := of_decide_eq_true hnothing
      rw [requested_eq (h.room.fits hr)] at hrequested
      have hroom := (h.room rd hr).1
      omega

namespace SplitTransfer.Inv

theorem start {sender cb : Clipboard} {offer pipe : Nat} (htext : sender.pendingSetText = some text)
    (hpipe : r.pipe2 = true) (hrealloc : r.realloc = true) :
    (SplitTransfer.start sender cb offer pipe r).Inv text := by
  have hfits : (Reading.mk offer pipe [] 0).Fits := ⟨Nat.le_refl 0, Nat.zero_le _⟩
  have hmax : 0 < clipboardMaxSize := by decide
  obtain ⟨rd, hmore, hbuf, hroom⟩ := more_room hfits hmax
  have hcb : readOfferText cb offer pipe r =
      { cb.request [.receive offer clipboardMimeType pipe] with reading := some rd } := by
    rw [readOfferText, hpipe, hrealloc]
    exact readOn_of_more hmore
  have hreading : (SplitTransfer.start sender cb offer pipe r).cb.reading = some rd :=
    congrArg Clipboard.reading hcb
  refine ⟨?_, rfl, Nat.zero_le _, fun hclosed => Bool.noConfusion hclosed, fun rd' hr => ?_,
    fun rd' hr => ?_, fun hnone => ?_⟩
  · rw [SplitTransfer.text]
    exact congrArg (Option.getD · []) htext
  · cases hreading.symm.trans hr
    rw [hbuf]
    rfl
  · cases hreading.symm.trans hr
    exact hroom
  · cases hreading.symm.trans hnone

theorem wrote (h : s.Inv text) (he : s.admits (.wrote n) = true) :
    (s.step (.wrote n)).Inv text := by
  simp only [admits, Bool.and_eq_true, Bool.not_eq_true', decide_eq_true_eq, and_assoc] at he
  obtain ⟨hopen, _, _, hn⟩ := he
  have hwritten := h.written
  rw [h.pending] at hn
  have hsent : s.sent ++ (text.drop s.written).take n = text.take (s.written + n) := by
    rw [h.sent, ← List.take_add]
  refine ⟨h.pending, ?_, ?_, fun hclosed => ?_, fun rd hr => ?_, h.room, h.stored⟩
  · change s.sent ++ (s.text.drop s.written).take n = text.take (s.written + n)
    rw [h.pending, hsent]
  · change s.written + n ≤ text.length
    omega
  · cases hopen.symm.trans hclosed
  · change rd.buf ++ (s.pipe ++ (s.text.drop s.written).take n) =
      s.sent ++ (s.text.drop s.written).take n
    rw [← List.append_assoc, h.reading rd hr]

theorem closes (h : s.Inv text) (he : s.admits .closes = true) : (s.step .closes).Inv text := by
  simp only [admits, Bool.and_eq_true, Bool.not_eq_true', decide_eq_false_iff_not] at he
  have hend := he.2
  have hwritten := h.written
  rw [h.pending] at hend
  exact ⟨h.pending, h.sent, h.written, fun _ => by change s.written = _; omega, h.reading, h.room,
    h.stored⟩

theorem goesOn {cb : Clipboard} {pipe : List UInt8} (h : s.Inv text) (hcb : cb.reading = some rd)
    (hjoined : rd.buf ++ pipe = s.sent)
    (hroom : rd.buf.length < rd.capacity ∧ rd.capacity ≤ clipboardMaxSize) :
    SplitTransfer.Inv text { s with cb := cb, pipe := pipe } := by
  refine ⟨h.pending, h.sent, h.written, h.closed, fun rd' hr => ?_, fun rd' hr => ?_, fun hnone => ?_⟩
  · cases hcb.symm.trans hr
    exact hjoined
  · cases hcb.symm.trans hr
    exact hroom
  · cases hcb.symm.trans hnone

theorem leaves (h : s.Inv text) (hbuf : rd.buf = text.take clipboardMaxSize) (hne : rd.buf ≠ [])
    (cb : Clipboard) (pipe : List UInt8) :
    SplitTransfer.Inv text { s with cb := readDone cb rd, pipe := pipe } := by
  have hnone : (readDone cb rd).reading = none := readDone_reading cb rd
  refine ⟨h.pending, h.sent, h.written, h.closed, fun rd' hr => ?_, fun rd' hr => ?_, fun _ => ?_⟩
  · cases hnone.symm.trans hr
  · cases hnone.symm.trans hr
  · change (readDone cb rd).wlClipboardText = _
    rw [readDone_text, if_neg hne, hbuf]

theorem readReturned (h : s.Inv text) (he : s.admits (.readReturned n) = true) :
    (s.step (.readReturned n)).Inv text := by
  have hexact := exact_of_inv h he
  obtain ⟨rd, hr, hn⟩ := (Option.any_eq_true _ _).1 he
  simp only [Exact, hr] at hexact
  have hjoined : (rd.buf ++ s.pipe.take n) ++ s.pipe.drop n = s.sent := by
    rw [List.append_assoc, List.take_append_drop, h.reading rd hr]
  have hlength : (rd.buf ++ s.pipe.take n).length ≤ rd.capacity := by
    rw [List.length_append, List.length_take]
    omega
  have hmax := (h.room rd hr).2
  rw [step_readReturned hr]
  rcases Nat.lt_or_ge (rd.buf ++ s.pipe.take n).length clipboardMaxSize with hbelow | hfull
  · have hfits : Reading.Fits { rd with buf := rd.buf ++ s.pipe.take n } := ⟨hlength, hmax⟩
    obtain ⟨rd', hmore, hbuf, hroom⟩ := more_room hfits hbelow
    rw [readOn_of_more hmore]
    refine h.goesOn rfl ?_ hroom
    rw [hbuf]
    exact hjoined
  · rw [readOn_text (more_full hfull)]
    have hpart : (rd.buf ++ s.pipe.take n) <+: text := by
      rw [h.sent] at hjoined
      exact ⟨s.pipe.drop n ++ text.drop s.written, by
        rw [← List.append_assoc, hjoined, List.take_append_drop]⟩
    refine h.leaves ?_ ?_ _ _
    · have heq := List.prefix_iff_eq_take.1 hpart
      rw [Nat.le_antisymm (Nat.le_trans hlength hmax) hfull] at heq
      exact heq
    · intro hnil
      have hzero : clipboardMaxSize ≤ 0 := Nat.le_trans hfull (Nat.le_of_eq (congrArg List.length hnil))
      exact absurd hzero (by decide)

theorem readEnded (h : s.Inv text) (hne : text ≠ []) (he : s.admits .readEnded = true) :
    (s.step .readEnded).Inv text := by
  have hexact := exact_of_inv h he
  obtain ⟨rd, hr, _⟩ := (Option.any_eq_true _ _).1 he
  simp only [Exact, hr] at hexact
  obtain ⟨hempty, hclosed⟩ := hexact
  -- At the end of the file all of the text is in the buffer, and so it is below the size limit.
  have hbuf : rd.buf = text := by
    have hjoined := h.reading rd hr
    rw [hempty, List.append_nil, h.sent, h.closed hclosed, List.take_length] at hjoined
    exact hjoined
  have hroom := h.room rd hr
  rw [step_readEnded hr]
  refine h.leaves ?_ (hbuf ▸ hne) _ _
  rw [hbuf] at hroom ⊢
  rw [List.take_of_length_le (by omega)]

theorem step (h : s.Inv text) (hne : text ≠ []) (he : s.admits e = true) :
    (s.step e).Inv text := by
  cases e with
  | wrote => exact h.wrote he
  | closes => exact h.closes he
  | readReturned => exact h.readReturned he
  | readEnded => exact h.readEnded hne he

end SplitTransfer.Inv

/-! ### Termination -/

/-- The calls that either loop can still make. -/
def SplitTransfer.left (s : SplitTransfer) : Nat :=
  (s.text.length - s.written) + (if s.closed then 0 else 1) +
    s.cb.reading.elim 0 fun rd => s.text.length - rd.buf.length + 1

/-- Every call brings one of the loops closer to its end. -/
theorem step_left (h : s.Inv text) (he : s.admits e = true) : (s.step e).left < s.left := by
  cases e with
  | wrote n =>
    simp only [SplitTransfer.admits, Bool.and_eq_true, decide_eq_true_eq, and_assoc] at he
    obtain ⟨_, hbelow, hpos, hn⟩ := he
    refine Nat.add_lt_add_right (Nat.add_lt_add_right ?_ _) _
    change s.text.length - (s.written + n) < s.text.length - s.written
    omega
  | closes =>
    simp only [SplitTransfer.admits, Bool.and_eq_true, Bool.not_eq_true'] at he
    refine Nat.add_lt_add_right (Nat.add_lt_add_left ?_ _) _
    rw [he.1]
    exact Nat.zero_lt_one
  | readReturned n =>
    obtain ⟨rd, hr, hn⟩ := (Option.any_eq_true _ _).1 he
    simp only [Bool.and_eq_true, decide_eq_true_eq, and_assoc] at hn
    obtain ⟨hpos, havailable, _⟩ := hn
    have hlength := congrArg List.length (h.reading rd hr)
    rw [h.sent, List.length_append, List.length_take] at hlength
    rw [step_readReturned hr]
    refine Nat.add_lt_add_left ?_ _
    change (readOn _ _ true).reading.elim 0 (fun rd => s.text.length - rd.buf.length + 1) < _
    rw [hr, h.pending]
    cases hm : Reading.more { rd with buf := rd.buf ++ s.pipe.take n } true with
    | none =>
      rw [readOn_text hm, readDone_reading]
      exact Nat.succ_pos _
    | some rd' =>
      have hbuf : rd'.buf.length = rd.buf.length + n := by
        rw [more_eq hm, List.length_append, List.length_take]
        omega
      rw [readOn_of_more hm]
      change text.length - rd'.buf.length + 1 < text.length - rd.buf.length + 1
      omega
  | readEnded =>
    obtain ⟨rd, hr, _⟩ := (Option.any_eq_true _ _).1 he
    rw [step_readEnded hr]
    refine Nat.add_lt_add_left ?_ _
    change (readDone _ _).reading.elim 0 (fun rd => s.text.length - rd.buf.length + 1) < _
    rw [readDone_reading, hr]
    exact Nat.succ_pos _

/-- As long as a loop is not left, one of them can go on. -/
theorem enabled_of_not_finished (h : s.Inv text) (hfinished : s.finished = false) :
    ∃ e, splitting.enabled s e := by
  cases hclosed : s.closed with
  | false =>
    by_cases hbelow : s.written < s.text.length
    · refine ⟨.wrote (s.text.length - s.written), ?_⟩
      simp only [splitting, SplitTransfer.admits, hclosed, Bool.not_false, Bool.true_and,
        Bool.and_eq_true, decide_eq_true_eq]
      omega
    · refine ⟨.closes, ?_⟩
      simp only [splitting, SplitTransfer.admits, hclosed, hbelow, decide_false, Bool.not_false,
        Bool.and_self]
  | true =>
    rw [SplitTransfer.finished, hclosed, Bool.true_and, ← Bool.not_eq_true,
      Option.isNone_iff_eq_none] at hfinished
    obtain ⟨rd, hr⟩ := Option.ne_none_iff_exists'.1 hfinished
    by_cases hempty : s.pipe = []
    · refine ⟨.readEnded, ?_⟩
      simp only [splitting, SplitTransfer.admits, hr, Option.any_some, hempty, hclosed,
        List.isEmpty_nil, Bool.and_self, Bool.true_or]
    · refine ⟨.readReturned 1, ?_⟩
      have hroom := (h.room rd hr).1
      have hpos := List.length_pos_iff.2 hempty
      simp only [splitting, SplitTransfer.admits, hr, Option.any_some, Bool.and_eq_true,
        decide_eq_true_eq, requested_eq (h.room.fits hr)]
      omega

/-! ### Whole transfers -/

/-- The loop of `source_send` passes on what the callback was modelled to. -/
theorem sent_eq_sourceSend (h : s.Inv text) :
    s.sent = sourceSend s.sender clipboardMimeType s.written := by
  rw [h.sent, ← h.pending, SplitTransfer.text, sourceSend]
  cases s.sender.pendingSetText with
  | none => exact List.take_nil
  | some t => exact (if_pos rfl).symm

theorem left_le (h : s.Inv text) : s.left ≤ 2 * text.length + 2 := by
  have hwriter : (s.text.length - s.written) + (if s.closed then 0 else 1) ≤ text.length + 1 := by
    rw [h.pending]
    split <;> omega
  have hreader : (s.cb.reading.elim 0 fun rd => s.text.length - rd.buf.length + 1) ≤
      text.length + 1 := by
    rw [h.pending]
    cases s.cb.reading with
    | none => exact Nat.zero_le _
    | some rd => exact Nat.succ_le_succ (Nat.sub_le ..)
  rw [SplitTransfer.left]
  omega

/-- However a transfer is split: every `read` is called with room in the buffer and stores nothing
behind it, both loops end, the writer delivers the text, and the reader stores as much of it as
fits. -/
theorem split_transfer {sender cb : Clipboard} (htext : sender.pendingSetText = some text)
    (hne : text ≠ []) (hpipe : r.pipe2 = true) (hrealloc : r.realloc = true)
    (hl : splitting.Legal (.start sender cb offer pipe r) es) :
    splitting.Always SplitTransfer.HasRoom (.start sender cb offer pipe r) es ∧
      splitting.Along SplitTransfer.Exact (.start sender cb offer pipe r) es ∧
      es.length ≤ 2 * text.length + 2 ∧
      let s := splitting.run (.start sender cb offer pipe r) es
      (s.closed = true → s.sent = text) ∧
        (s.cb.reading = none → s.cb.wlClipboardText = some (text.take clipboardMaxSize)) ∧
        (s.finished = false → ∃ e, splitting.enabled s e) := by
  have hstart : (SplitTransfer.start sender cb offer pipe r).Inv text :=
    .start htext hpipe hrealloc
  have hstep : ∀ s e, SplitTransfer.Inv text s → splitting.enabled s e →
      SplitTransfer.Inv text (splitting.step s e) := fun s e h he => h.step hne he
  have halways := System.always_of_legal hstep hstart hl
  have hexact := System.along_of_step hstep (fun s e h he => exact_of_inv h he) hstart hl
  have hlength := System.length_add_measure_le SplitTransfer.left hstep
    (fun s e h he => step_left h he) hstart hl
  have hlast := halways.last
  refine ⟨halways.mono fun s h => h.room, hexact, ?_, fun hclosed => ?_, hlast.stored,
    enabled_of_not_finished hlast⟩
  · exact Nat.le_trans (Nat.le_add_right ..) (Nat.le_trans hlength (left_le hstart))
  · rw [hlast.sent, hlast.closed hclosed, List.take_length]

/-- The text `hi` is written and read byte by byte. -/
theorem split_transfer_bytes :
    let start := SplitTransfer.start { Clipboard.init with pendingSetText := some [104, 105] }
      .init 0 0 ⟨true, true, true, 0⟩
    let es := [.wrote 1, .readReturned 1, .wrote 1, .closes, .readReturned 1, .readEnded]
    splitting.Always SplitTransfer.HasRoom start es ∧
      (splitting.run start es).sent = [104, 105] ∧
      (splitting.run start es).cb.wlClipboardText = some [104, 105] := by
  have hl : splitting.Legal (.start { Clipboard.init with pendingSetText := some [104, 105] }
      .init 0 0 ⟨true, true, true, 0⟩)
      [.wrote 1, .readReturned 1, .wrote 1, .closes, .readReturned 1, .readEnded] := by decide
  have hne : ([104, 105] : List UInt8) ≠ [] := by decide
  obtain ⟨hroom, _, _, hsent, hstored, _⟩ := split_transfer rfl hne rfl rfl hl
  exact ⟨hroom, hsent rfl, hstored rfl⟩

end Wlrdp
