import Wlrdp.ClipboardFreshness

namespace Wlrdp
set_option autoImplicit true

/-! ### Texts on their way -/

/-- The clipboard with the text that the owner of the selection writes for it, and how much of
it is still to be read. -/
structure Transfer where
  pasting : Pasting
  offered : List UInt8
  rest : List UInt8

/-- An event with the text that a transfer starting with it is about. -/
structure TransferEvent where
  event : PasteEvent
  text : List UInt8

/-- The same clipboard before it stored any text. -/
def Pasting.textless (s : Pasting) : Pasting :=
  { s with cb := { s.cb with wlClipboardText := none } }

namespace Transfer

def start : Transfer := ⟨.start, [], []⟩

def step (s : Transfer) (e : TransferEvent) : Transfer :=
  match e.event with
  | .dispatch .. => ⟨s.pasting.step e.event, e.text, e.text⟩
  | .readReturned bytes _ => ⟨s.pasting.step e.event, s.offered, s.rest.drop bytes.length⟩
  | _ => { s with pasting := s.pasting.step e.event }

/-- A `read` returns what comes next, and 0 only at the end. -/
def admits (s : Transfer) (e : TransferEvent) : Bool :=
  s.pasting.admits e.event && match e.event with
    | .readReturned bytes _ => bytes.isPrefixOf s.rest
    | .readEnded => s.rest.isEmpty
    | _ => true

/-- The event is the end of the file, or the read that reaches the size limit. -/
def completes (s : Transfer) (e : TransferEvent) : Bool :=
  match e.event, s.pasting.cb.reading with
  | .readEnded, some _ => true
  | .readReturned bytes _, some rd => clipboardMaxSize ≤ rd.buf.length + bytes.length
  | _, _ => false

/-- The text that the event stores, if any: that of a clipboard that had none before. -/
def stored (s : Transfer) (e : TransferEvent) : Option (List UInt8) :=
  (s.pasting.textless.step e.event).cb.wlClipboardText

/-- A read fails only before anything was read, and the buffer can grow whenever it has to. -/
def uninterrupted (s : Transfer) (e : TransferEvent) : Bool :=
  match e.event, s.pasting.cb.reading with
  | .readFailed, some rd => rd.buf = []
  | .readReturned bytes realloc, some rd =>
    clipboardMaxSize ≤ rd.buf.length + bytes.length ||
      ({ rd with buf := rd.buf ++ bytes }.more realloc).isSome
  | _, _ => true

end Transfer

def transferring : System Transfer TransferEvent := ⟨fun s e => s.admits e = true, Transfer.step⟩

instance (s : Transfer) (e : TransferEvent) : Decidable (transferring.enabled s e) :=
  inferInstanceAs (Decidable (s.admits e = true))

/-- Only a transfer that is complete stores a text and notifies the RDP side, and a stored text
below the size limit is the one that was offered. -/
structure WholeTexts (s : Transfer) (e : TransferEvent) : Prop where
  kept : s.completes e = false →
    s.stored e = none ∧ (s.step e).pasting.cb.changes = s.pasting.cb.changes
  whole : ∀ text, s.stored e = some text → text.length < clipboardMaxSize → text = s.offered

/-! ### What one event stores -/

variable {s : Transfer} {e : TransferEvent} {cb : Clipboard} {rd : Reading}

/-- What was read and what is to be read are the offered text. -/
def Transfer.Inv (s : Transfer) : Prop :=
  ∀ rd, s.pasting.cb.reading = some rd → rd.buf ++ s.rest = s.offered

theorem clipboardSetText_reading (cb : Clipboard) (text : List UInt8) (malloc : Bool) :
    (clipboardSetText cb text malloc).reading = cb.reading := by
  obtain ⟨_, _, _, _, _, hset⟩ := clipboardSetText_frame cb text malloc
  rw [hset]

theorem WholeTexts.idle (hstored : s.stored e = none)
    (hchanges : (s.step e).pasting.cb.changes = s.pasting.cb.changes) : WholeTexts s e :=
  ⟨fun _ => ⟨hstored, hchanges⟩, fun _ ht => nomatch hstored.symm.trans ht⟩

theorem readDone_textless (cb : Clipboard) (rd : Reading) :
    (readDone { cb with wlClipboardText := none } rd).wlClipboardText =
      if rd.buf = [] then none else some rd.buf := readDone_text ..

theorem wholeTexts_ended (hi : s.Inv) (hr : s.pasting.cb.reading = some rd)
    (hrest : s.rest = []) : WholeTexts s ⟨.readEnded, text⟩ := by
  have hcompletes : s.completes ⟨.readEnded, text⟩ = true := by
    rw [Transfer.completes, hr]
  have hstored : s.stored ⟨.readEnded, text⟩ = if rd.buf = [] then none else some rd.buf := by
    have hread : s.pasting.textless.cb.reading = some rd := hr
    rw [Transfer.stored, readEnded_cb hread]
    exact readDone_textless s.pasting.cb rd
  refine ⟨fun h => Bool.noConfusion (hcompletes.symm.trans h), fun t ht _ => ?_⟩
  have hbuf := hi rd hr
  rw [hrest, List.append_nil] at hbuf
  rw [hstored] at ht
  split at ht
  · cases ht
  · cases ht
    exact hbuf

theorem wholeTexts_failed_iff (hr : s.pasting.cb.reading = some rd) :
    WholeTexts s ⟨.readFailed, text⟩ ↔ rd.buf = [] := by
  have hstored : s.stored ⟨.readFailed, text⟩ = if rd.buf = [] then none else some rd.buf := by
    have hread : s.pasting.textless.cb.reading = some rd := hr
    rw [Transfer.stored, readFailed_cb hread]
    exact readDone_textless s.pasting.cb rd
  have hstep : (s.step ⟨.readFailed, text⟩).pasting.cb = readDone s.pasting.cb rd :=
    readFailed_cb hr
  constructor
  · intro h
    have hnone := (h.kept rfl).1
    rw [hstored] at hnone
    split at hnone
    · assumption
    · cases hnone
  · intro hempty
    apply WholeTexts.idle
    · rw [hstored, if_pos hempty]
    · rw [hstep]
      exact (readDone_empty hempty).changes

theorem wholeTexts_returned_iff (hr : s.pasting.cb.reading = some rd) (hb : bytes ≠ [])
    (hmax : rd.buf.length + bytes.length < clipboardMaxSize) :
    WholeTexts s ⟨.readReturned bytes realloc, text⟩ ↔
      ({ rd with buf := rd.buf ++ bytes }.more realloc).isSome = true := by
  have hcompletes : s.completes ⟨.readReturned bytes realloc, text⟩ = false := by
    rw [Transfer.completes, hr]
    exact decide_eq_false (Nat.not_le.2 hmax)
  have hread : s.pasting.textless.cb.reading = some rd := hr
  have hstored := readReturned_cb hread bytes realloc
  have hstep : (s.step ⟨.readReturned bytes realloc, text⟩).pasting.cb = _ :=
    readReturned_cb hr bytes realloc
  cases hm : Reading.more { rd with buf := rd.buf ++ bytes } realloc with
  | none =>
    rw [readOn_text hm] at hstored
    refine iff_of_false (fun h => ?_) (by decide)
    have hnone := (h.kept hcompletes).1
    rw [Transfer.stored, hstored, readDone_text, if_neg (List.append_ne_nil_of_right_ne_nil _ hb)]
      at hnone
    cases hnone
  | some rd' =>
    rw [readOn_of_more hm] at hstored hstep
    refine iff_of_true (WholeTexts.idle ?_ ?_) rfl
    · rw [Transfer.stored, hstored]
      rfl
    · rw [hstep]

/-- The read that reaches the size limit stores nothing below it. -/
theorem wholeTexts_full (hr : s.pasting.cb.reading = some rd)
    (hmax : clipboardMaxSize ≤ rd.buf.length + bytes.length) :
    WholeTexts s ⟨.readReturned bytes realloc, text⟩ := by
  have hcompletes : s.completes ⟨.readReturned bytes realloc, text⟩ = true := by
    rw [Transfer.completes, hr]
    exact decide_eq_true hmax
  have hfull : clipboardMaxSize ≤ (rd.buf ++ bytes).length := by
    rw [List.length_append]
    exact hmax
  refine ⟨fun h => Bool.noConfusion (hcompletes.symm.trans h), fun t ht hlt => ?_⟩
  have hread : s.pasting.textless.cb.reading = some rd := hr
  have hstored := readReturned_cb hread bytes realloc
  have hleft : Reading.more { rd with buf := rd.buf ++ bytes } realloc = none := if_pos hfull
  rw [readOn_text hleft] at hstored
  rw [Transfer.stored, hstored, readDone_text] at ht
  split at ht
  · cases ht
  · cases ht
    exact absurd hfull (Nat.not_le.2 hlt)

theorem wholeTexts_iff (hi : s.Inv) (he : s.admits e = true) :
    WholeTexts s e ↔ s.uninterrupted e = true := by
  obtain ⟨event, text⟩ := e
  obtain ⟨hpasting, hnext⟩ := Bool.and_eq_true_iff.1 he
  cases event with
  | dispatch event pipe r =>
    have hstored := clipboardDispatch_stored s.pasting.textless.cb event pipe r
    have hstep := clipboardDispatch_stored s.pasting.cb event pipe r
    exact iff_of_true (.idle hstored.text hstep.changes) rfl
  | setText t malloc =>
    have hstored := clipboardSetText_stored s.pasting.textless.cb t malloc
    have hstep := clipboardSetText_stored s.pasting.cb t malloc
    exact iff_of_true (.idle hstored.text hstep.changes) rfl
  | request => exact iff_of_true (.idle rfl rfl) rfl
  | readEnded =>
    obtain ⟨rd, hr⟩ := Option.isSome_iff_exists.1 hpasting
    exact iff_of_true (wholeTexts_ended hi hr (List.isEmpty_iff.1 hnext)) rfl
  | readFailed =>
    obtain ⟨rd, hr⟩ := Option.isSome_iff_exists.1 hpasting
    rw [wholeTexts_failed_iff hr, Transfer.uninterrupted, hr, decide_eq_true_eq]
  | readReturned bytes realloc =>
    obtain ⟨rd, hr, hbytes⟩ := (Option.any_eq_true _ _).1 hpasting
    have hb : bytes ≠ [] := of_decide_eq_true (Bool.and_eq_true_iff.1 hbytes).1
    rw [Transfer.uninterrupted, hr]
    dsimp only
    rcases Nat.lt_or_ge (rd.buf.length + bytes.length) clipboardMaxSize with hmax | hmax
    · rw [wholeTexts_returned_iff hr hb hmax, decide_eq_false (Nat.not_le.2 hmax), Bool.false_or]
    · rw [decide_eq_true hmax, Bool.true_or]
      exact iff_of_true (wholeTexts_full hr hmax) rfl

/-! ### Runs -/

theorem Transfer.Inv.step (hi : s.Inv) (he : s.admits e = true) : (s.step e).Inv := by
  obtain ⟨event, text⟩ := e
  obtain ⟨hpasting, hnext⟩ := Bool.and_eq_true_iff.1 he
  intro rd hread
  cases event with
  | dispatch event pipe r =>
    rcases (clipboardDispatch_stored s.pasting.cb event pipe r).reading rd hread with hr | hstarts
    · rw [Pasting.admits, hr] at hpasting
      cases hpasting
    · rw [hstarts.1]
      rfl
  | setText t malloc => exact hi rd ((clipboardSetText_reading s.pasting.cb t malloc).symm.trans hread)
  | request => exact hi rd hread
  | readEnded =>
    obtain ⟨rd', hr⟩ := Option.isSome_iff_exists.1 hpasting
    have hdone := congrArg Clipboard.reading (readEnded_cb hr)
    rw [readDone_reading] at hdone
    cases hdone.symm.trans hread
  | readFailed =>
    obtain ⟨rd', hr⟩ := Option.isSome_iff_exists.1 hpasting
    have hdone := congrArg Clipboard.reading (readFailed_cb hr)
    rw [readDone_reading] at hdone
    cases hdone.symm.trans hread
  | readReturned bytes realloc =>
    obtain ⟨rd', hr, _⟩ := (Option.any_eq_true _ _).1 hpasting
    have hdone := congrArg Clipboard.reading (readReturned_cb hr bytes realloc)
    obtain ⟨tail, htail⟩ := List.isPrefixOf_iff_prefix.1 hnext
    change rd.buf ++ s.rest.drop bytes.length = s.offered
    rw [← hi rd' hr, ← htail, List.drop_left]
    cases hm : Reading.more { rd' with buf := rd'.buf ++ bytes } realloc with
    | none =>
      rw [readOn_text hm, readDone_reading] at hdone
      cases hdone.symm.trans hread
    | some rd'' =>
      rw [readOn_of_more hm] at hdone
      cases hdone.symm.trans hread
      rw [more_eq hm, List.append_assoc]

/-- The stored texts of a run are whole, exactly if a read fails only before anything was read
and the buffer grows whenever it has to. -/
theorem transfers_whole_iff (hl : transferring.Legal .start es) :
    transferring.Along WholeTexts .start es ↔
      transferring.Along (fun s e => s.uninterrupted e = true) .start es :=
  System.along_congr (I := Transfer.Inv) (fun _ _ hi he => hi.step he)
    (fun _ _ hi he => wholeTexts_iff hi he) nofun hl

/-- A selection with the text `text` is announced, and a transfer of it starts. -/
def transferOf (text : List UInt8) : List TransferEvent :=
  [⟨.dispatch (.dataOffer 0) 0 ⟨true, true, true, 0⟩, []⟩,
    ⟨.dispatch (.offer 0 clipboardMimeType) 0 ⟨true, true, true, 0⟩, []⟩,
    ⟨.dispatch (.selection (some 0)) 0 ⟨true, true, true, 0⟩, text⟩]

/-- The text `hi` arrives in two reads. -/
theorem transfers_whole_iff_split : transferring.Along WholeTexts .start (transferOf [104, 105] ++
    [⟨.readReturned [104] true, []⟩, ⟨.readReturned [105] true, []⟩, ⟨.readEnded, []⟩]) :=
  (transfers_whole_iff (by decide)).2 (by decide)

/-- A signal interrupts the second read: the first byte is stored as if it were the selection. -/
theorem interrupted_transfer_stored :
    let es := transferOf [104, 105] ++ [⟨.readReturned [104] true, []⟩, ⟨.readFailed, []⟩]
    transferring.Legal .start es ∧ ¬ transferring.Along WholeTexts .start es ∧
      (transferring.run .start es).pasting.cb.wlClipboardText = some [104] ∧
      (transferring.run .start es).pasting.cb.changes = [[104]] := by
  refine ⟨by decide, fun h => ?_, by decide, by decide⟩
  obtain ⟨_, _, _, _, hfailed, _⟩ := h
  have hnone := (hfailed.kept (by decide)).1
  revert hnone
  decide

end Wlrdp
