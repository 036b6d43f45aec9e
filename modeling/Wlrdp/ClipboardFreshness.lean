import Wlrdp.ClipboardSemantics
import Wlrdp.Histories

namespace Wlrdp
set_option autoImplicit true

/-! ### Format data requests -/

/-- `CF_TEXT`. -/
def cfText : UInt32 := 1

/-- `CF_UNICODETEXT`. -/
def cfUnicodeText : UInt32 := 13

/-- What `requestedFormatData` points to: nothing, a converted text, or the stored text itself. -/
inductive FormatData
  | null
  | wide (units : List UInt16)
  | narrow (bytes : List UInt8)
deriving DecidableEq

/-- `CLIPRDR_FORMAT_DATA_RESPONSE`; `ok` is whether `msgFlags` is `CB_RESPONSE_OK`. -/
structure FormatDataResponse where
  ok : Bool
  dataLen : UInt32
  requestedFormatData : FormatData
deriving DecidableEq

def FormatDataResponse.fail : FormatDataResponse := ⟨false, 0, .null⟩

/-- `ConvertUtf8NToWCharAlloc`: `none` when it fails. -/
abbrev Conversion := List UInt8 → Option (List UInt16)

def onCliprdrClientFormatDataRequest (cb : Clipboard) (requestedFormatId : UInt32)
    (convert : Conversion) : FormatDataResponse :=
  match cb.wlClipboardText with
  | none => .fail
  | some text =>
    if text = [] then .fail
    else if requestedFormatId = cfUnicodeText then
      match convert text with
      | none => .fail
      | some wstr => ⟨true, ((wstr.length + 1) * 2).toUInt32, .wide wstr⟩
    else if requestedFormatId = cfText then ⟨true, (text.length + 1).toUInt32, .narrow text⟩
    else .fail

/-- The response is made from that text. -/
def FormatDataResponse.Carries (resp : FormatDataResponse) (convert : Conversion)
    (text : List UInt8) : Prop :=
  resp.requestedFormatData = .narrow text ∨
    ∃ wstr, convert text = some wstr ∧ resp.requestedFormatData = .wide wstr

/-! ### Selections and requests -/

/-- The clipboard with the text of the selection delivered last, once that is transferred. -/
structure Pasting where
  cb : Clipboard
  latest : Option (List UInt8)

def Pasting.start : Pasting := ⟨.init, none⟩

/-- `readFailed` is a `read` with an error. The events of the compositor, the texts set from RDP
and the requests come in any order, but none of the former during a transfer. -/
inductive PasteEvent
  | dispatch (event : WlEvent) (pipe : Nat) (r : DispatchTurn)
  | setText (text : List UInt8) (malloc : Bool)
  | readReturned (bytes : List UInt8) (realloc : Bool)
  | readEnded
  | readFailed
  | request (requestedFormatId : UInt32) (convert : Conversion)

/-- A transfer is over; `whole` says whether all of it was read, or as much as is kept. -/
def Pasting.transferred (s : Pasting) (buf : List UInt8) (whole : Bool) : Pasting :=
  { s with latest := if whole = true ∧ buf ≠ [] then some buf else none }

def WlEvent.isSelection : WlEvent → Bool
  | .selection _ => true
  | _ => false

def Pasting.step (s : Pasting) : PasteEvent → Pasting
  | .dispatch event pipe r =>
    { s with
      cb := clipboardDispatch s.cb event pipe r
      latest := if s.cb.device && event.isSelection then none else s.latest }
  | .setText text malloc => { s with cb := clipboardSetText s.cb text malloc }
  | .readReturned bytes realloc =>
    match s.cb.reading with
    | none => s
    | some rd =>
      let rd := { rd with buf := rd.buf ++ bytes }
      let s' := { s with cb := readOn { s.cb with reading := none } rd realloc }
      match rd.more realloc with
      | none => s'.transferred rd.buf (clipboardMaxSize ≤ rd.buf.length)
      | some _ => s'
  | .readEnded =>
    match s.cb.reading with
    | none => s
    | some rd => { s with cb := readDone s.cb rd }.transferred rd.buf true
  | .readFailed =>
    match s.cb.reading with
    | none => s
    | some rd => { s with cb := readDone s.cb rd }.transferred rd.buf false
  | .request _ _ => s

def Pasting.admits (s : Pasting) : PasteEvent → Bool
  | .dispatch _ _ _ | .setText _ _ => s.cb.reading.isNone
  | .readReturned bytes _ => s.cb.reading.any fun rd =>
    bytes ≠ [] && rd.buf.length + bytes.length ≤ rd.capacity
  | .readEnded | .readFailed => s.cb.reading.isSome
  | .request _ _ => true

def pasting : System Pasting PasteEvent := ⟨fun s e => s.admits e = true, Pasting.step⟩

instance (s : Pasting) (e : PasteEvent) : Decidable (pasting.enabled s e) :=
  inferInstanceAs (Decidable (s.admits e = true))

/-- A request is answered with the text of the selection delivered last, or it fails. -/
def Pasting.Fresh (s : Pasting) : PasteEvent → Prop
  | .request requestedFormatId convert =>
    (onCliprdrClientFormatDataRequest s.cb requestedFormatId convert).ok = true →
      ∃ text, s.latest = some text ∧
        (onCliprdrClientFormatDataRequest s.cb requestedFormatId convert).Carries convert text
  | _ => True

/-- A text can be sent in that format. -/
def Sendable (requestedFormatId : UInt32) (convert : Conversion) (text : List UInt8) : Prop :=
  requestedFormatId = cfText ∨ requestedFormatId = cfUnicodeText ∧ (convert text).isSome = true

/-! ### Selections, transfers and requests in order -/

/-- What a request depends on: a selection is delivered, and its transfer is over. -/
inductive SelectionEvent
  | delivered
  | transferred (bytes : List UInt8) (whole : Bool)
deriving DecidableEq

def Pasting.happens (s : Pasting) : PasteEvent → List SelectionEvent
  | .dispatch event _ _ => if s.cb.device && event.isSelection then [.delivered] else []
  | .setText _ _ | .request _ _ => []
  | .readReturned bytes realloc =>
    match s.cb.reading with
    | none => []
    | some rd =>
      let rd := { rd with buf := rd.buf ++ bytes }
      match rd.more realloc with
      | none => [.transferred rd.buf (clipboardMaxSize ≤ rd.buf.length)]
      | some _ => []
  | .readEnded =>
    match s.cb.reading with
    | none => []
    | some rd => [.transferred rd.buf true]
  | .readFailed =>
    match s.cb.reading with
    | none => []
    | some rd => [.transferred rd.buf false]

/-- The transfer with these bytes is the last one that yielded any. -/
def LastYield (past : List SelectionEvent) (bytes : List UInt8) : Prop :=
  Since (fun e => ∀ bytes whole, e = .transferred bytes whole → bytes = [])
    (fun _ e => bytes ≠ [] ∧ ∃ whole, e = .transferred bytes whole) past

/-- When bytes can be sent, the last thing that happened to the selections is the transfer that
yielded them, and it was whole: no other selection has been delivered since. -/
def RequestedInTime (past : List SelectionEvent) : PasteEvent → Prop
  | .request requestedFormatId convert => ∀ bytes, LastYield past bytes →
      Sendable requestedFormatId convert bytes → past.getLast? = some (.transferred bytes true)
  | _ => True

/-! ### The stored text -/

variable {s : Pasting} {cb : Clipboard} {rd : Reading}

/-- The session stores what the last transfer yielded. -/
structure Pasting.Inv (s : Pasting) (past : List SelectionEvent) : Prop where
  stored : ∀ text, s.cb.wlClipboardText = some text ↔ LastYield past text
  latest : ∀ text, s.latest = some text ↔
    past.getLast? = some (.transferred text true) ∧ text ≠ []

theorem Pasting.Inv.start : Pasting.start.Inv [] := by
  refine ⟨fun text => ?_, fun text => ?_⟩
  · exact iff_of_false (by rintro ⟨⟩) (not_since_nil _ _)
  · exact iff_of_false (by rintro ⟨⟩) (by rintro ⟨⟨⟩, _⟩)

theorem lastYield_concat : LastYield (past ++ [e]) text ↔
    (text ≠ [] ∧ ∃ whole, e = .transferred text whole) ∨
      LastYield past text ∧ ∀ bytes whole, e = .transferred bytes whole → bytes = [] :=
  since_concat

theorem LastYield.ne_nil (h : LastYield past text) : text ≠ [] := by
  obtain ⟨_, _, _, _, hyield, _⟩ := h
  exact hyield.1

/-- A transfer that was the last thing to happen is the last one that yielded bytes. -/
theorem lastYield_of_getLast (h : past.getLast? = some (.transferred text whole))
    (hne : text ≠ []) : LastYield past text := by
  obtain ⟨before, rfl⟩ := List.getLast?_eq_some_iff.1 h
  exact lastYield_concat.2 (.inl ⟨hne, whole, rfl⟩)

theorem readDone_text (cb : Clipboard) (rd : Reading) :
    (readDone cb rd).wlClipboardText = if rd.buf = [] then cb.wlClipboardText else some rd.buf := by
  simp only [readDone]
  split <;> rfl

theorem readOn_text (h : rd.more realloc = none) : readOn cb rd realloc = readDone cb rd := by
  rw [readOn, h]

/-- Nothing is stored and nobody is notified, and a transfer that starts has nothing in its
buffer. -/
structure NothingStored (cb cb' : Clipboard) : Prop where
  text : cb'.wlClipboardText = cb.wlClipboardText
  changes : cb'.changes = cb.changes
  reading : ∀ rd, cb'.reading = some rd →
    cb.reading = some rd ∨ rd.buf = [] ∧ rd.capacity ≤ clipboardMaxSize

theorem NothingStored.refl (cb : Clipboard) : NothingStored cb cb := ⟨rfl, rfl, fun _ => .inl⟩

theorem readOn_of_more (h : rd.more realloc = some rd') :
    readOn cb rd realloc = { cb with reading := some rd' } := by
  rw [readOn, h]

theorem readDone_empty (h : rd.buf = []) : NothingStored cb (readDone cb rd) := by
  rw [readDone, if_pos h]
  exact ⟨rfl, rfl, nofun⟩

theorem readOfferText_stored (cb : Clipboard) (offer pipe : Nat) (r : DispatchTurn) :
    NothingStored cb (readOfferText cb offer pipe r) := by
  rw [readOfferText]
  split
  · exact ⟨rfl, rfl, fun _ => .inl⟩
  · cases hm : Reading.more ⟨offer, pipe, [], 0⟩ r.realloc with
    | none =>
      have hdone : NothingStored (cb.request [.receive offer clipboardMimeType pipe])
          (readDone _ ⟨offer, pipe, [], 0⟩) := readDone_empty rfl
      rw [readOn_text hm]
      exact ⟨hdone.text, hdone.changes, hdone.reading⟩
    | some rd =>
      rw [readOn_of_more hm]
      refine ⟨rfl, rfl, fun rd' hrd' => .inr ?_⟩
      cases hrd'
      exact ⟨congrArg Reading.buf (more_eq hm), (more_capacity hm (Nat.zero_le _)).2⟩

/-- No event of the compositor stores a text by itself. -/
theorem clipboardDispatch_stored (cb : Clipboard) (event : WlEvent) (pipe : Nat)
    (r : DispatchTurn) : NothingStored cb (clipboardDispatch cb event pipe r) := by
  have hkept {cb' : Clipboard} (htext : cb'.wlClipboardText = cb.wlClipboardText)
      (hchanges : cb'.changes = cb.changes) (hreading : cb'.reading = cb.reading) :
      NothingStored cb cb' := ⟨htext, hchanges, fun rd hrd => .inl (hreading.symm.trans hrd)⟩
  cases event with
  | dataOffer offer =>
    rw [clipboardDispatch, deviceDataOffer]
    split
    · split
      · exact .refl cb
      · exact hkept rfl rfl rfl
    · exact .refl cb
  | offer offer mimeType =>
    rw [clipboardDispatch, offerOffer]
    split
    · exact hkept rfl rfl rfl
    · exact .refl cb
  | selection offer =>
    simp only [clipboardDispatch]
    split
    · cases offer with
      | none => exact .refl cb
      | some offer =>
        simp only [deviceSelection]
        split
        · exact hkept rfl rfl rfl
        · split
          · exact readOfferText_stored cb offer pipe r
          · exact hkept rfl rfl rfl
    · exact .refl cb
  | primarySelection offer =>
    simp only [clipboardDispatch]
    split
    · cases offer with
      | none => exact .refl cb
      | some offer => exact hkept rfl rfl rfl
    · exact .refl cb
  | finished =>
    simp only [clipboardDispatch, deviceFinished]
    split
    · exact hkept rfl rfl rfl
    · exact .refl cb
  | send => exact .refl cb
  | cancelled source =>
    simp only [clipboardDispatch]
    split
    · next hsource =>
      rw [sourceCancelled, if_pos hsource]
      exact hkept rfl rfl rfl
    · exact .refl cb

/-- `clipboard_set_text` changes the source and what is pending for it. -/
theorem clipboardSetText_frame (cb : Clipboard) (text : List UInt8) (malloc : Bool) :
    ∃ source nextSource pending setting requests, clipboardSetText cb text malloc =
      { cb with
        source := source, nextSource := nextSource, pendingSetText := pending
        settingFromRdp := setting, requests := requests } := by
  have hdrop : ∃ source requests, dropSource cb =
      { cb with source := source, requests := requests } := by
    rw [dropSource]
    split
    · exact ⟨_, _, rfl⟩
    · exact ⟨_, _, rfl⟩
  obtain ⟨source, requests, hdrop⟩ := hdrop
  rw [clipboardSetText, hdrop]
  split
  · exact ⟨_, _, _, _, _, rfl⟩
  dsimp only
  split
  · exact ⟨_, _, _, _, _, rfl⟩
  · exact ⟨_, _, _, _, _, rfl⟩

theorem clipboardSetText_stored (cb : Clipboard) (text : List UInt8) (malloc : Bool) :
    NothingStored cb (clipboardSetText cb text malloc) := by
  obtain ⟨_, _, _, _, _, hset⟩ := clipboardSetText_frame cb text malloc
  rw [hset]
  exact ⟨rfl, rfl, fun _ => .inl⟩

theorem readDone_reading (cb : Clipboard) (rd : Reading) : (readDone cb rd).reading = none := by
  rw [readDone]
  split <;> rfl

section Reads

variable {p : Pasting} (hr : p.cb.reading = some rd)
include hr

theorem readEnded_cb : (p.step .readEnded).cb = readDone p.cb rd := by
  rw [Pasting.step, hr]
  rfl

theorem readFailed_cb : (p.step .readFailed).cb = readDone p.cb rd := by
  rw [Pasting.step, hr]
  rfl

theorem readReturned_cb (bytes : List UInt8) (realloc : Bool) :
    (p.step (.readReturned bytes realloc)).cb =
      readOn { p.cb with reading := none } { rd with buf := rd.buf ++ bytes } realloc := by
  rw [Pasting.step, hr]
  dsimp only
  split
  · rfl
  · rfl

end Reads

/-- Neither the stored text nor the selection changes. -/
theorem Pasting.Inv.same (h : s.Inv past) (hc : cb.wlClipboardText = s.cb.wlClipboardText) :
    Pasting.Inv { s with cb := cb } past :=
  ⟨fun text => hc ▸ h.stored text, h.latest⟩

theorem Pasting.Inv.delivered (h : s.Inv past) (hc : cb.wlClipboardText = s.cb.wlClipboardText) :
    Pasting.Inv ⟨cb, none⟩ (past ++ [.delivered]) := by
  refine ⟨fun text => ?_, fun text => ?_⟩
  · change cb.wlClipboardText = some text ↔ _
    rw [lastYield_concat, hc, h.stored]
    constructor
    · exact fun hlast => .inr ⟨hlast, fun _ _ he => by cases he⟩
    · rintro (⟨_, _, he⟩ | ⟨hlast, _⟩)
      · cases he
      · exact hlast
  · rw [List.getLast?_concat]
    exact iff_of_false (by rintro ⟨⟩) (by rintro ⟨⟨⟩, _⟩)

theorem Pasting.Inv.transferred (h : s.Inv past)
    (hc : cb.wlClipboardText = if buf = [] then s.cb.wlClipboardText else some buf) :
    (Pasting.transferred { s with cb := cb } buf whole).Inv (past ++ [.transferred buf whole]) := by
  refine ⟨fun text => ?_, fun text => ?_⟩
  · change cb.wlClipboardText = some text ↔ _
    rw [lastYield_concat, hc]
    by_cases hbuf : buf = []
    · rw [if_pos hbuf, h.stored]
      constructor
      · refine fun hlast => .inr ⟨hlast, fun bytes _ he => ?_⟩
        cases he
        exact hbuf
      · rintro (⟨hne, _, he⟩ | ⟨hlast, _⟩)
        · cases he
          exact absurd hbuf hne
        · exact hlast
    · rw [if_neg hbuf]
      constructor
      · intro htext
        cases htext
        exact .inl ⟨hbuf, whole, rfl⟩
      · rintro (⟨_, _, he⟩ | ⟨_, hnone⟩)
        · cases he
          rfl
        · exact absurd (hnone buf whole rfl) hbuf
  · change (if whole = true ∧ buf ≠ [] then some buf else none) = some text ↔ _
    rw [List.getLast?_concat]
    constructor
    · intro htext
      split at htext
      · next hwhole =>
        cases htext
        rw [hwhole.1]
        exact ⟨rfl, hwhole.2⟩
      · cases htext
    · rintro ⟨heq, hne⟩
      cases heq
      exact if_pos ⟨rfl, hne⟩

theorem Pasting.Inv.step (h : s.Inv past) (e : PasteEvent) :
    (s.step e).Inv (past ++ s.happens e) := by
  cases e with
  | dispatch event pipe r =>
    have hc := (clipboardDispatch_stored s.cb event pipe r).text
    simp only [Pasting.step, Pasting.happens]
    split
    · exact h.delivered hc
    · rw [List.append_nil]
      exact h.same hc
  | setText text malloc =>
    rw [Pasting.happens, List.append_nil]
    exact h.same (clipboardSetText_stored ..).text
  | readReturned bytes realloc =>
    simp only [Pasting.step, Pasting.happens]
    split
    · rw [List.append_nil]
      exact h
    · next rd _ =>
      split
      · next hm =>
        apply h.transferred
        rw [readOn_text hm]
        exact readDone_text ..
      · next hm =>
        rw [List.append_nil, readOn_of_more hm]
        exact h.same rfl
  | readEnded =>
    simp only [Pasting.step, Pasting.happens]
    split
    · rw [List.append_nil]
      exact h
    · exact h.transferred (readDone_text ..)
  | readFailed =>
    simp only [Pasting.step, Pasting.happens]
    split
    · rw [List.append_nil]
      exact h
    · exact h.transferred (readDone_text ..)
  | request =>
    rw [Pasting.happens, List.append_nil]
    exact h

/-! ### Answers -/

theorem response_ok_iff (requestedFormatId : UInt32) (convert : Conversion)
    (hstored : cb.wlClipboardText = stored) (hnil : stored ≠ some []) :
    (onCliprdrClientFormatDataRequest cb requestedFormatId convert).ok = true ↔
      ∃ text, stored = some text ∧ Sendable requestedFormatId convert text := by
  subst hstored
  simp only [onCliprdrClientFormatDataRequest, Sendable]
  cases htext : cb.wlClipboardText with
  | none => exact ⟨nofun, nofun⟩
  | some text =>
    have hne : text ≠ [] := fun h => hnil (by rw [htext, h])
    simp only [if_neg hne, Option.some.injEq, exists_eq_left']
    by_cases hunicode : requestedFormatId = cfUnicodeText
    · rw [if_pos hunicode]
      have hformat : requestedFormatId ≠ cfText := by
        rw [hunicode]
        decide
      cases convert text with
      | none => exact iff_of_false nofun fun h => h.elim hformat fun h => nomatch h.2
      | some wstr => exact iff_of_true rfl (.inr ⟨hunicode, rfl⟩)
    · rw [if_neg hunicode]
      by_cases hformat : requestedFormatId = cfText
      · rw [if_pos hformat]
        exact iff_of_true rfl (.inl hformat)
      · rw [if_neg hformat]
        exact iff_of_false nofun fun h => h.elim hformat fun h => hunicode h.1

/-- What is sent is made from the stored text. -/
theorem response_carries (hstored : cb.wlClipboardText = some text)
    (hok : (onCliprdrClientFormatDataRequest cb requestedFormatId convert).ok = true) :
    (onCliprdrClientFormatDataRequest cb requestedFormatId convert).Carries convert text := by
  rw [onCliprdrClientFormatDataRequest, hstored] at hok ⊢
  dsimp only at hok ⊢
  split at hok
  · cases hok
  · next hne =>
    rw [if_neg hne]
    split at hok
    · next hunicode =>
      rw [if_pos hunicode]
      cases hwide : convert text with
      | none =>
        rw [hwide] at hok
        cases hok
      | some wstr => exact .inr ⟨wstr, hwide, rfl⟩
    · next hunicode =>
      rw [if_neg hunicode]
      split at hok
      · next hformat =>
        rw [if_pos hformat]
        exact .inl rfl
      · cases hok

theorem fresh_iff (h : s.Inv past) : s.Fresh e ↔ RequestedInTime past e := by
  cases e with
  | request requestedFormatId convert =>
    have hnil : s.cb.wlClipboardText ≠ some [] := fun hs => ((h.stored []).1 hs).ne_nil rfl
    have hok := response_ok_iff requestedFormatId convert rfl hnil
    constructor
    · intro hfresh text hlast hsendable
      have hstored := (h.stored text).2 hlast
      obtain ⟨text', hlatest, _⟩ := hfresh (hok.2 ⟨text, hstored, hsendable⟩)
      obtain ⟨hend, hne⟩ := (h.latest text').1 hlatest
      have hstored' := (h.stored text').2 (lastYield_of_getLast hend hne)
      cases hstored.symm.trans hstored'
      exact hend
    · intro hintime hanswered
      obtain ⟨text, hstored, hsendable⟩ := hok.1 hanswered
      have hlast := (h.stored text).1 hstored
      have hend := hintime text hlast hsendable
      exact ⟨text, (h.latest text).2 ⟨hend, hlast.ne_nil⟩, response_carries hstored hanswered⟩
  | _ => exact Iff.rfl

/-- Every request of a run is answered with the text of the selection delivered last exactly if
none comes when another selection has been delivered since the last transfer that yielded bytes,
or when that transfer was broken off. -/
theorem responses_fresh_iff (es : List PasteEvent) :
    pasting.Along Pasting.Fresh .start es ↔
      pasting.AlongPast Pasting.happens RequestedInTime [] .start es := by
  have hany : pasting.Along (fun _ _ => True) .start es :=
    System.along_of_forall fun _ _ => trivial
  have hstep : ∀ (s : Pasting) past e, s.Inv past → True →
      (s.step e).Inv (past ++ s.happens e) := fun _ _ e h _ => h.step e
  constructor
  · exact System.Along.alongPast hstep (fun _ _ _ h _ => (fresh_iff h).1) .start hany
  · exact System.AlongPast.along hstep (fun _ _ _ h _ => (fresh_iff h).2) .start hany

/-! ### A cleared selection -/

/-- A selection with the text `hi` is announced and transferred. -/
def selectionRead : List PasteEvent :=
  [.dispatch (.dataOffer 0) 0 ⟨true, true, true, 0⟩,
    .dispatch (.offer 0 clipboardMimeType) 0 ⟨true, true, true, 0⟩,
    .dispatch (.selection (some 0)) 0 ⟨true, true, true, 0⟩, .readReturned [104, 105] true,
    .readEnded]

/-- The text is pasted once the selection is cleared. -/
theorem cleared_selection_pasted :
    pasting.Legal .start (selectionRead ++
        [.dispatch (.selection none) 0 ⟨true, true, true, 0⟩, .request cfText fun _ => none]) ∧
      ¬ pasting.Along Pasting.Fresh .start (selectionRead ++
        [.dispatch (.selection none) 0 ⟨true, true, true, 0⟩, .request cfText fun _ => none]) := by
  refine ⟨by decide, fun h => ?_⟩
  rw [System.along_append] at h
  obtain ⟨text, hlatest, _⟩ := h.2.2.1 (by decide)
  cases hlatest

end Wlrdp
