import Wlrdp.Allocations
import Wlrdp.ClipboardFreshness

namespace Wlrdp
set_option autoImplicit true

/-! ### The memory behind the texts -/

/-- The clipboard with the allocations of `wl_clipboard_text` and of `buf` in `read_offer_text`. -/
structure TextMemory where
  pasting : Pasting
  text : List (Cell UInt8)
  buf : List (Cell UInt8)

/-- An event with what the memory contains that is allocated in it. -/
structure MemoryEvent where
  event : PasteEvent
  fresh : Nat → UInt8

namespace TextMemory

def start : TextMemory := ⟨.start, [], []⟩

/-- `buf` after the `read`, if the event is one. -/
def bufRead (s : TextMemory) (e : MemoryEvent) : List (Cell UInt8) :=
  match e.event, s.pasting.cb.reading with
  | .readReturned bytes _, some rd => storeAt s.buf rd.buf.length bytes
  | _, _ => s.buf

/-- The bytes of which `total` is the number. -/
def bytesRead (s : TextMemory) (e : MemoryEvent) : List UInt8 :=
  match e.event, s.pasting.cb.reading with
  | .readReturned bytes _, some rd => rd.buf ++ bytes
  | _, some rd => rd.buf
  | _, none => []

/-- The loop goes on with a buffer of the new capacity, or it is left and the buffer becomes the
text, without another `realloc`. -/
def proceed (s : TextMemory) (pasting : Pasting) (buf : List (Cell UInt8)) (bytes : List UInt8)
    (fresh : Nat → UInt8) : TextMemory :=
  match pasting.cb.reading with
  | some rd => ⟨pasting, s.text, reallocate buf rd.capacity fresh⟩
  | none => ⟨pasting, if bytes = [] then s.text else buf, []⟩

def step (s : TextMemory) (e : MemoryEvent) : TextMemory :=
  s.proceed (s.pasting.step e.event) (s.bufRead e) (s.bytesRead e) e.fresh

end TextMemory

def textMemory : System TextMemory MemoryEvent :=
  ⟨fun s e => pasting.enabled s.pasting e.event, TextMemory.step⟩

instance (s : TextMemory) (e : MemoryEvent) : Decidable (textMemory.enabled s e) :=
  inferInstanceAs (Decidable (pasting.enabled s.pasting e.event))

/-- A `WCHAR` in memory. -/
def wcharBytes (unit : UInt16) : List UInt8 := [unit.toUInt8, (unit >>> 8).toUInt8]

/-- What the response is about: the text or its conversion, with a terminator. -/
def FormatDataResponse.payload (resp : FormatDataResponse) : List UInt8 :=
  match resp.requestedFormatData with
  | .null => []
  | .wide units => (units ++ [0]).flatMap wcharBytes
  | .narrow bytes => bytes ++ [0]

/-- The memory that the response points to. A conversion comes with its terminator, and the
stored text as `read_offer_text` has left it. -/
def FormatDataResponse.memory (resp : FormatDataResponse) (text : List (Cell UInt8)) :
    List (Cell UInt8) :=
  match resp.requestedFormatData with
  | .null => []
  | .wide _ => Cell.ofValues resp.payload
  | .narrow _ => text

/-- The bytes handed to `ServerFormatDataResponse`; `none` is one outside of the allocation. -/
def FormatDataResponse.handed (resp : FormatDataResponse) (text : List (Cell UInt8)) :
    List (Option UInt8) :=
  (List.range resp.dataLen.toNat).map fun i => (resp.memory text)[i]?.map Cell.value

/-- Only the payload is handed over, all of it stored by the program, and what the memory behind
the text contains changes nothing. -/
structure FormatDataResponse.Exposes (resp : FormatDataResponse) (text : List (Cell UInt8))
    (wlClipboardLen : Nat) : Prop where
  own : ∀ i < resp.dataLen.toNat, ∃ b, resp.payload[i]? = some b ∧
    (resp.memory text)[i]? = some ⟨b, true⟩
  same : ∀ text', text'.length = text.length →
    text'.take wlClipboardLen = text.take wlClipboardLen → resp.handed text' = resp.handed text

/-- What the clipboard answers to a request exposes only the clipboard. -/
def TextMemory.Exposes (s : TextMemory) (e : MemoryEvent) : Prop :=
  match e.event with
  | .request requestedFormatId convert =>
    (onCliprdrClientFormatDataRequest s.pasting.cb requestedFormatId convert).Exposes s.text
      (s.pasting.cb.wlClipboardText.getD []).length
  | _ => True

/-- The stored text is not requested as `CF_TEXT`. -/
def TextMemory.avoidsText (s : TextMemory) (e : MemoryEvent) : Bool :=
  match e.event with
  | .request requestedFormatId _ =>
    requestedFormatId ≠ cfText || s.pasting.cb.wlClipboardText.isNone
  | _ => true

/-! ### What the allocations hold -/

variable {s : TextMemory} {cb : Clipboard} {rd : Reading}

/-- The buffer of a transfer holds what was read so far. -/
structure HoldsRead (mem : List (Cell UInt8)) (rd : Reading) : Prop where
  holds : Holds mem rd.buf
  length : mem.length = rd.capacity
  capacity : rd.capacity ≤ clipboardMaxSize

structure TextMemory.Inv (s : TextMemory) : Prop where
  reading : ∀ rd, s.pasting.cb.reading = some rd → HoldsRead s.buf rd
  idle : s.pasting.cb.reading = none → s.buf = []
  text : ∀ t, s.pasting.cb.wlClipboardText = some t →
    t ≠ [] ∧ Holds s.text t ∧ s.text.length ≤ clipboardMaxSize

theorem TextMemory.Inv.start : TextMemory.start.Inv := ⟨nofun, fun _ => rfl, nofun⟩

theorem HoldsRead.more (h : HoldsRead mem rd) (hm : rd.more realloc = some rd')
    (fresh : Nat → UInt8) : HoldsRead (reallocate mem rd'.capacity fresh) rd' := by
  have hbuf : rd'.buf = rd.buf := by rw [more_eq hm]
  obtain ⟨hgrows, hmax⟩ := more_capacity hm h.capacity
  refine ⟨?_, reallocate_length .., hmax⟩
  rw [hbuf]
  exact h.holds.reallocate (h.length ▸ hgrows) fresh

theorem HoldsRead.read (h : HoldsRead mem rd) (hroom : rd.buf.length + bytes.length ≤ rd.capacity) :
    HoldsRead (storeAt mem rd.buf.length bytes) { rd with buf := rd.buf ++ bytes } :=
  ⟨h.holds.storeAt, (storeAt_length (h.length ▸ hroom)).trans h.length, h.capacity⟩

theorem proceed_of_none {p : Pasting} (hp : p.cb.reading = none) :
    s.proceed p mem bytes fresh = ⟨p, if bytes = [] then s.text else mem, []⟩ := by
  rw [TextMemory.proceed, hp]

theorem proceed_of_some {p : Pasting} (hp : p.cb.reading = some rd) :
    s.proceed p mem bytes fresh = ⟨p, s.text, reallocate mem rd.capacity fresh⟩ := by
  rw [TextMemory.proceed, hp]

namespace TextMemory.Inv

variable {p : Pasting}

theorem stored (h : s.Inv) (hidle : s.pasting.cb.reading = none)
    (hp : NothingStored s.pasting.cb p.cb) : (s.proceed p s.buf [] fresh).Inv := by
  cases hr : p.cb.reading with
  | none =>
    rw [proceed_of_none hr, if_pos rfl]
    exact ⟨fun rd hrd => (nomatch hr.symm.trans hrd), fun _ => rfl,
      fun t ht => h.text t (hp.text ▸ ht)⟩
  | some rd =>
    rw [proceed_of_some hr]
    refine ⟨fun rd' hrd' => ?_, fun hnone => (nomatch hr.symm.trans hnone),
      fun t ht => h.text t (hp.text ▸ ht)⟩
    cases hr.symm.trans hrd'
    rcases hp.reading rd hr with hsame | ⟨hbuf, hmax⟩
    · cases hidle.symm.trans hsame
    · rw [h.idle hidle]
      refine ⟨?_, reallocate_length .., hmax⟩
      rw [hbuf]
      exact Holds.empty.reallocate (Nat.zero_le _) fresh

theorem done (h : s.Inv) (hb : HoldsRead mem rd)
    (hcb : cb.wlClipboardText = s.pasting.cb.wlClipboardText) (hp : p.cb = readDone cb rd) :
    (s.proceed p mem rd.buf fresh).Inv := by
  have hr : p.cb.reading = none := hp ▸ readDone_reading cb rd
  rw [proceed_of_none hr]
  refine ⟨fun rd hrd => (nomatch hr.symm.trans hrd), fun _ => rfl, fun t ht => ?_⟩
  rw [hp, readDone_text] at ht
  dsimp only
  split at ht
  · next hempty =>
    rw [if_pos hempty]
    exact h.text t (hcb ▸ ht)
  · next hempty =>
    cases ht
    rw [if_neg hempty]
    exact ⟨hempty, hb.holds, hb.length ▸ hb.capacity⟩

theorem on (h : s.Inv) (hb : HoldsRead mem rd)
    (hcb : cb.wlClipboardText = s.pasting.cb.wlClipboardText) (hp : p.cb = readOn cb rd realloc) :
    (s.proceed p mem rd.buf fresh).Inv := by
  cases hm : rd.more realloc with
  | none => exact h.done hb hcb (hp.trans (readOn_text hm))
  | some rd' =>
    rw [readOn_of_more hm] at hp
    have hr : p.cb.reading = some rd' := congrArg Clipboard.reading hp
    rw [proceed_of_some hr]
    refine ⟨fun rd'' hrd => ?_, fun hnone => (nomatch hr.symm.trans hnone), fun t ht => ?_⟩
    · cases hr.symm.trans hrd
      exact hb.more hm fresh
    · rw [hp] at ht
      exact h.text t (hcb ▸ ht)

theorem step (h : s.Inv) (he : s.pasting.admits e.event = true) : (s.step e).Inv := by
  obtain ⟨event, fresh⟩ := e
  cases event with
  | dispatch event pipe r =>
    have hidle := Option.isNone_iff_eq_none.1 he
    have hbytes : s.bytesRead ⟨.dispatch event pipe r, fresh⟩ = [] := by
      rw [TextMemory.bytesRead, hidle]
    rw [TextMemory.step, hbytes]
    exact h.stored hidle (clipboardDispatch_stored s.pasting.cb event pipe r)
  | setText t malloc =>
    have hidle := Option.isNone_iff_eq_none.1 he
    have hbytes : s.bytesRead ⟨.setText t malloc, fresh⟩ = [] := by
      rw [TextMemory.bytesRead, hidle]
    rw [TextMemory.step, hbytes]
    exact h.stored hidle (clipboardSetText_stored s.pasting.cb t malloc)
  | request format convert =>
    cases hr : s.pasting.cb.reading with
    | none =>
      have hbytes : s.bytesRead ⟨.request format convert, fresh⟩ = [] := by
        rw [TextMemory.bytesRead, hr]
      rw [TextMemory.step, hbytes]
      exact h.stored hr (.refl _)
    | some rd =>
      have hread := h.reading rd hr
      have hp : (s.pasting.step (.request format convert)).cb.reading = some rd := hr
      rw [TextMemory.step, proceed_of_some hp]
      change TextMemory.Inv ⟨s.pasting, s.text, reallocate s.buf rd.capacity fresh⟩
      rw [reallocate_of_length hread.length]
      exact h
  | readEnded =>
    obtain ⟨rd, hr⟩ := Option.isSome_iff_exists.1 he
    have hbytes : s.bytesRead ⟨.readEnded, fresh⟩ = rd.buf := by rw [TextMemory.bytesRead, hr]
    rw [TextMemory.step, hbytes]
    exact h.done (h.reading rd hr) rfl (readEnded_cb hr)
  | readFailed =>
    obtain ⟨rd, hr⟩ := Option.isSome_iff_exists.1 he
    have hbytes : s.bytesRead ⟨.readFailed, fresh⟩ = rd.buf := by rw [TextMemory.bytesRead, hr]
    rw [TextMemory.step, hbytes]
    exact h.done (h.reading rd hr) rfl (readFailed_cb hr)
  | readReturned bytes realloc =>
    obtain ⟨rd, hr, hreturned⟩ := (Option.any_eq_true _ _).1 he
    have hroom := of_decide_eq_true (Bool.and_eq_true_iff.1 hreturned).2
    have hbytes : s.bytesRead ⟨.readReturned bytes realloc, fresh⟩ = rd.buf ++ bytes := by
      rw [TextMemory.bytesRead, hr]
    have hmem : s.bufRead ⟨.readReturned bytes realloc, fresh⟩ =
        storeAt s.buf rd.buf.length bytes := by
      rw [TextMemory.bufRead, hr]
    rw [TextMemory.step, hbytes, hmem]
    exact h.on ((h.reading rd hr).read hroom) rfl (readReturned_cb hr bytes realloc)

end TextMemory.Inv

/-! ### What is handed over -/

theorem exposes_fail : FormatDataResponse.fail.Exposes text len :=
  ⟨fun i hi => absurd hi (Nat.not_lt_zero i), fun _ _ _ => rfl⟩

theorem wcharBytes_length (units : List UInt16) :
    (units.flatMap wcharBytes).length = units.length * 2 := by
  induction units with
  | nil => rfl
  | cons unit units ih =>
    rw [List.flatMap_cons, List.length_append, ih, List.length_cons, Nat.succ_mul, Nat.add_comm]
    rfl

theorem exposes_wide (units : List UInt16) :
    FormatDataResponse.Exposes ⟨true, ((units.length + 1) * 2).toUInt32, .wide units⟩ text len := by
  refine ⟨fun i hi => ?_, fun _ _ _ => rfl⟩
  have hlen : ((units.length + 1) * 2).toUInt32.toNat ≤ (units.length + 1) * 2 := Nat.mod_le ..
  have hin : i < (FormatDataResponse.payload
      ⟨true, ((units.length + 1) * 2).toUInt32, .wide units⟩).length := by
    rw [FormatDataResponse.payload, wcharBytes_length, List.length_append]
    exact Nat.lt_of_lt_of_le hi hlen
  refine ⟨_, List.getElem?_eq_getElem hin, ?_⟩
  rw [FormatDataResponse.memory, Cell.ofValues, List.getElem?_map, List.getElem?_eq_getElem hin]
  rfl

/-- The byte behind the stored text is handed over, and nothing was ever stored there. -/
theorem not_exposes_narrow (h : Holds text t) (hmax : t.length ≤ clipboardMaxSize) :
    ¬ FormatDataResponse.Exposes ⟨true, (t.length + 1).toUInt32, .narrow t⟩ text len := by
  intro hexposes
  have hlen : (t.length + 1).toUInt32.toNat = t.length + 1 := by
    apply Nat.mod_eq_of_lt
    rw [clipboardMaxSize] at hmax
    omega
  obtain ⟨b, _, hb⟩ := hexposes.own t.length (Nat.lt_of_lt_of_eq (Nat.lt_succ_self _) hlen.symm)
  cases h.getElem?_length hb

theorem exposes_iff (h : s.Inv) : s.Exposes e ↔ s.avoidsText e = true := by
  obtain ⟨event, fresh⟩ := e
  cases event with
  | request format convert =>
    simp only [TextMemory.Exposes, TextMemory.avoidsText, onCliprdrClientFormatDataRequest]
    cases ht : s.pasting.cb.wlClipboardText with
    | none => exact iff_of_true exposes_fail (Bool.or_true _)
    | some t =>
      obtain ⟨hne, hholds, hmax⟩ := h.text t ht
      dsimp only
      rw [if_neg hne, Option.isNone_some, Bool.or_false, decide_eq_true_eq]
      by_cases hunicode : format = cfUnicodeText
      · rw [if_pos hunicode]
        have hother : format ≠ cfText := by
          rw [hunicode]
          decide
        cases convert t with
        | none => exact iff_of_true exposes_fail hother
        | some units => exact iff_of_true (exposes_wide units) hother
      · rw [if_neg hunicode]
        by_cases hformat : format = cfText
        · rw [if_pos hformat]
          refine iff_of_false (not_exposes_narrow hholds ?_) (fun hother => hother hformat)
          exact Nat.le_trans hholds.length_le hmax
        · rw [if_neg hformat]
          exact iff_of_true exposes_fail hformat
  | _ => exact iff_of_true trivial rfl

/-- The responses of a run expose only the clipboard exactly if no stored text is requested as
`CF_TEXT`. -/
theorem responses_confined_iff (hl : textMemory.Legal .start es) :
    textMemory.Along TextMemory.Exposes .start es ↔
      textMemory.Along (fun s e => s.avoidsText e = true) .start es :=
  System.along_congr (I := TextMemory.Inv) (fun _ _ hi he => hi.step he)
    (fun _ _ hi _ => exposes_iff hi) .start hl

/-- The text `hi` is announced and transferred into memory that contains `x` everywhere. -/
def textRead : List MemoryEvent :=
  selectionRead.map (⟨·, fun _ => 120⟩)

theorem responses_confined_iff_unicode : textMemory.Along TextMemory.Exposes .start
    (textRead ++ [⟨.request cfUnicodeText fun t => some (t.map (·.toUInt16)), fun _ => 0⟩]) :=
  (responses_confined_iff (by decide)).2 (by decide)

/-- The byte behind `hi` is sent to the client as well. -/
theorem byte_behind_text_sent :
    let s := textMemory.run .start textRead
    let resp := onCliprdrClientFormatDataRequest s.pasting.cb cfText fun _ => none
    textMemory.Legal .start (textRead ++ [⟨.request cfText fun _ => none, fun _ => 0⟩]) ∧
      ¬ textMemory.Along TextMemory.Exposes .start
        (textRead ++ [⟨.request cfText fun _ => none, fun _ => 0⟩]) ∧
      resp.handed s.text = [some 104, some 105, some 120] := by
  refine ⟨by decide, fun h => ?_, by decide +kernel⟩
  rw [System.along_append] at h
  obtain ⟨b, _, hstored⟩ := h.2.1.own 2 (by decide)
  have hbehind : (textMemory.run .start textRead).text[2]? = some ⟨120, false⟩ := by decide +kernel
  cases hbehind.symm.trans hstored

end Wlrdp
