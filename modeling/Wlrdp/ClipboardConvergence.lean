import Wlrdp.ClipboardEchoes
import Wlrdp.CliprdrSemantics

namespace Wlrdp
set_option autoImplicit true
open Unicode

variable {toUtf8 : WideConversion} {toWide : Conversion} {s : CliprdrLink} {cb : Clipboard}

/-! ### Texts in messages -/

theorem wchars_wcharBytes (units : List UInt16) : wchars (units.flatMap wcharBytes) = units := by
  induction units with
  | nil => rfl
  | cons unit units ih =>
    have hunit : unit.toUInt8.toUInt16 + (256 : UInt16) * (unit >>> 8).toUInt8.toUInt16 = unit := by
      have hbound := unit.toNat_lt
      apply UInt16.toNat_inj.1
      simp only [UInt16.toNat_add, UInt16.toNat_mul, UInt8.toNat_toUInt16, UInt16.toNat_toUInt8,
        UInt16.toNat_shiftRight, UInt16.reduceToNat, Nat.shiftRight_eq_div_pow, Nat.reduceMod,
        Nat.reducePow]
      omega
    rw [List.flatMap_cons]
    change (unit.toUInt8.toUInt16 + (256 : UInt16) * (unit >>> 8).toUInt8.toUInt16) ::
      wchars (units.flatMap wcharBytes) = unit :: units
    rw [hunit, ih]

/-- A client reads back a text from its code units with their terminator. -/
theorem readWide_utf16 (hnul : '\x00' ∉ text) :
    readWide ((utf16 text ++ [0]).flatMap wcharBytes) = some text := by
  rw [readWide, wchars_wcharBytes, takeWhile_terminated fun _ hu => utf16_ne_zero hnul hu,
    decode16_utf16]

/-- What the session makes of the client's text. -/
theorem clientFormatData_text (hc : Converts toUtf8 toWide) (hnul : '\x00' ∉ text)
    (hne : text ≠ []) : (clientFormatData (some text)).text toUtf8 = some (utf8 text) := by
  have hunits : wchars ((utf16 text ++ [0]).flatMap wcharBytes) =
      utf16 text ++ List.replicate 1 0 := wchars_wcharBytes _
  have hdata : (utf16 text ++ [0]).flatMap wcharBytes ≠ [] := by
    intro hnil
    rw [hnil] at hunits
    exact List.append_ne_nil_of_right_ne_nil _ (List.cons_ne_nil _ _) hunits.symm
  obtain ⟨m, hconverted⟩ := hc.narrow text hnul 1
  have hsome : utf8 text ++ List.replicate m 0 ≠ [] :=
    List.append_ne_nil_of_left_ne_nil (utf8_ne_nil hne) _
  rw [clientFormatData, ClientFormatData.text, if_neg (not_not_intro rfl)]
  dsimp only
  rw [if_neg hdata, hunits, hconverted]
  dsimp only
  rw [if_neg hsome, rdropWhile_terminators fun _ hb => utf8_ne_zero hnul hb]

/-! ### The text that the session offers -/

/-- As long as the session owns the selection, it offers the same text. -/
def KeepsText (cb cb' : Clipboard) : Prop :=
  cb'.source.isSome = true → cb.source.isSome = true ∧ cb'.pendingSetText = cb.pendingSetText

theorem KeepsText.of_eq (hs : cb'.source = cb.source)
    (hp : cb'.pendingSetText = cb.pendingSetText) :
    KeepsText cb cb' := by
  intro howned
  exact ⟨hs ▸ howned, hp⟩

theorem KeepsText.refl (cb : Clipboard) : KeepsText cb cb := .of_eq rfl rfl

theorem readDone_keeps (cb : Clipboard) (rd : Reading) : KeepsText cb (readDone cb rd) := by
  simp only [readDone]
  split
  · exact .of_eq rfl rfl
  · exact .of_eq rfl rfl

theorem readOn_keeps (cb : Clipboard) (rd : Reading) (realloc : Bool) :
    KeepsText cb (readOn cb rd realloc) := by
  cases hm : rd.more realloc with
  | none =>
    rw [readOn_text hm]
    exact readDone_keeps cb rd
  | some rd' =>
    rw [readOn_of_more hm]
    exact .of_eq rfl rfl

theorem readOfferText_keeps (cb : Clipboard) (offer pipe : Nat) (r : DispatchTurn) :
    KeepsText cb (readOfferText cb offer pipe r) := by
  rw [readOfferText]
  split
  · exact .of_eq rfl rfl
  · exact readOn_keeps (cb.request [.receive offer clipboardMimeType pipe]) _ r.realloc

theorem deviceSelection_keeps (cb : Clipboard) (offer : Option Nat) (pipe : Nat)
    (r : DispatchTurn) : KeepsText cb (deviceSelection cb offer pipe r) := by
  cases offer with
  | none => exact .refl cb
  | some offer =>
    simp only [deviceSelection]
    split
    · exact .of_eq rfl rfl
    split
    · exact readOfferText_keeps cb offer pipe r
    · exact .of_eq rfl rfl

/-- Only when its source is cancelled does an event take the text from the session. -/
theorem clipboardDispatch_keeps (cb : Clipboard) (event : WlEvent) (pipe : Nat)
    (r : DispatchTurn) : KeepsText cb (clipboardDispatch cb event pipe r) := by
  have hdevice {cb' : Clipboard} (h : KeepsText cb cb') :
      KeepsText cb (if cb.device then cb' else cb) := by
    split
    · exact h
    · exact .refl cb
  cases event with
  | dataOffer offer =>
    apply hdevice
    rw [deviceDataOffer]
    split
    · exact .refl cb
    · exact .of_eq rfl rfl
  | offer offer mimeType =>
    rw [clipboardDispatch, offerOffer]
    split
    · exact .of_eq rfl rfl
    · exact .refl cb
  | selection offer => exact hdevice (deviceSelection_keeps cb offer pipe r)
  | primarySelection offer =>
    apply hdevice
    cases offer with
    | none => exact .refl cb
    | some offer => exact .of_eq rfl rfl
  | finished => exact hdevice (.of_eq rfl rfl)
  | send => exact .refl cb
  | cancelled source =>
    rw [clipboardDispatch]
    split
    · next hsource =>
      intro howned
      rw [sourceCancelled, if_pos hsource] at howned
      cases howned
    · exact .refl cb

theorem pasting_keeps {p : Pasting} (hway : e.fromWayland = true) (he : p.admits e = true) :
    KeepsText p.cb (p.step e).cb := by
  cases e with
  | dispatch event pipe r => exact clipboardDispatch_keeps p.cb event pipe r
  | setText | request => cases hway
  | readReturned bytes realloc =>
    obtain ⟨rd, hr, _⟩ := (Option.any_eq_true _ _).1 he
    rw [readReturned_cb hr]
    exact readOn_keeps { p.cb with reading := none } _ realloc
  | readEnded =>
    obtain ⟨rd, hr⟩ := Option.isSome_iff_exists.1 he
    rw [readEnded_cb hr]
    exact readDone_keeps p.cb rd
  | readFailed =>
    obtain ⟨rd, hr⟩ := Option.isSome_iff_exists.1 he
    rw [readFailed_cb hr]
    exact readDone_keeps p.cb rd

/-- A text that can be set is offered. -/
theorem clipboardSetText_pending (hset : (cb.dcm && cb.device && malloc) = true) :
    (clipboardSetText cb text malloc).pendingSetText = some text := by
  simp only [Bool.and_eq_true] at hset
  obtain ⟨⟨hdcm, hdevice⟩, rfl⟩ := hset
  rw [clipboardSetText, hdcm, hdevice]
  rfl

/-! ### Convergence -/

/-- The session has still to hear of the text on the client's clipboard, or to be answered. -/
def CliprdrLink.owed (s : CliprdrLink) : Prop :=
  (∃ formatIds, .formatList formatIds ∈ s.toServer ∧ formatIds.any isTextFormat = true) ∨
    ∃ formatId, .formatDataRequest formatId ∈ s.toClient

/-- The texts that the messages of the client set. -/
def ClientMessage.text (toUtf8 : WideConversion) : ClientMessage → Option (List UInt8)
  | .formatDataResponse resp => resp.text toUtf8
  | _ => none

/-- The texts that were set, and those that will be. -/
def CliprdrLink.texts (toUtf8 : WideConversion) (s : CliprdrLink) : List (List UInt8) :=
  s.selected ++ s.toServer.filterMap (ClientMessage.text toUtf8)

structure CliprdrLink.Inv (toUtf8 : WideConversion) (s : CliprdrLink) : Prop where
  converges : ∀ t, s.client = some t → '\x00' ∉ t → t ≠ [] →
    s.owed ∨ (s.texts toUtf8).getLast? = some (utf8 t)
  offered : ∀ text, s.selected.getLast? = some text → s.pasting.cb.source.isSome = true →
    s.pasting.cb.pendingSetText = some text

namespace CliprdrLink.Inv

theorem start : CliprdrLink.start.Inv toUtf8 := ⟨nofun, nofun⟩

/-- The client's part of the invariant, when what was owed is still owed. -/
theorem keep {s' : CliprdrLink} (h : s.Inv toUtf8) (hclient : s'.client = s.client)
    (howed : s.owed → s'.owed) (htexts : s'.texts toUtf8 = s.texts toUtf8) :
    ∀ t, s'.client = some t → '\x00' ∉ t → t ≠ [] →
      s'.owed ∨ (s'.texts toUtf8).getLast? = some (utf8 t) := by
  intro t ht hnul hne
  rw [htexts]
  exact (h.converges t (hclient ▸ ht) hnul hne).imp_left howed

theorem copies (h : s.Inv toUtf8) (he : text.isSome = formatIds.any isTextFormat) :
    (s.step toUtf8 toWide (.copies formatIds text)).Inv toUtf8 := by
  refine ⟨fun t ht _ _ => .inl (.inl ⟨formatIds, ?_, ?_⟩), h.offered⟩
  · exact List.mem_append_right _ List.mem_cons_self
  · change text = some t at ht
    rw [← he, ht]
    rfl

theorem pastes (h : s.Inv toUtf8) (formatId : UInt32) :
    (s.step toUtf8 toWide (.pastes formatId)).Inv toUtf8 := by
  refine ⟨h.keep rfl ?_ ?_, h.offered⟩
  · rintro (⟨formatIds, hmem, htext⟩ | howed)
    · exact .inl ⟨formatIds, List.mem_append_left _ hmem, htext⟩
    · exact .inr howed
  · change s.selected ++ (s.toServer ++ [_]).filterMap _ = _
    rw [List.filterMap_append]
    exact congrArg _ (List.append_nil _)

theorem wayland (h : s.Inv toUtf8) (hway : e.fromWayland = true)
    (he : s.pasting.admits e = true) (active : Bool) :
    (s.step toUtf8 toWide (.wayland e active)).Inv toUtf8 := by
  refine ⟨h.keep rfl ?_ rfl, fun text htext howned => ?_⟩
  · rintro (howed | ⟨formatId, hmem⟩)
    · exact .inl howed
    · exact .inr ⟨formatId, List.mem_append_left _ hmem⟩
  · obtain ⟨hbefore, hsame⟩ := pasting_keeps hway he howned
    exact hsame.trans (h.offered text htext hbefore)

/-- The client answers with what it holds now, behind everything it has sent before. -/
theorem clientHandles (hc : Converts toUtf8 toWide) (h : s.Inv toUtf8) :
    (s.step toUtf8 toWide .clientHandles).Inv toUtf8 := by
  rw [CliprdrLink.step]
  cases hto : s.toClient with
  | nil => exact h
  | cons message rest =>
    have hkeep {s' : CliprdrLink} (hclient : s'.client = s.client)
        (hserver : s'.toServer = s.toServer)
        (hrest : s'.toClient = rest) (hselected : s'.selected = s.selected)
        (hmessage : ∀ formatId, message ≠ .formatDataRequest formatId) :
        ∀ t, s'.client = some t → '\x00' ∉ t → t ≠ [] →
          s'.owed ∨ (s'.texts toUtf8).getLast? = some (utf8 t) := by
      apply h.keep hclient
      · rintro (⟨formatIds, hmem, htext⟩ | ⟨formatId, hmem⟩)
        · exact .inl ⟨formatIds, hserver ▸ hmem, htext⟩
        · rw [hto] at hmem
          rcases List.mem_cons.1 hmem with heq | hmem
          · exact absurd heq.symm (hmessage formatId)
          · exact .inr ⟨formatId, hrest ▸ hmem⟩
      · rw [CliprdrLink.texts, hselected, hserver]
        rfl
    cases message with
    | formatListResponse => exact ⟨hkeep rfl rfl rfl rfl nofun, h.offered⟩
    | formatDataResponse resp => exact ⟨hkeep rfl rfl rfl rfl nofun, h.offered⟩
    | formatList formatIds =>
      refine ⟨fun t ht => ?_, h.offered⟩
      cases ht
    | formatDataRequest formatId =>
      refine ⟨fun t ht hnul hne => .inr ?_, h.offered⟩
      change s.client = some t at ht
      change (s.selected ++ (s.toServer ++ [ClientMessage.formatDataResponse
        (clientFormatData s.client)]).filterMap (ClientMessage.text toUtf8)).getLast? = _
      have hanswer : [ClientMessage.formatDataResponse (clientFormatData s.client)].filterMap
          (ClientMessage.text toUtf8) = [utf8 t] := by
        rw [ht]
        exact List.filterMap_cons_some (clientFormatData_text hc hnul hne)
      rw [List.filterMap_append, hanswer, ← List.append_assoc, List.getLast?_concat]

theorem serverHandles (h : s.Inv toUtf8) (hset : s.sets malloc = true) :
    (s.step toUtf8 toWide (.serverHandles malloc)).Inv toUtf8 := by
  rw [CliprdrLink.step]
  cases hto : s.toServer with
  | nil => exact h
  | cons message rest =>
    have htexts : s.texts toUtf8 =
        s.selected ++
          ((message.text toUtf8).toList ++ rest.filterMap (ClientMessage.text toUtf8)) := by
      rw [CliprdrLink.texts, hto]
      cases hm : message.text toUtf8 with
      | none => rw [List.filterMap_cons_none hm]; rfl
      | some text => rw [List.filterMap_cons_some hm]; rfl
    cases message with
    | formatList formatIds =>
      refine ⟨h.keep rfl ?_ htexts.symm, h.offered⟩
      rintro (⟨ids, hmem, htext⟩ | ⟨formatId, hmem⟩)
      · rw [hto] at hmem
        rcases List.mem_cons.1 hmem with heq | hmem
        · cases heq
          refine .inr ⟨cfUnicodeText, List.mem_append_right _ ?_⟩
          rw [onCliprdrClientFormatList, if_pos htext]
          exact List.mem_cons_of_mem _ List.mem_cons_self
        · exact .inl ⟨ids, hmem, htext⟩
      · exact .inr ⟨formatId, List.mem_append_left _ hmem⟩
    | formatDataRequest requested =>
      refine ⟨h.keep rfl ?_ htexts.symm, h.offered⟩
      rintro (⟨ids, hmem, htext⟩ | ⟨formatId, hmem⟩)
      · rw [hto] at hmem
        exact .inl ⟨ids, (List.mem_cons.1 hmem).resolve_left nofun, htext⟩
      · exact .inr ⟨formatId, List.mem_append_left _ hmem⟩
    | formatDataResponse resp =>
      have howed {s' : CliprdrLink} (hserver : s'.toServer = rest)
          (hclient : s'.toClient = s.toClient) :
          s.owed → s'.owed := by
        rintro (⟨ids, hmem, htext⟩ | howed)
        · rw [hto] at hmem
          exact .inl ⟨ids, hserver ▸ (List.mem_cons.1 hmem).resolve_left nofun, htext⟩
        · exact .inr (hclient ▸ howed)
      have hset' : CliprdrLink.sets { s with toServer := rest } malloc = true := hset
      dsimp only [CliprdrLink.serve]
      rw [if_pos hset', onCliprdrClientFormatDataResponse]
      cases ht : resp.text toUtf8 with
      | none =>
        have hsame : s.texts toUtf8 = s.selected ++ rest.filterMap (ClientMessage.text toUtf8) := by
          rw [htexts, ClientMessage.text, ht]
          rfl
        refine ⟨h.keep rfl (howed rfl rfl) ?_, fun text hlast => ?_⟩
        · rw [hsame, CliprdrLink.texts]
          exact congrArg (· ++ _) (List.append_nil _)
        · apply h.offered
          rw [← hlast]
          exact congrArg List.getLast? (List.append_nil _).symm
      | some text =>
        have hsame : s.texts toUtf8 =
            s.selected ++ [text] ++ rest.filterMap (ClientMessage.text toUtf8) := by
          rw [htexts, ClientMessage.text, ht, List.append_assoc]
          rfl
        refine ⟨h.keep rfl (howed rfl rfl) hsame.symm, fun text' hlast _ => ?_⟩
        change (s.selected ++ [text]).getLast? = some text' at hlast
        rw [List.getLast?_concat] at hlast
        cases hlast
        exact clipboardSetText_pending hset

theorem step (hc : Converts toUtf8 toWide) (h : s.Inv toUtf8) (he : s.admits e = true)
    (hr : s.reliable e = true) : (s.step toUtf8 toWide e).Inv toUtf8 := by
  cases e with
  | copies => exact h.copies (of_decide_eq_true he)
  | pastes formatId => exact h.pastes formatId
  | serverHandles => exact h.serverHandles hr
  | clientHandles => exact clientHandles hc h
  | wayland event active =>
    obtain ⟨hway, hadmits⟩ := Bool.and_eq_true_iff.1 he
    exact h.wayland hway hadmits active

end CliprdrLink.Inv

/-! ### The conversions as they are documented -/

/-- A conversion of valid texts, up to the first terminator. -/
def documentedToUtf8 : WideConversion := fun units =>
  (decode16 (units.takeWhile fun unit => decide (unit ≠ 0))).map utf8

def documentedToWide : Conversion := fun bytes =>
  (bytes.takeWhile fun b => decide (b ≠ 0)).toByteArray.utf8Decode?.map
    fun text => utf16 text.toList

theorem takeWhile_all {α : Type} [DecidableEq α] {z : α} {l : List α} (h : ∀ x ∈ l, x ≠ z) :
    l.takeWhile (fun x => decide (x ≠ z)) = l := by
  apply List.takeWhile_eq_self_iff.2
  intro x hx
  exact decide_eq_true (h x hx)

theorem converts_documented : Converts documentedToUtf8 documentedToWide := by
  refine ⟨fun text hnul n => ⟨0, ?_⟩, fun text hnul => ?_⟩
  · have hunits : ∀ unit ∈ utf16 text, unit ≠ 0 := fun _ hu => utf16_ne_zero hnul hu
    have htaken : (utf16 text ++ List.replicate n 0).takeWhile
        (fun unit => decide (unit ≠ 0)) = utf16 text := by
      cases n with
      | zero => rw [List.replicate_zero, List.append_nil, takeWhile_all hunits]
      | succ n => rw [List.replicate_succ, takeWhile_terminated hunits]
    rw [documentedToUtf8, htaken, decode16_utf16, List.replicate_zero, List.append_nil]
    rfl
  · have hdecoded : (utf8 text).toByteArray.utf8Decode? = some text.toArray :=
      List.utf8Decode?_utf8Encode
    rw [documentedToWide, takeWhile_all fun _ hb => utf8_ne_zero hnul hb, hdecoded]
    rfl

/-! ### Whole texts in both directions -/

/-- What a client copied reaches every application that pastes it: when the messages of a channel
have been handled, whatever was copied in between and however the transfer is split. -/
theorem copies_converge (hc : Converts toUtf8 toWide)
    (hl : (cliprdrLink toUtf8 toWide).Legal .start es)
    (hr : (cliprdrLink toUtf8 toWide).Along (fun s e => s.reliable e = true) .start es)
    (hsettled : ((cliprdrLink toUtf8 toWide).run .start es).settled = true)
    (hclient : ((cliprdrLink toUtf8 toWide).run .start es).client = some text)
    (hnul : '\x00' ∉ text) (hne : text ≠ [])
    (howned : ((cliprdrLink toUtf8 toWide).run .start es).pasting.cb.source.isSome = true)
    (hpipe : r.pipe2 = true) (hrealloc : r.realloc = true)
    (hf : splitting.Legal
      (.start ((cliprdrLink toUtf8 toWide).run .start es).pasting.cb reader offer pipe r) fs)
    (hclosed : (splitting.run
      (.start ((cliprdrLink toUtf8 toWide).run .start es).pasting.cb reader offer pipe r)
        fs).closed = true) :
    (splitting.run
      (.start ((cliprdrLink toUtf8 toWide).run .start es).pasting.cb reader offer pipe r) fs).sent =
        utf8 text := by
  have hinv : ((cliprdrLink toUtf8 toWide).run .start es).Inv toUtf8 :=
    (System.always_of_step (I := CliprdrLink.Inv toUtf8) (fun _ _ h he => h.step hc he.1 he.2)
      .start (hl.and hr)).last
  generalize (cliprdrLink toUtf8 toWide).run .start es = s at *
  obtain ⟨hserver, hto⟩ := Bool.and_eq_true_iff.1 hsettled
  rw [List.isEmpty_iff] at hserver hto
  have hlast : s.selected.getLast? = some (utf8 text) := by
    rcases hinv.converges text hclient hnul hne with (⟨ids, hmem, _⟩ | ⟨formatId, hmem⟩) | htexts
    · rw [hserver] at hmem
      cases hmem
    · rw [hto] at hmem
      cases hmem
    · rw [CliprdrLink.texts, hserver, List.filterMap_nil, List.append_nil] at htexts
      exact htexts
  have hpending := hinv.offered _ hlast howned
  have hsplit : (splitting.run (.start s.pasting.cb reader offer pipe r) fs).Inv (utf8 text) :=
    (System.always_of_legal (I := SplitTransfer.Inv (utf8 text))
      (fun _ _ h he => h.step (utf8_ne_nil hne) he) (.start hpending hpipe hrealloc) hf).last
  rw [hsplit.sent, hsplit.closed hclosed, List.take_length]

/-- The client copies twice before the session asks for the first text. -/
def copiedTwice : List CliprdrEvent :=
  [.copies [13] (some ['a']), .serverHandles true, .copies [1, 13] (some ['é']), .clientHandles,
    .clientHandles, .serverHandles true, .serverHandles true, .clientHandles, .clientHandles,
    .serverHandles true]

theorem copies_converge_crossing :
    (splitting.run (.start ((cliprdrLink documentedToUtf8 documentedToWide).run .start
      copiedTwice).pasting.cb .init 0 0 ⟨true, true, true, 0⟩) [.wrote 1, .wrote 1, .closes]).sent =
        utf8 ['é'] := by
  apply copies_converge converts_documented <;> decide

/-- An offer is delivered that may be read. -/
def PasteEvent.selects : PasteEvent → Bool
  | .dispatch (.selection (some _)) _ _ => true
  | _ => false

/-- The session is not reading and holds the text. -/
structure Pasting.HoldsText (text : List UInt8) (p : Pasting) : Prop where
  idle : p.cb.reading = none
  stored : p.cb.wlClipboardText = some text

theorem Pasting.HoldsText.step {p : Pasting} (h : p.HoldsText text) (he : p.admits e = true)
    (hs : e.selects = false) : (p.step e).HoldsText text := by
  cases e with
  | dispatch event pipe r =>
    refine ⟨?_, (clipboardDispatch_stored p.cb event pipe r).text.trans h.stored⟩
    change (clipboardDispatch p.cb event pipe r).reading = none
    cases clipboardDispatch_dispatched p.cb event pipe r with
    | kept _ _ _ hr => exact hr.trans h.idle
    | began _ _ _ _ hevent => rw [hevent] at hs; cases hs
    | ended _ _ hr => exact hr
    | cancelled _ _ _ hr => exact hr.trans h.idle
  | setText t malloc =>
    obtain ⟨_, _, _, _, _, hset⟩ := clipboardSetText_frame p.cb t malloc
    refine ⟨?_, ?_⟩
    · change (clipboardSetText p.cb t malloc).reading = none
      rw [hset]
      exact h.idle
    · exact (clipboardSetText_stored p.cb t malloc).text.trans h.stored
  | request => exact h
  | readReturned | readEnded | readFailed =>
    rw [Pasting.admits, h.idle] at he
    cases he

/-- The answer with a converted text. -/
theorem response_wide (hc : Converts toUtf8 toWide) (hnul : '\x00' ∉ text) (hne : text ≠ [])
    (hstored : cb.wlClipboardText = some (utf8 text)) :
    onCliprdrClientFormatDataRequest cb cfUnicodeText toWide =
      ⟨true, (((utf16 text).length + 1) * 2).toUInt32, .wide (utf16 text)⟩ := by
  rw [onCliprdrClientFormatDataRequest, hstored]
  dsimp only
  rw [if_neg (utf8_ne_nil hne), if_pos rfl, hc.wide text hnul]

/-- What an application copied reaches the client whenever it pastes, until another offer is
delivered: however the transfer was split, and whatever happens in between. -/
theorem wayland_text_pasted (hc : Converts toUtf8 toWide) (hnul : '\x00' ∉ text) (hne : text ≠ [])
    (hmax : (utf8 text).length ≤ clipboardMaxSize)
    (htext : sender.pendingSetText = some (utf8 text)) (hpipe : r.pipe2 = true)
    (hrealloc : r.realloc = true) (hl : splitting.Legal (.start sender cb offer pipe r) es)
    (hdone : (splitting.run (.start sender cb offer pipe r) es).cb.reading = none)
    (hf : pasting.Legal ⟨(splitting.run (.start sender cb offer pipe r) es).cb, latest⟩ fs)
    (hfs : ∀ e ∈ fs, e.selects = false) :
    let resp := onCliprdrClientFormatDataRequest
      (pasting.run ⟨(splitting.run (.start sender cb offer pipe r) es).cb, latest⟩ fs).cb
      cfUnicodeText toWide
    resp.ok = true ∧ resp.payload = (utf16 text ++ [0]).flatMap wcharBytes ∧
      readWide resp.payload = some text ∧ resp.dataLen.toNat = resp.payload.length := by
  have hsplit : (splitting.run (.start sender cb offer pipe r) es).Inv (utf8 text) :=
    (System.always_of_legal (I := SplitTransfer.Inv (utf8 text))
      (fun _ _ h he => h.step (utf8_ne_nil hne) he) (.start htext hpipe hrealloc) hl).last
  have hheld : Pasting.HoldsText (utf8 text)
      ⟨(splitting.run (.start sender cb offer pipe r) es).cb, latest⟩ := by
    refine ⟨hdone, (hsplit.stored hdone).trans ?_⟩
    rw [List.take_of_length_le hmax]
  have hend := (System.always_of_step (I := Pasting.HoldsText (utf8 text))
    (fun _ _ h he => h.step he.1 he.2) hheld (hf.and (System.along_of_forall hfs))).last
  have hlength := utf16_length_le text
  have hsize : (((utf16 text).length + 1) * 2).toUInt32.toNat = ((utf16 text).length + 1) * 2 := by
    apply Nat.mod_eq_of_lt
    rw [clipboardMaxSize] at hmax
    omega
  intro resp
  have hresp : resp = _ := response_wide hc hnul hne hend.stored
  rw [hresp]
  refine ⟨rfl, rfl, readWide_utf16 hnul, ?_⟩
  rw [hsize, FormatDataResponse.payload, wcharBytes_length, List.length_append]
  rfl

/-- The text is written and read byte by byte, and the client copies one of its own. -/
theorem wayland_text_pasted_bytes :
    let cb := (splitting.run
      (.start { Clipboard.init with pendingSetText := some (utf8 ['é']) } .init 0 0
        ⟨true, true, true, 0⟩)
      [.wrote 1, .readReturned 1, .wrote 1, .closes, .readReturned 1, .readEnded]).cb
    (onCliprdrClientFormatDataRequest (pasting.run ⟨cb, none⟩ [.setText [120] true]).cb
      cfUnicodeText documentedToWide).payload = [233, 0, 0, 0] := by
  have hl : splitting.Legal
      (.start { Clipboard.init with pendingSetText := some (utf8 ['é']) } .init 0 0
        ⟨true, true, true, 0⟩)
      [.wrote 1, .readReturned 1, .wrote 1, .closes, .readReturned 1, .readEnded] := by decide
  have hnul : '\x00' ∉ ['é'] := by decide
  have hfs : ∀ e ∈ [PasteEvent.setText [120] true], e.selects = false := by
    intro e he
    rw [List.mem_singleton.1 he]
    rfl
  have hf : pasting.Legal ⟨(splitting.run
      (.start { Clipboard.init with pendingSetText := some (utf8 ['é']) } .init 0 0
        ⟨true, true, true, 0⟩)
      [.wrote 1, .readReturned 1, .wrote 1, .closes, .readReturned 1, .readEnded]).cb, none⟩
      [.setText [120] true] := by decide
  have h := wayland_text_pasted converts_documented hnul (by decide) (by decide) rfl rfl rfl hl
    rfl hf hfs
  exact h.2.1.trans (by decide)

end Wlrdp
