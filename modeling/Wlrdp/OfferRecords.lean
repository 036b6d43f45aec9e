import Wlrdp.ClipboardFreshness
import Wlrdp.Ledgers

namespace Wlrdp
set_option autoImplicit true

/-! ### Offers and their records -/

/-- The clipboard with the offer objects that it has not destroyed, those introduced so far, and
the `clipboard_offer` records. A record has the number of its offer. -/
structure OfferTable where
  pasting : Pasting
  offers : List Nat
  introduced : List Nat
  memory : Ledger Nat

/-- `wl_proxy_get_user_data` of the offer is a record. -/
def Clipboard.carries (cb : Clipboard) (offer : Nat) : Bool := (cb.records offer).isSome

namespace OfferTable

def start : OfferTable := ⟨.start, [], [], .empty⟩

/-- `ext_data_control_offer_v1_destroy`. -/
def destroyed (s : OfferTable) (p : Pasting) (offer : Nat) : OfferTable :=
  { s with pasting := p, offers := s.offers.erase offer }

/-- The end of `device_selection`, unless the session is still in `read_offer_text`: the offer is
destroyed and its record freed. -/
def disposed (s : OfferTable) (p : Pasting) (offer : Nat) : OfferTable :=
  if p.cb.reading.isSome then { s with pasting := p }
  else { s.destroyed p offer with memory := s.memory.release offer }

/-- What the handler of an event does to the offers and the records, in the source's order. -/
def dispatched (s : OfferTable) (p : Pasting) (r : DispatchTurn) : WlEvent → OfferTable
  | .dataOffer offer =>
    if !s.pasting.cb.device then { s with pasting := p } else
    { pasting := p
      offers := offer :: s.offers
      introduced := offer :: s.introduced
      memory := if r.calloc then s.memory.acquire offer else s.memory }
  | .offer offer mimeType =>
    { s with
      pasting := p
      memory := if mimeType = clipboardMimeType ∧ s.pasting.cb.carries offer then s.memory.use offer
        else s.memory }
  | .selection (some offer) =>
    if !s.pasting.cb.device then { s with pasting := p } else
    if s.pasting.cb.carries offer then { s with memory := s.memory.use offer }.disposed p offer
    else s.destroyed p offer
  | .primarySelection (some offer) =>
    if !s.pasting.cb.device then { s with pasting := p } else s.destroyed p offer
  | _ => { s with pasting := p }

def step (s : OfferTable) (e : PasteEvent) : OfferTable :=
  match e with
  | .dispatch event _ r => s.dispatched (s.pasting.step e) r event
  | .readReturned _ _ | .readEnded | .readFailed =>
    match s.pasting.cb.reading with
    | none => { s with pasting := s.pasting.step e }
    | some rd => s.disposed (s.pasting.step e) rd.offer
  | .setText _ _ | .request _ _ => { s with pasting := s.pasting.step e }

/-- The events of an offer come once it is introduced and before it is destroyed. -/
def allows (s : OfferTable) : WlEvent → Bool
  | .dataOffer offer => offer ∉ s.introduced
  | .offer offer _ | .selection (some offer) | .primarySelection (some offer) => offer ∈ s.offers
  | _ => true

def admits (s : OfferTable) (e : PasteEvent) : Bool :=
  s.pasting.admits e && match e with
    | .dispatch event _ _ => s.allows event
    | _ => true

/-- The records that are allocated are those of the offers, and none was freed twice or used when
it was freed. -/
def Balanced (s : OfferTable) : Prop := s.memory.Owns (s.offers.filter s.pasting.cb.carries)

/-- The event is no primary selection with an offer that has a record. -/
def frees (s : OfferTable) (e : PasteEvent) : Bool :=
  match e with
  | .dispatch (.primarySelection (some offer)) _ _ =>
    !s.pasting.cb.device || !s.pasting.cb.carries offer
  | _ => true

end OfferTable

def offerTable : System OfferTable PasteEvent := ⟨fun s e => s.admits e = true, OfferTable.step⟩

instance (s : OfferTable) (e : PasteEvent) : Decidable (offerTable.enabled s e) :=
  inferInstanceAs (Decidable (s.admits e = true))

/-! ### What the handlers do to the user data -/

variable {s : OfferTable} {cb cb' : Clipboard} {p : Pasting}

/-- `device_selection` with an offer that has a record: it reads, or it is done with the offer. -/
inductive Handling (cb cb' : Clipboard) (offer : Nat) : Prop
  | reads (rd : Reading) (hreading : cb'.reading = some rd) (hoffer : rd.offer = offer)
      (hrecords : cb'.records = cb.records)
  | done (hreading : cb'.reading = none)
      (hrecords : cb'.records = Function.update cb.records offer none)

theorem Handling.of_records (h : Handling cb cb' offer) (hr : cb.records = cb₀.records) :
    Handling cb₀ cb' offer := by
  cases h with
  | reads rd hreading hoffer hrecords => exact .reads rd hreading hoffer (hrecords.trans hr)
  | done hreading hrecords => exact .done hreading (hr ▸ hrecords)

theorem readDone_handling (cb : Clipboard) (rd : Reading) :
    Handling cb (readDone cb rd) rd.offer := by
  refine .done (readDone_reading cb rd) ?_
  rw [readDone]
  split <;> rfl

theorem readOn_handling (cb : Clipboard) (rd : Reading) (realloc : Bool) :
    Handling cb (readOn cb rd realloc) rd.offer := by
  cases hm : rd.more realloc with
  | none =>
    rw [readOn_text hm]
    exact readDone_handling cb rd
  | some rd' =>
    have hoffer : rd'.offer = rd.offer := by rw [more_eq hm]
    rw [readOn_of_more hm]
    exact .reads rd' rfl hoffer rfl

theorem deviceSelection_handling (hidle : cb.reading = none) (hrecord : cb.records offer = some t)
    (pipe : Nat) (r : DispatchTurn) :
    Handling cb (deviceSelection cb (some offer) pipe r) offer := by
  have hdropped : Handling cb (dropOffer cb offer) offer := .done hidle rfl
  simp only [deviceSelection, hrecord]
  split
  · rw [readOfferText]
    split
    · exact hdropped
    · exact (readOn_handling ..).of_records rfl
  · exact hdropped

/-- The session reads as before, and the same offers have records. -/
structure SameRecords (cb cb' : Clipboard) : Prop where
  reading : cb'.reading = cb.reading
  carries : cb'.carries = cb.carries

theorem SameRecords.refl (cb : Clipboard) : SameRecords cb cb := ⟨rfl, rfl⟩

theorem carries_update (h : cb'.records = Function.update cb.records offer record)
    (ho : o ≠ offer) : cb'.carries o = cb.carries o := by
  rw [Clipboard.carries, h, Function.update_of_ne ho, Clipboard.carries]

theorem carries_update_self (h : cb'.records = Function.update cb.records offer record) :
    cb'.carries offer = record.isSome := by
  rw [Clipboard.carries, h, Function.update_self]

theorem offerOffer_same (cb : Clipboard) (offer : Nat) (mimeType : String) :
    SameRecords cb (offerOffer cb offer mimeType) := by
  rw [offerOffer]
  split
  · next hrecord =>
    refine ⟨rfl, funext fun o => ?_⟩
    by_cases ho : o = offer
    · rw [ho, carries_update_self rfl]
      exact hrecord.2.symm
    · exact carries_update rfl ho
  · exact .refl cb

theorem clipboardSetText_same (cb : Clipboard) (text : List UInt8) (malloc : Bool) :
    SameRecords cb (clipboardSetText cb text malloc) := by
  obtain ⟨_, _, _, _, _, hset⟩ := clipboardSetText_frame cb text malloc
  rw [hset]
  exact ⟨rfl, rfl⟩

/-! ### The invariant -/

/-- Offers are introduced once, and the one that is being read has its record. -/
structure OfferTable.Inv (s : OfferTable) : Prop where
  balanced : s.Balanced
  nodup : s.offers.Nodup
  known : ∀ offer ∈ s.offers, offer ∈ s.introduced
  fresh : ∀ offer, offer ∉ s.introduced → s.pasting.cb.carries offer = false
  reading : ∀ rd, s.pasting.cb.reading = some rd →
    rd.offer ∈ s.offers ∧ s.pasting.cb.carries rd.offer = true

theorem filter_perm_erase {l : List Nat} (P : Nat → Bool) (h : a ∈ l) :
    (l.filter P).Perm ((if P a then [a] else []) ++ (l.erase a).filter P) := by
  have hperm := (List.perm_cons_erase h).filter P
  rw [List.filter_cons] at hperm
  split at hperm
  · next ha =>
    rw [if_pos ha]
    exact hperm
  · next ha =>
    rw [if_neg ha]
    exact hperm

namespace OfferTable.Inv

theorem start : OfferTable.start.Inv :=
  ⟨Ledger.Owns.empty, List.nodup_nil, nofun, fun _ _ => rfl, nofun⟩

theorem same (h : s.Inv) (hp : SameRecords s.pasting.cb p.cb) :
    OfferTable.Inv { s with pasting := p } := by
  refine ⟨?_, h.nodup, h.known, fun offer ho => ?_, fun rd hr => ?_⟩
  · change s.memory.Owns (s.offers.filter p.cb.carries)
    rw [hp.carries]
    exact h.balanced
  · change p.cb.carries offer = false
    rw [hp.carries]
    exact h.fresh offer ho
  · change rd.offer ∈ s.offers ∧ p.cb.carries rd.offer = true
    rw [hp.carries]
    exact h.reading rd (hp.reading ▸ hr)

theorem ignored (h : s.Inv) (hp : p.cb = s.pasting.cb) :
    OfferTable.Inv { s with pasting := p } :=
  h.same (hp ▸ .refl _)

theorem use (h : s.Inv) (ho : offer ∈ s.offers) (hc : s.pasting.cb.carries offer = true) :
    s.memory.use offer = s.memory :=
  h.balanced.use (List.mem_filter.2 ⟨ho, hc⟩)

theorem introduced (h : s.Inv) (hnew : offer ∉ s.introduced) (calloc : Bool)
    (hidle : s.pasting.cb.reading = none)
    (hp : p.cb = Wlrdp.deviceDataOffer s.pasting.cb offer calloc) :
    OfferTable.Inv
      { pasting := p, offers := offer :: s.offers, introduced := offer :: s.introduced
        memory := if calloc then s.memory.acquire offer else s.memory } := by
  have hunknown : offer ∉ s.offers := fun ho => hnew (h.known offer ho)
  have hreading : p.cb.reading = none := by
    rw [hp, Wlrdp.deviceDataOffer]
    split <;> exact hidle
  have hrecords : (Wlrdp.deviceDataOffer s.pasting.cb offer true).records =
      Function.update s.pasting.cb.records offer (some false) := rfl
  have hself : p.cb.carries offer = calloc := by
    rw [hp]
    cases calloc with
    | false => exact h.fresh offer hnew
    | true => exact carries_update_self hrecords
  have hother : ∀ o, o ≠ offer → p.cb.carries o = s.pasting.cb.carries o := by
    intro o ho
    rw [hp]
    cases calloc with
    | false => rfl
    | true => exact carries_update hrecords ho
  have hfilter : s.offers.filter p.cb.carries = s.offers.filter s.pasting.cb.carries :=
    List.filter_congr fun o ho => hother o fun heq => hunknown (heq ▸ ho)
  refine ⟨?_, List.nodup_cons.2 ⟨hunknown, h.nodup⟩, fun o ho => ?_, fun o ho => ?_,
    fun rd hr => ?_⟩
  · have hbalanced : s.memory.Owns ([] ++ s.offers.filter s.pasting.cb.carries) := h.balanced
    change Ledger.Owns _ ((offer :: s.offers).filter p.cb.carries)
    rw [List.filter_cons, hself, hfilter]
    cases calloc with
    | false => exact hbalanced
    | true => exact hbalanced.acquire
  · rcases List.mem_cons.1 ho with rfl | ho
    · exact List.mem_cons_self
    · exact List.mem_cons_of_mem _ (h.known o ho)
  · change o ∉ offer :: s.introduced at ho
    rw [List.mem_cons, not_or] at ho
    exact (hother o ho.1).trans (h.fresh o ho.2)
  · cases hreading.symm.trans hr

theorem destroyed (h : s.Inv) (ho : offer ∈ s.offers) (hc : s.pasting.cb.carries offer = false)
    (hp : SameRecords s.pasting.cb p.cb) : (s.destroyed p offer).Inv := by
  have hperm := filter_perm_erase s.pasting.cb.carries ho
  rw [hc, if_neg Bool.false_ne_true, List.nil_append] at hperm
  refine ⟨?_, h.nodup.erase offer, fun o hmem => h.known o (List.mem_of_mem_erase hmem),
    fun o hmem => ?_, fun rd hr => ?_⟩
  · change s.memory.Owns ((s.offers.erase offer).filter p.cb.carries)
    rw [hp.carries]
    exact ⟨h.balanced.live.trans hperm, h.balanced.faults⟩
  · change p.cb.carries o = false
    rw [hp.carries]
    exact h.fresh o hmem
  · change rd.offer ∈ s.offers.erase offer ∧ p.cb.carries rd.offer = true
    rw [hp.carries]
    obtain ⟨hread, hrecord⟩ := h.reading rd (hp.reading ▸ hr)
    refine ⟨h.nodup.mem_erase_iff.2 ⟨fun heq => ?_, hread⟩, hrecord⟩
    rw [heq, hc] at hrecord
    cases hrecord

theorem disposed (h : s.Inv) (ho : offer ∈ s.offers) (hc : s.pasting.cb.carries offer = true)
    (hh : Handling s.pasting.cb p.cb offer) : (s.disposed p offer).Inv := by
  cases hh with
  | reads rd hreading hoffer hrecords =>
    have hcarries : p.cb.carries = s.pasting.cb.carries :=
      congrArg (fun f o => (f o).isSome) hrecords
    have hkept : s.disposed p offer = { s with pasting := p } := by
      rw [OfferTable.disposed, hreading]
      rfl
    rw [hkept]
    refine ⟨?_, h.nodup, h.known, fun o hmem => ?_, fun rd' hr => ?_⟩
    · change s.memory.Owns (s.offers.filter p.cb.carries)
      rw [hcarries]
      exact h.balanced
    · change p.cb.carries o = false
      rw [hcarries]
      exact h.fresh o hmem
    · change rd'.offer ∈ s.offers ∧ p.cb.carries rd'.offer = true
      cases hreading.symm.trans hr
      rw [hcarries, hoffer]
      exact ⟨ho, hc⟩
  | done hreading hrecords =>
    have hfreed : s.disposed p offer =
        { s.destroyed p offer with memory := s.memory.release offer } := by
      rw [OfferTable.disposed, hreading]
      rfl
    have hfilter : (s.offers.erase offer).filter p.cb.carries =
        (s.offers.erase offer).filter s.pasting.cb.carries :=
      List.filter_congr fun o hmem => carries_update hrecords (h.nodup.mem_erase_iff.1 hmem).1
    have hperm := filter_perm_erase s.pasting.cb.carries ho
    rw [hc, if_pos rfl] at hperm
    rw [hfreed]
    refine ⟨?_, h.nodup.erase offer, fun o hmem => h.known o (List.mem_of_mem_erase hmem),
      fun o hmem => ?_, fun rd hr => ?_⟩
    · have howned : s.memory.Owns ([] ++ offer ::
          (s.offers.erase offer).filter s.pasting.cb.carries) :=
        ⟨h.balanced.live.trans hperm, h.balanced.faults⟩
      change (s.memory.release offer).Owns ((s.offers.erase offer).filter p.cb.carries)
      rw [hfilter]
      exact howned.release
    · change p.cb.carries o = false
      rw [carries_update hrecords fun heq => hmem (heq ▸ h.known offer ho)]
      exact h.fresh o hmem
    · cases hreading.symm.trans hr

end OfferTable.Inv

/-! ### Runs -/

theorem deviceFinished_same (cb : Clipboard) : SameRecords cb (deviceFinished cb) := ⟨rfl, rfl⟩

theorem sourceCancelled_same (cb : Clipboard) (source : Nat) :
    SameRecords cb (sourceCancelled cb source) := by
  rw [sourceCancelled]
  split <;> exact ⟨rfl, rfl⟩

namespace OfferTable.Inv

/-- The offer of a selection is read or destroyed, with its record if it has one. -/
theorem selected (h : s.Inv) (ho : offer ∈ s.offers) (hidle : s.pasting.cb.reading = none)
    (hp : p.cb = Wlrdp.deviceSelection s.pasting.cb (some offer) pipe r) :
    OfferTable.Inv
      (if s.pasting.cb.carries offer then { s with memory := s.memory.use offer }.disposed p offer
        else s.destroyed p offer) := by
  cases hrecord : s.pasting.cb.records offer with
  | none =>
    have hcarries : s.pasting.cb.carries offer = false := by
      rw [Clipboard.carries, hrecord]
      rfl
    have hkept : SameRecords s.pasting.cb p.cb := by
      rw [hp, Wlrdp.deviceSelection, hrecord]
      exact ⟨rfl, rfl⟩
    rw [hcarries]
    exact h.destroyed ho hcarries hkept
  | some hasText =>
    have hcarries : s.pasting.cb.carries offer = true := by
      rw [Clipboard.carries, hrecord]
      rfl
    rw [hcarries, h.use ho hcarries]
    exact h.disposed ho hcarries (hp ▸ deviceSelection_handling hidle hrecord pipe r)

theorem dispatched (h : s.Inv) (hidle : s.pasting.cb.reading = none)
    (hallows : s.allows event = true)
    (hfrees : s.frees (.dispatch event pipe r) = true)
    (hp : p.cb = clipboardDispatch s.pasting.cb event pipe r) : (s.dispatched p r event).Inv := by
  cases event with
  | dataOffer offer =>
    rw [OfferTable.dispatched]
    rw [clipboardDispatch] at hp
    cases hdevice : s.pasting.cb.device with
    | false =>
      rw [hdevice] at hp
      exact h.ignored hp
    | true =>
      rw [hdevice] at hp
      exact h.introduced (of_decide_eq_true hallows) r.calloc hidle hp
  | offer offer mimeType =>
    have hused : (if mimeType = clipboardMimeType ∧ s.pasting.cb.carries offer = true then
        s.memory.use offer else s.memory) = s.memory := by
      split
      · next hrecord => exact h.use (of_decide_eq_true hallows) hrecord.2
      · rfl
    rw [OfferTable.dispatched, hused]
    exact h.same (hp ▸ offerOffer_same ..)
  | selection offer =>
    cases offer with
    | none =>
      rw [clipboardDispatch] at hp
      split at hp
      · exact h.ignored hp
      · exact h.ignored hp
    | some offer =>
      rw [OfferTable.dispatched]
      rw [clipboardDispatch] at hp
      cases hdevice : s.pasting.cb.device with
      | false =>
        rw [hdevice] at hp
        exact h.ignored hp
      | true =>
        rw [hdevice, if_pos rfl] at hp
        exact h.selected (of_decide_eq_true hallows) hidle hp
  | primarySelection offer =>
    cases offer with
    | none =>
      rw [clipboardDispatch] at hp
      split at hp
      · exact h.ignored hp
      · exact h.ignored hp
    | some offer =>
      rw [OfferTable.dispatched]
      rw [clipboardDispatch] at hp
      cases hdevice : s.pasting.cb.device with
      | false =>
        rw [hdevice] at hp
        exact h.ignored hp
      | true =>
        rw [hdevice, if_pos rfl] at hp
        have hkept : SameRecords s.pasting.cb p.cb := hp ▸ ⟨rfl, rfl⟩
        simp only [OfferTable.frees, hdevice, Bool.not_true, Bool.false_or, Bool.not_eq_true'] at hfrees
        exact h.destroyed (of_decide_eq_true hallows) hfrees hkept
  | finished =>
    rw [clipboardDispatch] at hp
    split at hp
    · exact h.same (hp ▸ deviceFinished_same _)
    · exact h.ignored hp
  | send => exact h.ignored hp
  | cancelled source =>
    rw [clipboardDispatch] at hp
    split at hp
    · exact h.same (hp ▸ sourceCancelled_same ..)
    · exact h.ignored hp

/-- The transfer of an offer goes on or ends. -/
theorem transferred (h : s.Inv) (hr : s.pasting.cb.reading = some rd)
    (hh : Handling s.pasting.cb p.cb rd.offer) : (s.disposed p rd.offer).Inv :=
  h.disposed (h.reading rd hr).1 (h.reading rd hr).2 hh

theorem step (h : s.Inv) (he : s.admits e = true) (hfrees : s.frees e = true) :
    (s.step e).Inv := by
  obtain ⟨hpasting, hallows⟩ := Bool.and_eq_true_iff.1 he
  cases e with
  | dispatch event pipe r =>
    exact h.dispatched (Option.isNone_iff_eq_none.1 hpasting) hallows hfrees rfl
  | setText text malloc => exact h.same (clipboardSetText_same ..)
  | request => exact h.ignored rfl
  | readReturned bytes realloc =>
    obtain ⟨rd, hr, _⟩ := (Option.any_eq_true _ _).1 hpasting
    have hcb := readReturned_cb hr bytes realloc
    rw [OfferTable.step, hr]
    exact h.transferred hr (hcb ▸ (readOn_handling ..).of_records rfl)
  | readEnded =>
    obtain ⟨rd, hr⟩ := Option.isSome_iff_exists.1 hpasting
    have hcb := readEnded_cb hr
    rw [OfferTable.step, hr]
    exact h.transferred hr (hcb ▸ readDone_handling ..)
  | readFailed =>
    obtain ⟨rd, hr⟩ := Option.isSome_iff_exists.1 hpasting
    have hcb := readFailed_cb hr
    rw [OfferTable.step, hr]
    exact h.transferred hr (hcb ▸ readDone_handling ..)

end OfferTable.Inv

/-- The record of an offer that a primary selection destroys stays allocated. -/
theorem frees_of_balanced (h : s.Inv) (he : s.admits e = true) (hb : (s.step e).Balanced) :
    s.frees e = true := by
  obtain ⟨_, hallows⟩ := Bool.and_eq_true_iff.1 he
  cases e with
  | dispatch event pipe r =>
    cases event with
    | primarySelection offer =>
      cases offer with
      | none => rfl
      | some offer =>
        cases hfrees : s.frees (.dispatch (.primarySelection (some offer)) pipe r) with
        | true => rfl
        | false =>
          simp only [OfferTable.frees, Bool.or_eq_false_iff, Bool.not_eq_false'] at hfrees
          obtain ⟨hdevice, hcarries⟩ := hfrees
          have hstep : s.step (.dispatch (.primarySelection (some offer)) pipe r) =
              s.destroyed (s.pasting.step (.dispatch (.primarySelection (some offer)) pipe r))
                offer := by
            rw [OfferTable.step, OfferTable.dispatched, hdevice]
            rfl
          rw [hstep] at hb
          have hlive : offer ∈ s.memory.live := h.balanced.live.mem_iff.2
            (List.mem_filter.2 ⟨of_decide_eq_true hallows, hcarries⟩)
          have hkept := (List.mem_filter.1 (hb.live.mem_iff.1 hlive)).1
          exact absurd rfl (h.nodup.mem_erase_iff.1 hkept).1
    | _ => rfl
  | _ => rfl

/-- The records of a run are those of its offers throughout exactly if no primary selection comes
with an offer that has a record. -/
theorem records_balanced_iff (hl : offerTable.Legal .start es) :
    offerTable.Always OfferTable.Balanced .start es ↔
      offerTable.Along (fun s e => s.frees e = true) .start es :=
  System.always_iff_along_of_leaves (fun _ h => h.balanced)
    (fun _ _ h he hfrees => h.step he hfrees) (fun _ _ h he hb => frees_of_balanced h he hb)
    .start hl

/-- Two selections, one with a text and one for which there is no memory, and none. -/
def selections : List PasteEvent :=
  selectionRead ++
    [.dispatch (.dataOffer 1) 1 ⟨false, true, true, 0⟩,
      .dispatch (.selection (some 1)) 1 ⟨true, true, true, 0⟩,
      .dispatch (.selection none) 1 ⟨true, true, true, 0⟩]

theorem records_balanced_iff_selections : offerTable.Always OfferTable.Balanced .start selections :=
  (records_balanced_iff (by decide)).2 (by decide)

/-- One selection of text with the mouse leaves a record behind that no offer has. -/
theorem primary_selection_leaks :
    let es := [.dispatch (.dataOffer 0) 0 ⟨true, true, true, 0⟩,
      .dispatch (.offer 0 clipboardMimeType) 0 ⟨true, true, true, 0⟩,
      .dispatch (.primarySelection (some 0)) 0 ⟨true, true, true, 0⟩]
    offerTable.Legal .start es ∧ ¬ offerTable.Always OfferTable.Balanced .start es ∧
      (offerTable.run .start es).offers = [] ∧ (offerTable.run .start es).memory.live = [0] := by
  refine ⟨by decide, fun h => ?_, by decide, by decide⟩
  have hlive := h.last.live
  revert hlive
  decide

end Wlrdp
