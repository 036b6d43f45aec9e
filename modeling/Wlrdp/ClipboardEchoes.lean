import Wlrdp.ClipboardSemantics

namespace Wlrdp
set_option autoImplicit true

/-! ### Selections and the offers that stand for them -/

/-- What an offer was made for: the source of the selection, and whether that has a text. -/
structure Origin where
  source : Source
  text : Bool
deriving DecidableEq

/-- The parties, with a record of what each offer was made for. -/
structure Watched extends Parties where
  origins : Nat → Option Origin

def Watched.start : Watched := ⟨.start, fun _ => none⟩

/-- The record goes on with the offers that the compositor has made. -/
def Watched.follow (s : Watched) (p : Parties) : Watched where
  toParties := p
  origins o :=
    match s.origins o with
    | some origin => some origin
    | none => (p.compositor.offers o).map fun source =>
      ⟨source, clipboardMimeType ∈ p.compositor.mimeTypes source⟩

/-- The blocked reading loop ends with that text. -/
def Parties.readCompletes (s : Parties) (text : List UInt8) : Parties :=
  match s.cb.reading with
  | none => s
  | some rd => { s with cb := readDone s.cb { rd with buf := text } }

/-- The steps of the parties, where every read completes. -/
inductive WatchedEvent
  | party (e : PartyEvent)
  | readCompletes (text : List UInt8)
deriving DecidableEq

def PartyEvent.reads : PartyEvent → Bool
  | .readReturned _ _ | .readEnded => true
  | _ => false

namespace Watched

def step (s : Watched) : WatchedEvent → Watched
  | .party e => s.follow (s.toParties.step e)
  | .readCompletes text => s.follow (s.toParties.readCompletes text)

def admits (s : Watched) : WatchedEvent → Bool
  | .party e => s.toParties.admits e && !e.reads
  | .readCompletes text => s.cb.reading.isSome && text.length ≤ clipboardMaxSize

/-- The selection that the session reads was set by another client. -/
def readsOther (s : Watched) : Bool :=
  s.cb.reading.any fun rd =>
    match s.origins rd.offer with
    | some ⟨.foreign _, _⟩ => true
    | _ => false

/-- Once a text is read, `on_wl_clipboard_changed` is called exactly if another client set the
selection. -/
def echoFree (s : Watched) : WatchedEvent → Bool
  | .readCompletes text =>
    text.isEmpty ||
      decide ((s.toParties.readCompletes text).cb.changes = s.cb.changes ++ [text]) == s.readsOther
  | _ => true

end Watched

def watched : System Watched WatchedEvent := ⟨fun s e => s.admits e = true, Watched.step⟩

instance (s : Watched) (e : WatchedEvent) : Decidable (watched.enabled s e) :=
  inferInstanceAs (Decidable (s.admits e = true))

/-! ### The order of texts and selections -/

/-- Selections that matter to `setting_from_rdp`. -/
inductive Mark
  | own | other
deriving DecidableEq

/-- Whether an event delivers a selection of the session, or a text of another client. -/
def mark (origins : Nat → Option Origin) : WlEvent → Option Mark
  | .selection (some o) =>
    match origins o with
    | some ⟨.own _, _⟩ => some .own
    | some ⟨.foreign _, true⟩ => some .other
    | _ => none
  | _ => none

def Watched.marks (s : Watched) : List Mark := s.events.filterMap (mark s.origins)

def WlRequest.selects : WlRequest → Bool
  | .setSelection _ => true
  | _ => false

/-- A selection of the session is on its way to the compositor. -/
def Parties.selecting (s : Parties) : Bool := s.cb.requests.any WlRequest.selects

/-- Texts are set from RDP only while no selection of the session and no text of another client
is on its way, and fail to be set only while `setting_from_rdp` is off; another client sets no
text while a selection of the session is on its way to the compositor. -/
def Watched.orderly (s : Watched) : WatchedEvent → Bool
  | .party (.setText _ malloc) =>
    !s.cb.device ||
      if malloc then s.marks.isEmpty && !s.selecting else !s.cb.settingFromRdp
  | .party (.otherSelects mimeTypes) => clipboardMimeType ∉ mimeTypes || !s.selecting
  | _ => true

/-! ### What the session's handlers do to the flag -/

variable {cb cb' : Clipboard} {s s' : Watched} {rd : Reading}

/-- Requests that concern no source. -/
def WlRequest.aside : WlRequest → Bool
  | .receive _ _ _ | .destroyOffer _ | .destroyDevice => true
  | _ => false

/-- The session asks for nothing that concerns a source. -/
structure Idle (cb cb' : Clipboard) : Prop where
  requests : ∃ rs : List WlRequest, (∀ r ∈ rs, r.aside = true) ∧ cb'.requests = cb.requests ++ rs
  source : cb'.source = cb.source
  nextSource : cb'.nextSource = cb.nextSource

theorem Idle.refl (cb : Clipboard) : Idle cb cb :=
  ⟨⟨[], nofun, (List.append_nil _).symm⟩, rfl, rfl⟩

theorem Idle.trans (h : Idle a b) (h' : Idle b c) : Idle a c := by
  obtain ⟨rs, hrs, hab⟩ := h.requests
  obtain ⟨rs', hrs', hbc⟩ := h'.requests
  refine ⟨⟨rs ++ rs', fun r hr => ?_, ?_⟩, h'.source.trans h.source,
    h'.nextSource.trans h.nextSource⟩
  · exact (List.mem_append.1 hr).elim (hrs r) (hrs' r)
  · rw [hbc, hab, List.append_assoc]

theorem request_idle (cb : Clipboard) (h : r.aside = true) : Idle cb (cb.request [r]) := by
  refine ⟨⟨[r], fun r' hr => ?_, rfl⟩, rfl, rfl⟩
  rw [List.mem_singleton.1 hr]
  exact h

theorem dropOffer_idle (cb : Clipboard) (offer : Nat) : Idle cb (dropOffer cb offer) := by
  obtain ⟨hreq, hsource, hnext⟩ := request_idle cb (r := .destroyOffer offer) rfl
  exact ⟨hreq, hsource, hnext⟩

theorem readDone_idle (cb : Clipboard) (rd : Reading) : Idle cb (readDone cb rd) := by
  have hasked : ∀ r ∈ [WlRequest.destroyOffer rd.offer], r.aside = true := by
    intro r hr
    rw [List.mem_singleton.1 hr]
    rfl
  simp only [readDone]
  split
  · exact ⟨⟨_, hasked, rfl⟩, rfl, rfl⟩
  · exact ⟨⟨_, hasked, rfl⟩, rfl, rfl⟩

theorem readDone_flag (cb : Clipboard) (rd : Reading) :
    (readDone cb rd).settingFromRdp = false ∧ (readDone cb rd).reading = none := by
  simp only [readDone]
  split <;> exact ⟨rfl, rfl⟩

/-- What handling an event makes of the flag and of the read: neither changes, a read of the
offer begins, it is over at once, or the session's source is cancelled. -/
inductive Dispatched (cb : Clipboard) (event : WlEvent) : Clipboard → Prop
  | kept {cb' : Clipboard} (hc : ∀ n, event = .cancelled n → cb.source ≠ some n)
      (h : Idle cb cb') (hf : cb'.settingFromRdp = cb.settingFromRdp)
      (hr : cb'.reading = cb.reading) : Dispatched cb event cb'
  | began {cb' : Clipboard} {o : Nat} {rd : Reading} (h : Idle cb cb')
      (hf : cb'.settingFromRdp = cb.settingFromRdp) (hr : cb'.reading = some rd)
      (ho : rd.offer = o) (he : event = .selection (some o)) (ht : cb.records o = some true) :
      Dispatched cb event cb'
  | ended {cb' : Clipboard} {o : Nat} (h : Idle cb cb') (hf : cb'.settingFromRdp = false)
      (hr : cb'.reading = none) (he : event = .selection (some o))
      (ht : cb.records o = some true) : Dispatched cb event cb'
  | cancelled {cb' : Clipboard} {n : Nat} (he : event = .cancelled n) (hs : cb.source = some n)
      (hf : cb'.settingFromRdp = false) (hr : cb'.reading = cb.reading)
      (hs' : cb'.source = none) (hn : cb'.nextSource = cb.nextSource)
      (hreq : cb'.requests = cb.requests ++ [.destroySource n]) : Dispatched cb event cb'

/-- What setting a text makes of the session: nothing, as it has no device, the loss of its source
where there is no memory, or a new source that is to be selected. -/
inductive TextSet (cb : Clipboard) (malloc : Bool) : Clipboard → Prop
  | ignored : TextSet cb malloc cb
  | failed {cb' : Clipboard} (hd : cb.device = true) (hm : malloc = false)
      (hf : cb'.settingFromRdp = cb.settingFromRdp) (hr : cb'.reading = cb.reading)
      (hs : cb'.source = none) (hn : cb'.nextSource = cb.nextSource)
      (hrec : cb'.records = cb.records)
      (hreq : cb'.requests = cb.requests ++ (cb.source.map .destroySource).toList) :
      TextSet cb malloc cb'
  | done {cb' : Clipboard} (hd : cb.device = true) (hm : malloc = true)
      (hf : cb'.settingFromRdp = true) (hr : cb'.reading = cb.reading)
      (hs : cb'.source = some cb.nextSource) (hn : cb'.nextSource = cb.nextSource + 1)
      (hrec : cb'.records = cb.records)
      (hreq : cb'.requests = cb.requests ++ (cb.source.map .destroySource).toList ++
        [.createSource cb.nextSource, .offer cb.nextSource clipboardMimeType,
          .setSelection cb.nextSource]) : TextSet cb malloc cb'

theorem dropSource_requests (cb : Clipboard) :
    (dropSource cb).requests = cb.requests ++ (cb.source.map .destroySource).toList := by
  simp only [dropSource]
  cases cb.source with
  | none => exact (List.append_nil _).symm
  | some => rfl

theorem dropSource_source (cb : Clipboard) : (dropSource cb).source = none := by
  simp only [dropSource]
  split
  · assumption
  · rfl

theorem clipboardSetText_cases (cb : Clipboard) (text : List UInt8) (malloc : Bool) :
    TextSet cb malloc (clipboardSetText cb text malloc) := by
  have hdrop : (dropSource cb).settingFromRdp = cb.settingFromRdp ∧
      (dropSource cb).reading = cb.reading ∧ (dropSource cb).nextSource = cb.nextSource ∧
        (dropSource cb).records = cb.records := by
    simp only [dropSource]
    split <;> exact ⟨rfl, rfl, rfl, rfl⟩
  obtain ⟨hflag, hreading, hnext, hrecords⟩ := hdrop
  rw [clipboardSetText]
  split
  · exact .ignored
  · next hready =>
    have hdevice : cb.device = true := by
      cases hd : cb.device with
      | true => rfl
      | false =>
        rw [hd, Bool.not_false, Bool.or_true] at hready
        exact absurd rfl hready
    dsimp only
    cases malloc with
    | false =>
      rw [if_pos (by decide)]
      exact .failed hdevice rfl hflag hreading (dropSource_source cb) hnext hrecords
        (dropSource_requests cb)
    | true =>
      rw [if_neg (by decide)]
      refine .done hdevice rfl rfl hreading ?_ ?_ hrecords ?_
      · exact congrArg some hnext
      · exact congrArg (· + 1) hnext
      · rw [Clipboard.request]
        dsimp only
        rw [dropSource_requests, hnext]

theorem deviceSelection_dispatched (cb : Clipboard) (offer : Option Nat) (pipe : Nat)
    (r : DispatchTurn) :
    Dispatched cb (.selection offer) (deviceSelection cb offer pipe r) := by
  cases offer with
  | none => exact .kept nofun (.refl cb) rfl rfl
  | some o =>
    simp only [deviceSelection]
    split
    · exact .kept nofun (request_idle cb rfl) rfl rfl
    · next hasText hrecord =>
      split
      · next htext =>
        rw [htext] at hrecord
        simp only [readOfferText]
        split
        · exact .kept nofun (dropOffer_idle cb o) rfl rfl
        · have hidle := request_idle cb (r := .receive o clipboardMimeType pipe) rfl
          simp only [readOn]
          split
          · obtain ⟨hflag, hread⟩ := readDone_flag
              (cb.request [.receive o clipboardMimeType pipe]) ⟨o, pipe, [], 0⟩
            exact .ended (hidle.trans (readDone_idle _ _)) hflag hread rfl hrecord
          · next rd hm =>
            have hoffer : rd.offer = o := congrArg Reading.offer (more_eq hm)
            exact .began (hidle.trans ⟨⟨[], nofun, (List.append_nil _).symm⟩, rfl, rfl⟩) rfl rfl
              hoffer rfl hrecord
      · exact .kept nofun (dropOffer_idle cb o) rfl rfl

theorem clipboardDispatch_dispatched (cb : Clipboard) (event : WlEvent) (pipe : Nat)
    (r : DispatchTurn) : Dispatched cb event (clipboardDispatch cb event pipe r) := by
  have hdevice : ∀ cb', (∀ n, event = .cancelled n → cb.source ≠ some n) →
      Dispatched cb event cb' → Dispatched cb event (if cb.device then cb' else cb) := by
    intro cb' hc h
    split
    · exact h
    · exact .kept hc (.refl cb) rfl rfl
  cases event with
  | dataOffer offer =>
    apply hdevice _ nofun
    simp only [deviceDataOffer]
    split
    · exact .kept nofun (.refl cb) rfl rfl
    · exact .kept nofun ⟨(Idle.refl cb).requests, rfl, rfl⟩ rfl rfl
  | offer offer mimeType =>
    simp only [clipboardDispatch, offerOffer]
    split
    · exact .kept nofun ⟨(Idle.refl cb).requests, rfl, rfl⟩ rfl rfl
    · exact .kept nofun (.refl cb) rfl rfl
  | selection offer => exact hdevice _ nofun (deviceSelection_dispatched cb offer pipe r)
  | primarySelection offer =>
    apply hdevice _ nofun
    cases offer with
    | none => exact .kept nofun (.refl cb) rfl rfl
    | some o => exact .kept nofun (request_idle cb rfl) rfl rfl
  | finished =>
    have hidle := request_idle cb (r := .destroyDevice) rfl
    exact hdevice _ nofun (.kept nofun ⟨hidle.requests, rfl, rfl⟩ rfl rfl)
  | send => exact .kept nofun (.refl cb) rfl rfl
  | cancelled source =>
    simp only [clipboardDispatch]
    split
    · next hsource =>
      rw [sourceCancelled, if_pos hsource]
      exact .cancelled rfl hsource rfl rfl rfl rfl rfl
    · next hsource =>
      refine .kept (fun n hn hs => hsource ?_) (.refl cb) rfl rfl
      cases hn
      exact hs

/-- An event that names an offer. -/
def WlEvent.offer? : WlEvent → Option Nat
  | .dataOffer o | .offer o _ => some o
  | .selection o | .primarySelection o => o
  | _ => none

/-- Records are made by the events that introduce their offers. -/
theorem dropOffer_records (cb : Clipboard) (offer o : Nat) :
    (dropOffer cb offer).records o = cb.records o ∨ (dropOffer cb offer).records o = none := by
  change Function.update cb.records offer none o = _ ∨ Function.update cb.records offer none o = _
  by_cases ho : o = offer
  · rw [ho, Function.update_self]
    exact .inr rfl
  · rw [Function.update_of_ne ho]
    exact .inl rfl

theorem readDone_records (cb : Clipboard) (rd : Reading) (o : Nat) :
    (readDone cb rd).records o = cb.records o ∨ (readDone cb rd).records o = none := by
  simp only [readDone]
  split <;> exact dropOffer_records _ rd.offer o

theorem deviceSelection_records (cb : Clipboard) (offer : Option Nat) (pipe : Nat)
    (r : DispatchTurn) (o : Nat) :
    (deviceSelection cb offer pipe r).records o = cb.records o ∨
      (deviceSelection cb offer pipe r).records o = none := by
  cases offer with
  | none => exact .inl rfl
  | some o' =>
    simp only [deviceSelection]
    split
    · exact .inl rfl
    · split
      · simp only [readOfferText]
        split
        · exact dropOffer_records cb o' o
        · simp only [readOn]
          split
          · exact readDone_records (cb.request [.receive o' clipboardMimeType pipe]) _ o
          · exact .inl rfl
      · exact dropOffer_records cb o' o

/-- Records are made by the events that introduce their offers. -/
inductive RecordStep (cb : Clipboard) (event : WlEvent) (o : Nat) : Option Bool → Prop
  | kept : RecordStep cb event o (cb.records o)
  | dropped : RecordStep cb event o none
  | made (he : event = .dataOffer o) : RecordStep cb event o (some false)
  | told (he : event = .offer o clipboardMimeType) : RecordStep cb event o (some true)

theorem RecordStep.of_or {record : Option Bool} (h : record = cb.records o ∨ record = none) :
    RecordStep cb event o record := by
  rcases h with h | h <;> rw [h]
  · exact .kept
  · exact .dropped

theorem dispatch_records (cb : Clipboard) (event : WlEvent) (pipe : Nat) (r : DispatchTurn)
    (o : Nat) : RecordStep cb event o ((clipboardDispatch cb event pipe r).records o) := by
  have hdevice : ∀ cb' : Clipboard, RecordStep cb event o (cb'.records o) →
      RecordStep cb event o ((if cb.device then cb' else cb).records o) := by
    intro cb' h
    split
    · exact h
    · exact .kept
  cases event with
  | dataOffer offer =>
    apply hdevice
    simp only [deviceDataOffer]
    split
    · exact .kept
    · by_cases ho : o = offer
      · change RecordStep _ _ _ (Function.update cb.records offer (some false) o)
        rw [ho, Function.update_self]
        exact .made rfl
      · change RecordStep _ _ _ (Function.update cb.records offer (some false) o)
        rw [Function.update_of_ne ho]
        exact .kept
  | offer offer mimeType =>
    simp only [clipboardDispatch, offerOffer]
    split
    · next htext =>
      by_cases ho : o = offer
      · change RecordStep _ _ _ (Function.update cb.records offer (some true) o)
        rw [ho, Function.update_self, htext.1]
        exact .told rfl
      · change RecordStep _ _ _ (Function.update cb.records offer (some true) o)
        rw [Function.update_of_ne ho]
        exact .kept
    · exact .kept
  | selection offer => exact hdevice _ (.of_or (deviceSelection_records cb offer pipe r o))
  | primarySelection offer =>
    apply hdevice
    cases offer <;> exact .kept
  | finished => exact hdevice _ .kept
  | send => exact .kept
  | cancelled source =>
    simp only [clipboardDispatch, sourceCancelled]
    split <;> exact .kept

end Wlrdp
