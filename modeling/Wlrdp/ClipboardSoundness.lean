import Wlrdp.ClipboardSemantics
import Wlrdp.PipeNetworks

namespace Wlrdp
set_option autoImplicit true

variable {s s' : Parties} {cb cb' : Clipboard} {rd : Reading}

/-- The pipes of the three parties. -/
def Parties.network (s : Parties) : PipeNetwork UInt8 where
  requested := s.requested
  undelivered := s.undelivered
  held := s.held
  data := s.data
  nextPipe := s.nextPipe
  reading := s.cb.reading.map (·.pipe)

/-- The pipe that the compositor passes on to a source of the session. -/
def Parties.servesSelf (s : Parties) : PartyEvent → Option Nat
  | .compositor keep =>
    match s.cb.requests with
    | .receive offer _ pipe :: _ =>
      match s.compositor.offers offer with
      | some (.own n) => if s.compositor.serves keep (.own n) then some pipe else none
      | _ => none
    | _ => none
  | _ => none

/-! ### What the session's handlers ask for -/

/-- The write ends that the session has sent and not yet seen handled. -/
def Clipboard.requested (cb : Clipboard) : List Nat := cb.requests.filterMap WlRequest.writeEnd

/-- No pipe is sent, and the session reads as before. -/
structure Silent (cb cb' : Clipboard) : Prop where
  requested : cb'.requested = cb.requested
  reading : cb'.reading = cb.reading

theorem Silent.refl (cb : Clipboard) : Silent cb cb := ⟨rfl, rfl⟩

theorem Silent.trans (h : Silent a b) (h' : Silent b c) : Silent a c :=
  ⟨h'.requested.trans h.requested, h'.reading.trans h.reading⟩

theorem requested_request (cb : Clipboard) (rs : List WlRequest) :
    (cb.request rs).requested = cb.requested ++ rs.filterMap WlRequest.writeEnd :=
  List.filterMap_append

theorem request_silent (cb : Clipboard) (h : rs.filterMap WlRequest.writeEnd = []) :
    Silent cb (cb.request rs) := by
  refine ⟨?_, rfl⟩
  rw [requested_request, h, List.append_nil]

theorem dropOffer_silent (cb : Clipboard) (offer : Nat) : Silent cb (dropOffer cb offer) :=
  (request_silent cb rfl).trans ⟨rfl, rfl⟩

theorem sourceCancelled_silent (cb : Clipboard) (source : Nat) :
    Silent cb (sourceCancelled cb source) := by
  simp only [sourceCancelled]
  split
  · exact (request_silent cb rfl).trans ⟨rfl, rfl⟩
  · exact ⟨rfl, rfl⟩

theorem dropSource_silent (cb : Clipboard) : Silent cb (dropSource cb) := by
  simp only [dropSource]
  split
  · exact .refl cb
  · exact (request_silent cb rfl).trans ⟨rfl, rfl⟩

theorem clipboardSetText_silent (cb : Clipboard) (text : List UInt8) (malloc : Bool) :
    Silent cb (clipboardSetText cb text malloc) := by
  have hdestroy := dropSource_silent cb
  rw [clipboardSetText]
  split
  · exact .refl cb
  dsimp only
  split
  · exact hdestroy.trans ⟨rfl, rfl⟩
  · have hset : ∀ a b n, Silent a b →
        Silent a (b.request [.createSource n, .offer n clipboardMimeType, .setSelection n]) :=
      fun _ b _ h => h.trans (request_silent b rfl)
    exact hset _ _ _ (hdestroy.trans ⟨rfl, rfl⟩)

theorem readDone_requested (cb : Clipboard) (rd : Reading) :
    (readDone cb rd).requested = cb.requested ∧ (readDone cb rd).reading = none := by
  have hstored : ∀ cb' : Clipboard, cb'.requests = cb.requests → cb'.reading = none →
      (dropOffer cb' rd.offer).requested = cb.requested ∧
        (dropOffer cb' rd.offer).reading = none := by
    intro cb' hreq hread
    have hs := dropOffer_silent cb' rd.offer
    refine ⟨hs.requested.trans ?_, hs.reading.trans hread⟩
    simp only [Clipboard.requested]
    rw [hreq]
  simp only [readDone]
  split
  · exact hstored _ rfl rfl
  · exact hstored _ rfl rfl

/-- After a read the session reads the same pipe or has left the loop. -/
theorem readOn_requested (cb : Clipboard) (rd : Reading) (realloc : Bool) :
    (readOn cb rd realloc).requested = cb.requested ∧
      ((readOn cb rd realloc).reading.map (·.pipe) = none ∨
        (readOn cb rd realloc).reading.map (·.pipe) = some rd.pipe) := by
  simp only [readOn]
  cases hm : rd.more realloc with
  | none =>
    obtain ⟨hreq, hread⟩ := readDone_requested cb rd
    refine ⟨hreq, .inl ?_⟩
    dsimp only
    rw [hread]
    rfl
  | some rd' =>
    have hpipe : rd'.pipe = rd.pipe := by rw [more_eq hm]
    exact ⟨rfl, .inr (congrArg some hpipe)⟩

/-- What handling an event makes of the session's pipes: nothing, or it starts to read a new
one. -/
inductive HandlerStep (cb : Clipboard) (pipe : Nat) : Clipboard → Prop
  | silent {cb' : Clipboard} (h : Silent cb cb') : HandlerStep cb pipe cb'
  | opened {cb' : Clipboard} (h : cb'.requested = cb.requested ++ [pipe])
      (hr : cb'.reading.map (·.pipe) = none ∨ cb'.reading.map (·.pipe) = some pipe) :
      HandlerStep cb pipe cb'

theorem readOfferText_step (cb : Clipboard) (offer pipe : Nat) (r : DispatchTurn) :
    HandlerStep cb pipe (readOfferText cb offer pipe r) := by
  simp only [readOfferText]
  split
  · exact .silent (dropOffer_silent cb offer)
  · obtain ⟨hreq, hread⟩ := readOn_requested (cb.request [.receive offer clipboardMimeType pipe])
      ⟨offer, pipe, [], 0⟩ r.realloc
    refine .opened ?_ hread
    rw [hreq, requested_request]
    rfl

theorem deviceSelection_step (cb : Clipboard) (offer : Option Nat) (pipe : Nat)
    (r : DispatchTurn) : HandlerStep cb pipe (deviceSelection cb offer pipe r) := by
  cases offer with
  | none => exact .silent (.refl cb)
  | some offer =>
    simp only [deviceSelection]
    split
    · exact .silent (request_silent cb rfl)
    · split
      · exact readOfferText_step cb offer pipe r
      · exact .silent (dropOffer_silent cb offer)

theorem clipboardDispatch_step (cb : Clipboard) (event : WlEvent) (pipe : Nat)
    (r : DispatchTurn) : HandlerStep cb pipe (clipboardDispatch cb event pipe r) := by
  have hdevice : ∀ cb', HandlerStep cb pipe cb' →
      HandlerStep cb pipe (if cb.device then cb' else cb) := by
    intro cb' h
    split
    · exact h
    · exact .silent (.refl cb)
  cases event with
  | dataOffer offer =>
    apply hdevice
    simp only [deviceDataOffer]
    split <;> exact .silent ⟨rfl, rfl⟩
  | offer offer mimeType =>
    change HandlerStep cb pipe (offerOffer cb offer mimeType)
    simp only [offerOffer]
    split <;> exact .silent ⟨rfl, rfl⟩
  | selection offer => exact hdevice _ (deviceSelection_step cb offer pipe r)
  | primarySelection offer =>
    apply hdevice
    cases offer with
    | none => exact .silent (.refl cb)
    | some offer => exact .silent (request_silent cb rfl)
  | finished => exact hdevice _ (.silent ((request_silent cb rfl).trans ⟨rfl, rfl⟩))
  | send => exact .silent (.refl cb)
  | cancelled source =>
    change HandlerStep cb pipe (if cb.source = some source then sourceCancelled cb source else cb)
    split
    · exact .silent (sourceCancelled_silent cb source)
    · exact .silent (.refl cb)

/-! ### The parties refine the pipe network -/

theorem step_idle (n : Nat) (hreq : s'.requested = s.requested)
    (hund : s'.undelivered = s.undelivered) (hheld : s'.held = s.held) (hdata : s'.data = s.data)
    (hnext : s'.nextPipe = s.nextPipe + n) (hread : s'.cb.reading = s.cb.reading) :
    s.network.Step none s'.network := by
  have heq : s'.network = { s.network with nextPipe := s.network.nextPipe + n } := by
    simp only [Parties.network]
    rw [hreq, hund, hheld, hdata, hnext, hread]
  rw [heq]
  exact .idle n

theorem undelivered_post (s : Parties) (events : List WlEvent) :
    (s.post events).undelivered = s.undelivered ++ events.filterMap WlEvent.writeEnd :=
  List.filterMap_append

/-- Events without a pipe. -/
def Mute (events : List WlEvent) : Prop := events.filterMap WlEvent.writeEnd = []

theorem Mute.append (h : Mute es) (h' : Mute fs) : Mute (es ++ fs) := by
  unfold Mute at *
  rw [List.filterMap_append, h, h']
  rfl

theorem introduce_mute (offer : Nat) (mimeTypes : List String) :
    Mute (Parties.introduce offer mimeTypes) := by
  have hnone : ∀ m, WlEvent.writeEnd (.offer offer m) = none := fun _ => rfl
  rw [Mute, Parties.introduce, List.filterMap_cons_none rfl, List.filterMap_map]
  exact List.filterMap_eq_nil_iff.2 fun m _ => hnone m

theorem undelivered_mute (h : Mute events) : (s.post events).undelivered = s.undelivered := by
  rw [undelivered_post, h, List.append_nil]

theorem select_undelivered (s : Parties) (source : Source) :
    (s.select source).undelivered = s.undelivered := by
  refine undelivered_mute (Mute.append (Mute.append ?_ (introduce_mute _ _)) rfl)
  split
  · split <;> rfl
  · rfl

theorem handle_network (s : Parties) (keep : Bool) (request : WlRequest)
    (h : request.writeEnd = none) : (s.handle keep request).network = s.network := by
  have hsame : ∀ s' : Parties, s'.undelivered = s.undelivered → s'.cb = s.cb → s'.held = s.held →
      s'.data = s.data → s'.nextPipe = s.nextPipe → s'.network = s.network := by
    intro s' hund hcb hheld hdata hnext
    simp only [Parties.network, Parties.requested]
    rw [hund, hcb, hheld, hdata, hnext]
  cases request with
  | createSource => rfl
  | offer => rfl
  | setSelection n => exact hsame _ (select_undelivered s _) rfl rfl rfl rfl
  | destroySource n =>
    simp only [Parties.handle]
    split
    · exact hsame _ (undelivered_mute rfl) rfl rfl rfl rfl
    · rfl
  | receive => cases h
  | destroyOffer => rfl
  | destroyDevice => rfl

/-- Where the compositor passes a pipe to. -/
theorem forward_step (hreq : s.cb.requests = .receive offer mimeType pipe :: rest) :
    s.network.Step (s.servesSelf (.compositor keep))
      (Parties.forward { s with cb := { s.cb with requests := rest } } keep offer mimeType
        pipe).network := by
  have hpipe : s.network.requested = pipe :: rest.filterMap WlRequest.writeEnd := by
    change s.cb.requests.filterMap _ = _
    rw [hreq]
    exact List.filterMap_cons_some rfl
  have hserves : s.servesSelf (.compositor keep) = match s.compositor.offers offer with
      | some (.own n) => if s.compositor.serves keep (.own n) then some pipe else none
      | _ => none := by
    rw [Parties.servesSelf, hreq]
  have hrefused : s.network.Step none
      ({ s with cb := { s.cb with requests := rest } } : Parties).network := .refused hpipe
  rw [hserves]
  simp only [Parties.forward]
  cases hsource : s.compositor.offers offer with
  | none => exact hrefused
  | some source =>
    cases source with
    | own n =>
      dsimp only
      cases s.compositor.serves keep (.own n) with
      | false => exact hrefused
      | true =>
        rw [if_pos rfl, Bool.not_true, if_neg (by decide)]
        have hund : s.network.undelivered ++ [pipe] =
            (s.post [.send n mimeType pipe]).undelivered := by
          rw [undelivered_post]
          rfl
        have hstep := PipeNetwork.Step.served hpipe
        rw [hund] at hstep
        exact hstep
    | foreign n =>
      dsimp only
      split
      · exact hrefused
      · exact .routed hpipe

theorem compositorStep_step (s : Parties) (keep : Bool) :
    s.network.Step (s.servesSelf (.compositor keep)) (s.compositorStep keep).network := by
  simp only [Parties.compositorStep]
  cases hreq : s.cb.requests with
  | nil =>
    have hnone : s.servesSelf (.compositor keep) = none := by
      rw [Parties.servesSelf, hreq]
    rw [hnone]
    exact .idle 0
  | cons request rest =>
    have hquiet : request.writeEnd = none → s.servesSelf (.compositor keep) = none →
        s.network.Step (s.servesSelf (.compositor keep))
          (Parties.handle { s with cb := { s.cb with requests := rest } } keep request).network := by
      intro hend hnone
      rw [hnone, handle_network _ keep request hend]
      refine step_idle 0 ?_ rfl rfl rfl rfl rfl
      simp only [Parties.requested]
      rw [hreq, List.filterMap_cons_none hend]
    cases request with
    | receive offer mimeType pipe => exact forward_step hreq
    | createSource => exact hquiet rfl (by unfold Parties.servesSelf; rw [hreq])
    | offer => exact hquiet rfl (by unfold Parties.servesSelf; rw [hreq])
    | setSelection => exact hquiet rfl (by unfold Parties.servesSelf; rw [hreq])
    | destroySource => exact hquiet rfl (by unfold Parties.servesSelf; rw [hreq])
    | destroyOffer => exact hquiet rfl (by unfold Parties.servesSelf; rw [hreq])
    | destroyDevice => exact hquiet rfl (by unfold Parties.servesSelf; rw [hreq])

theorem dispatch_step (s : Parties) (r : DispatchTurn) (hr : s.cb.reading = none) :
    s.network.Step none (s.dispatch r).network := by
  have hidle : s.network.reading = none := by
    change s.cb.reading.map _ = none
    rw [hr]
    rfl
  simp only [Parties.dispatch]
  cases hev : s.events with
  | nil => exact .idle 0
  | cons event rest =>
    dsimp only
    have hstep := clipboardDispatch_step s.cb event s.nextPipe r
    have hquiet : event.writeEnd = none → s.network.Step none
        ({ s with
          cb := clipboardDispatch s.cb event s.nextPipe r, events := rest
          nextPipe := s.nextPipe + 1 } : Parties).network := by
      intro hend
      have hund : rest.filterMap WlEvent.writeEnd = s.undelivered := by
        rw [Parties.undelivered, hev, List.filterMap_cons_none hend]
      generalize clipboardDispatch s.cb event s.nextPipe r = cb' at hstep
      cases hstep with
      | silent h => exact step_idle 1 h.requested hund rfl rfl rfl h.reading
      | opened h hread =>
        have hnew := PipeNetwork.Step.opened hidle hread
        rw [show s.network.requested ++ [s.network.nextPipe] = cb'.requested from h.symm,
          show s.network.undelivered = rest.filterMap WlEvent.writeEnd from hund.symm] at hnew
        exact hnew
    cases event with
    | send source mimeType pipe =>
      have hund : s.network.undelivered = pipe :: rest.filterMap WlEvent.writeEnd := by
        change s.events.filterMap _ = _
        rw [hev]
        exact List.filterMap_cons_some rfl
      dsimp only
      split
      · exact .answered hidle hund _ 1
      · have hclosed := PipeNetwork.Step.answered hidle hund [] 1
        rw [List.append_nil, Function.update_eq_self] at hclosed
        exact hclosed
    | dataOffer => exact hquiet rfl
    | offer => exact hquiet rfl
    | selection => exact hquiet rfl
    | primarySelection => exact hquiet rfl
    | finished => exact hquiet rfl
    | cancelled => exact hquiet rfl

theorem readReturned_step (hread : s.cb.reading = some rd) (hdata : s.data rd.pipe ≠ [])
    (n : Nat) (realloc : Bool) : s.network.Step none (s.readReturned n realloc).network := by
  have hpipe : s.network.reading = some rd.pipe := by
    change s.cb.reading.map _ = _
    rw [hread]
    rfl
  rw [Parties.readReturned, hread]
  dsimp only
  obtain ⟨hreq, hmore⟩ := readOn_requested { s.cb with reading := none }
    { rd with buf := rd.buf ++ (s.data rd.pipe).take n } realloc
  have hstep := PipeNetwork.Step.read hpipe hdata ((s.data rd.pipe).drop n) hmore
  rw [show s.network.requested = Clipboard.requested _ from hreq.symm] at hstep
  exact hstep

theorem readEnded_step (hread : s.cb.reading = some rd) (hw : rd.pipe ∉ s.writeEnds) :
    s.network.Step none s.readEnded.network := by
  have hpipe : s.network.reading = some rd.pipe := by
    change s.cb.reading.map _ = _
    rw [hread]
    rfl
  rw [Parties.readEnded, hread]
  dsimp only
  obtain ⟨hreq, hdone⟩ := readDone_requested s.cb rd
  have hsame : Parties.requested { s with cb := readDone s.cb rd } = s.requested := hreq
  have heq : Parties.network { s with cb := readDone s.cb rd } =
      { s.network with reading := none } := by
    rw [Parties.network, hsame]
    dsimp only
    rw [hdone]
    rfl
  rw [heq]
  exact .ended hpipe hw

/-- Every step of the parties is a step of their pipes. -/
theorem step_network (he : s.admits e = true) :
    s.network.Step (s.servesSelf e) (s.step e).network := by
  cases e with
  | setText text malloc =>
    have hs := clipboardSetText_silent s.cb text malloc
    exact step_idle 0 hs.requested rfl rfl rfl rfl hs.reading
  | dispatch r =>
    have hidle := (Bool.and_eq_true_iff.1 he).1
    exact dispatch_step s r (Option.isNone_iff_eq_none.1 hidle)
  | readReturned n realloc =>
    cases hread : s.cb.reading with
    | none => simp only [Parties.admits, hread, Option.any_none, Bool.false_eq_true] at he
    | some rd =>
      simp only [Parties.admits, hread, Option.any_some, Bool.and_eq_true, decide_eq_true_eq] at he
      refine readReturned_step hread (fun hnil => ?_) n realloc
      rw [hnil, List.length_nil] at he
      omega
  | readEnded =>
    cases hread : s.cb.reading with
    | none => simp only [Parties.admits, hread, Option.any_none, Bool.false_eq_true] at he
    | some rd =>
      simp only [Parties.admits, hread, Option.any_some, Bool.and_eq_true, decide_eq_true_eq] at he
      exact readEnded_step hread he.2
  | compositor keep => exact compositorStep_step s keep
  | otherSelects mimeTypes => exact step_idle 0 rfl (select_undelivered ..) rfl rfl rfl rfl
  | otherClears =>
    change s.network.Step none s.otherClears.network
    simp only [Parties.otherClears]
    split
    · exact step_idle 0 rfl (undelivered_mute rfl) rfl rfl rfl rfl
    · exact .idle 0
  | otherPrimary mimeTypes =>
    exact step_idle 0 rfl (undelivered_mute ((introduce_mute _ _).append rfl)) rfl rfl rfl rfl
  | otherReceives mimeType =>
    change s.network.Step none (s.otherReceives mimeType).network
    simp only [Parties.otherReceives]
    split
    · next n _ =>
      have hund : s.network.undelivered ++ [s.network.nextPipe] =
          (s.post [.send n mimeType s.nextPipe]).undelivered := by
        rw [undelivered_post]
        rfl
      have hstep := PipeNetwork.Step.asked (v := s.network)
      rw [hund] at hstep
      exact hstep
    · exact .idle 0
  | otherWrites pipe bytes =>
    have hheld : pipe ∈ s.network.held := of_decide_eq_true he
    exact .written hheld bytes
  | otherCloses pipe =>
    have hheld : pipe ∈ s.network.held := of_decide_eq_true he
    exact .closed hheld
  | seatRemoved => exact step_idle 0 rfl (undelivered_mute rfl) rfl rfl rfl rfl

end Wlrdp
