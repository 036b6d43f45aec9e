import Wlrdp.EchoSoundness

namespace Wlrdp
set_option autoImplicit true

variable {s : Watched} {p : Parties} {cb cb' : Clipboard} {rd : Reading}

structure Watched.Inv (s : Watched) : Prop where
  known : Known s
  numbered : s.toParties.Numbered
  ordered : s.Ordered

theorem Watched.Inv.start : Watched.start.Inv := by
  refine ⟨.start, fun n hn => ?_, .start⟩
  cases hn with
  | source h => cases h
  | requested r h => cases h
  | cancelled h => cases h
  | selected h => cases h

/-! ### New numbers -/

theorem aside_source {r : WlRequest} (h : r.aside = true) : r.source? = none := by
  cases r with
  | receive | destroyOffer | destroyDevice => rfl
  | _ => cases h

theorem Parties.Numbered.undisturbed {q : Parties} (h : q.Numbered)
    (hcb : Undisturbed q.cb p.cb handled) (hnext : p.cb.nextSource = q.cb.nextSource)
    (hsel : ∀ n, p.compositor.selection = some (.own n) → q.Mentions n)
    (hcancel : ∀ n, .cancelled n ∈ p.events → q.Mentions n) : p.Numbered := by
  apply h.mono hnext
  intro n hn
  cases hn with
  | source hs => exact .source (hcb.source.symm.trans hs)
  | requested r hr hn => exact .requested r (hcb.requests_mem hr) hn
  | cancelled hc => exact hcancel n hc
  | selected hs => exact hsel n hs

theorem Parties.Numbered.idle {q : Parties} (h : q.Numbered)
    (hev : ∀ e ∈ p.events, e ∈ q.events) (hcomp : p.compositor = q.compositor)
    (hi : Idle q.cb p.cb) : p.Numbered := by
  obtain ⟨rs, hrs, hreq⟩ := hi.requests
  apply h.mono hi.nextSource
  intro n hn
  cases hn with
  | source hs => exact .source (hi.source.symm.trans hs)
  | requested r hr hn =>
    rw [hreq] at hr
    rcases List.mem_append.1 hr with hr | hr
    · exact .requested r hr hn
    · cases (aside_source (hrs r hr)).symm.trans hn
  | cancelled hc => exact .cancelled (hev _ hc)
  | selected hs => exact .selected (hcomp ▸ hs)

theorem Parties.Numbered.dispatched {q : Parties} (h : q.Numbered)
    (hev : q.events = event :: p.events) (hcomp : p.compositor = q.compositor)
    (hd : Dispatched q.cb event p.cb) : p.Numbered := by
  have hrest : ∀ e ∈ p.events, e ∈ q.events := fun e he => hev ▸ List.mem_cons_of_mem _ he
  generalize hcb : p.cb = cb' at hd
  cases hd with
  | kept _ hi => exact h.idle hrest hcomp (hcb ▸ hi)
  | began hi => exact h.idle hrest hcomp (hcb ▸ hi)
  | ended hi => exact h.idle hrest hcomp (hcb ▸ hi)
  | cancelled _ hs _ _ hs' hn hreq =>
    apply h.mono (hcb ▸ hn)
    intro m hm
    cases hm with
    | source hm =>
      rw [hcb, hs'] at hm
      cases hm
    | requested r hr hm =>
      rw [hcb, hreq] at hr
      rcases List.mem_append.1 hr with hr | hr
      · exact .requested r hr hm
      · rw [List.mem_singleton.1 hr] at hm
        cases hm
        exact .source hs
    | cancelled hc => exact .cancelled (hrest _ hc)
    | selected hs => exact .selected (hcomp ▸ hs)

theorem Parties.mentions_of_destroys {q : Parties}
    (hr : r ∈ q.cb.requests ++ (q.cb.source.map WlRequest.destroySource).toList)
    (hn : r.source? = some n) : q.Mentions n := by
  rcases List.mem_append.1 hr with hr | hr
  · exact .requested r hr hn
  · obtain ⟨m, hm, rfl⟩ := mem_destroys hr
    cases hn
    exact .source hm

theorem Parties.Numbered.setText {q : Parties} (h : q.Numbered) (hev : p.events = q.events)
    (hcomp : p.compositor = q.compositor) (hset : TextSet q.cb malloc p.cb) : p.Numbered := by
  generalize hcb : p.cb = cb' at hset
  cases hset with
  | ignored => exact h.idle (fun _ he => hev ▸ he) hcomp (hcb ▸ Idle.refl q.cb)
  | failed _ _ _ _ hs' hnext _ hreq =>
    apply h.mono (hcb ▸ hnext)
    intro n hn
    cases hn with
    | source hs =>
      rw [hcb, hs'] at hs
      cases hs
    | requested r hr hn =>
      rw [hcb, hreq] at hr
      exact mentions_of_destroys hr hn
    | cancelled hc => exact .cancelled (hev ▸ hc)
    | selected hs => exact .selected (hcomp ▸ hs)
  | done _ _ _ _ hs' hnext _ hreq =>
    intro n hn
    rw [hcb, hnext]
    cases hn with
    | source hs =>
      rw [hcb, hs'] at hs
      cases hs
      exact Nat.lt_succ_self _
    | requested r hr hn =>
      rw [hcb, hreq] at hr
      rcases List.mem_append.1 hr with hr | hr
      · exact Nat.lt_succ_of_lt (h n (mentions_of_destroys hr hn))
      · simp only [List.mem_cons, List.not_mem_nil, or_false] at hr
        rcases hr with rfl | rfl | rfl <;>
        · cases hn
          exact Nat.lt_succ_self _
    | cancelled hc => exact Nat.lt_succ_of_lt (h n (.cancelled (hev ▸ hc)))
    | selected hs => exact Nat.lt_succ_of_lt (h n (.selected (hcomp ▸ hs)))

/-! ### The steps of the parties -/

theorem handled_undisturbed (hreq : s.cb.requests = r :: rest) (hquiet : r.selects = false) :
    Undisturbed s.cb { s.cb with requests := rest } [r] := by
  refine ⟨hreq, fun r' hr => ?_, rfl, rfl, rfl⟩
  rw [List.mem_singleton.1 hr]
  exact hquiet

theorem Watched.Inv.calm (h : s.Inv) (hcb : Undisturbed s.cb p.cb handled)
    (hnext : p.cb.nextSource = s.cb.nextSource) (hrec : p.cb.records = s.cb.records)
    (hc : s.compositor.Steady p.compositor handled)
    (hoffer : p.compositor.nextOffer = s.compositor.nextOffer)
    (hoff : ∀ o, p.compositor.offers o = s.compositor.offers o ∨ p.compositor.offers o = none)
    (hev : p.events = s.events ++ events) (hcalm : ∀ e ∈ events, e.calm = true ∧ e.offer? = none) :
    (s.follow p).Inv := by
  refine ⟨h.known.kept (fun e he => ?_) hoffer hoff fun o => .inl (by rw [hrec]), ?_,
    h.ordered.calm h.known hcb hc hev fun e he => (hcalm e he).1⟩
  · rw [hev] at he
    exact (List.mem_append.1 he).imp_right fun he => (hcalm e he).2
  · apply h.numbered.undisturbed hcb hnext (fun n hn => .selected (hc.unselected n hn))
    intro n hn
    change _ ∈ p.events at hn
    rw [hev] at hn
    rcases List.mem_append.1 hn with hn | hn
    · exact .cancelled hn
    · cases (hcalm _ hn).1

theorem Watched.Inv.posted (h : s.Inv) (hcb : p.cb = s.cb)
    (hc : s.compositor.Steady p.compositor [])
    (hoffer : p.compositor.nextOffer = s.compositor.nextOffer)
    (hoff : ∀ o, p.compositor.offers o = s.compositor.offers o)
    (hev : p.events = s.events ++ events) (hcalm : ∀ e ∈ events, e.calm = true ∧ e.offer? = none) :
    (s.follow p).Inv := by
  refine h.calm ?_ (by rw [hcb]) (by rw [hcb]) hc hoffer (fun o => .inl (hoff o)) hev hcalm
  rw [hcb]
  exact ⟨rfl, nofun, rfl, rfl, rfl⟩

theorem forward_cases (q : Parties) (keep : Bool) (o : Nat) (mimeType : String) (pipe : Nat) :
    q.handle keep (.receive o mimeType pipe) = q ∨
      (∃ n, q.handle keep (.receive o mimeType pipe) = q.post [.send n mimeType pipe]) ∨
        q.handle keep (.receive o mimeType pipe) = { q with held := pipe :: q.held } := by
  change q.forward keep o mimeType pipe = _ ∨ (∃ n, q.forward keep o mimeType pipe = _) ∨
    q.forward keep o mimeType pipe = _
  simp only [Parties.forward]
  split
  · exact .inl rfl
  · split
    · exact .inl rfl
    · split
      · exact .inr (.inl ⟨_, rfl⟩)
      · exact .inr (.inr rfl)

/-- A request that selects nothing leaves the selections of other sources of the session. -/
theorem handle_steady (q : Parties) (keep : Bool) (hquiet : r.selects = false) :
    q.compositor.Steady (q.handle keep r).compositor [r] := by
  have hsame (hr : ∀ n, r ≠ .createSource n)
      (ha : (q.handle keep r).compositor.alive = q.compositor.alive)
      (hs : (q.handle keep r).compositor.selection = q.compositor.selection) :
      q.compositor.Steady (q.handle keep r).compositor [r] := by
    refine ⟨fun n _ hn => ?_, fun n _ hn => hs.trans hn, fun n hn => hs.symm.trans hn⟩
    rw [ha]
    exact hn.resolve_right fun hc => hr n (List.mem_singleton.1 hc).symm
  cases r with
  | createSource m =>
    refine ⟨fun n _ hn => ?_, fun _ _ hn => hn, fun _ hn => hn⟩
    change Function.update q.compositor.alive (.own m) true (.own n) = true
    by_cases hnm : n = m
    · rw [hnm, Function.update_self]
    · rw [Function.update_of_ne (fun h => hnm (Source.own.inj h))]
      refine hn.resolve_right fun hc => hnm ?_
      cases List.mem_singleton.1 hc
      rfl
  | offer => exact hsame nofun rfl rfl
  | setSelection => cases hquiet
  | destroySource m =>
    have halive (n : Nat) (hn : .destroySource n ∉ [WlRequest.destroySource m])
        (h : q.compositor.alive (.own n) = true ∨ .createSource n ∈ [WlRequest.destroySource m]) :
        Function.update q.compositor.alive (.own m) false (.own n) = true := by
      have hnm : n ≠ m := fun h => hn (by rw [h]; exact List.mem_cons_self)
      rw [Function.update_of_ne (fun h => hnm (Source.own.inj h))]
      exact h.resolve_right fun hc => nomatch List.mem_singleton.1 hc
    simp only [Parties.handle]
    split
    · next hsel =>
      refine ⟨halive, fun n hn hselected => ?_, nofun⟩
      cases hsel.symm.trans hselected
      exact absurd List.mem_cons_self hn
    · exact ⟨halive, fun _ _ hn => hn, fun _ hn => hn⟩
  | receive o mimeType pipe =>
    have hcomp : (q.handle keep (.receive o mimeType pipe)).compositor = q.compositor := by
      rcases forward_cases q keep o mimeType pipe with h | ⟨n, h⟩ | h
      · rw [h]
      · rw [h]
        rfl
      · rw [h]
    exact hsame nofun (by rw [hcomp]) (by rw [hcomp])
  | destroyOffer => exact hsame nofun rfl rfl
  | destroyDevice => exact hsame nofun rfl rfl

theorem handle_events (q : Parties) (keep : Bool) (hquiet : r.selects = false) :
    ∃ events, (q.handle keep r).events = q.events ++ events ∧
      ∀ e ∈ events, e.calm = true ∧ e.offer? = none := by
  have hnone : (q.handle keep r).events = q.events → ∃ events,
      (q.handle keep r).events = q.events ++ events ∧
        ∀ e ∈ events, e.calm = true ∧ e.offer? = none :=
    fun h => ⟨[], h.trans (List.append_nil _).symm, nofun⟩
  cases r with
  | setSelection => cases hquiet
  | destroySource m =>
    simp only [Parties.handle]
    split
    · refine ⟨[.selection none], rfl, fun e he => ?_⟩
      rw [List.mem_singleton.1 he]
      exact ⟨rfl, rfl⟩
    · exact ⟨[], (List.append_nil _).symm, nofun⟩
  | receive o mimeType pipe =>
    rcases forward_cases q keep o mimeType pipe with h | ⟨n, h⟩ | h
    · exact hnone (by rw [h])
    · refine ⟨[.send n mimeType pipe], by rw [h]; rfl, fun e he => ?_⟩
      rw [List.mem_singleton.1 he]
      exact ⟨rfl, rfl⟩
    · exact hnone (by rw [h])
  | _ => exact hnone rfl

theorem handle_offers (q : Parties) (keep : Bool) (hquiet : r.selects = false) :
    (q.handle keep r).cb = q.cb ∧
      (q.handle keep r).compositor.nextOffer = q.compositor.nextOffer ∧
        ∀ o, (q.handle keep r).compositor.offers o = q.compositor.offers o ∨
          (q.handle keep r).compositor.offers o = none := by
  cases r with
  | setSelection => cases hquiet
  | destroySource m =>
    simp only [Parties.handle]
    split <;> exact ⟨rfl, rfl, fun _ => .inl rfl⟩
  | receive o mimeType pipe =>
    rcases forward_cases q keep o mimeType pipe with h | ⟨n, h⟩ | h <;> rw [h] <;>
      exact ⟨rfl, rfl, fun _ => .inl rfl⟩
  | destroyOffer o' =>
    refine ⟨rfl, rfl, fun o => ?_⟩
    change Function.update q.compositor.offers o' none o = _ ∨
      Function.update q.compositor.offers o' none o = none
    by_cases ho : o = o'
    · rw [ho, Function.update_self]
      exact .inr rfl
    · rw [Function.update_of_ne ho]
      exact .inl rfl
  | _ => exact ⟨rfl, rfl, fun _ => .inl rfl⟩

theorem Watched.Inv.handled (h : s.Inv) (hreq : s.cb.requests = r :: rest)
    (hquiet : r.selects = false) (keep : Bool) :
    (s.follow (Parties.handle { s.toParties with cb := { s.cb with requests := rest } } keep
      r)).Inv := by
  obtain ⟨hcb, hoffer, hoff⟩ := handle_offers
    { s.toParties with cb := { s.cb with requests := rest } } keep hquiet
  obtain ⟨events, hev, hcalm⟩ := handle_events
    { s.toParties with cb := { s.cb with requests := rest } } keep hquiet
  have hsteady := handle_steady
    { s.toParties with cb := { s.cb with requests := rest } } keep hquiet
  refine h.calm ?_ (by rw [hcb]) (by rw [hcb]) hsteady hoffer hoff hev hcalm
  rw [hcb]
  exact handled_undisturbed hreq hquiet

/-! ### Selections -/

/-- A source is made the selection by a step that changes nothing else that matters. -/
theorem Watched.Inv.selects (h : s.Inv) (hsel : Selects s p src mimes)
    (hordered : (s.follow p).Ordered) (hnext : p.cb.nextSource = s.cb.nextSource)
    (hreq : ∀ r ∈ p.cb.requests, r ∈ s.cb.requests)
    (hsrc : ∀ n, src = .own n → s.toParties.Mentions n) : (s.follow p).Inv := by
  refine ⟨hsel.known h.known, h.numbered.mono hnext fun n hn => ?_, hordered⟩
  cases hn with
  | source hs => exact .source (hsel.source.symm.trans hs)
  | requested r hr hn => exact .requested r (hreq r hr) hn
  | cancelled hc =>
    change _ ∈ p.events at hc
    rw [hsel.events, Compositor.announcement] at hc
    simp only [List.mem_append, List.mem_singleton, mem_introduce] at hc
    rcases hc with hc | (hc | hc | ⟨_, _, hc⟩) | hc
    · exact .cancelled hc
    · obtain ⟨m, hm, hselected⟩ := Compositor.mem_cancels hc
      cases hm
      exact .selected hselected
    · cases hc
    · cases hc
    · cases hc
  | selected hs => exact hsrc n (Option.some.inj (hsel.selection.symm.trans hs))

theorem select_events (q : Parties) (src : Source) :
    (q.select src).events =
      q.events ++ q.compositor.announcement (q.compositor.mimeTypes src) := by
  simp only [Parties.select, Compositor.announcement, Compositor.cancels]
  rfl

theorem select_selects (s : Watched) (q : Parties) (src : Source) (hev : q.events = s.events)
    (hoffer : q.compositor.nextOffer = s.compositor.nextOffer)
    (hoffers : q.compositor.offers = s.compositor.offers)
    (hselection : q.compositor.selection = s.compositor.selection)
    (halive : ∀ n, q.compositor.alive (.own n) = s.compositor.alive (.own n))
    (hrec : q.cb.records = s.cb.records) (hsource : q.cb.source = s.cb.source)
    (hflag : q.cb.settingFromRdp = s.cb.settingFromRdp)
    (hread : q.cb.reading = s.cb.reading) :
    Selects s (q.select src) src (q.compositor.mimeTypes src) := by
  refine ⟨?_, rfl, ?_, ?_, rfl, halive, hrec, hsource, hflag, hread⟩
  · have hcancels : q.compositor.cancels = s.compositor.cancels := by
      simp only [Compositor.cancels]
      rw [hselection]
      split
      · rw [halive]
      · rfl
    rw [select_events, hev, Compositor.announcement, Compositor.announcement, hcancels, hoffer]
  · exact congrArg (· + 1) hoffer
  · change Function.update q.compositor.offers q.compositor.nextOffer _ = _
    rw [hoffer, hoffers]

/-- The compositor selects the session's source. -/
theorem Watched.Inv.select (h : s.Inv) (hreq : s.cb.requests = .setSelection n :: rest) :
    (s.follow (Parties.select { s.toParties with cb := { s.cb with requests := rest } }
      (.own n))).Inv := by
  have hsel := select_selects s { s.toParties with cb := { s.cb with requests := rest } } (.own n)
    rfl rfl rfl rfl (fun _ => rfl) rfl rfl rfl rfl
  refine h.selects hsel (h.ordered.select h.known hsel hreq) rfl (fun r hr => ?_) fun m hm => ?_
  · exact hreq ▸ List.mem_cons_of_mem _ hr
  · cases hm
    exact .requested _ (hreq ▸ List.mem_cons_self) rfl

/-- Another client sets the selection. -/
theorem Watched.Inv.otherSelects (h : s.Inv)
    (ho : s.orderly (.party (.otherSelects mimeTypes)) = true) :
    (s.follow (s.toParties.otherSelects mimeTypes)).Inv := by
  have halive (n : Nat) : Function.update s.compositor.alive (.foreign s.compositor.nextForeign)
      true (.own n) = s.compositor.alive (.own n) := by
    apply Function.update_of_ne
    nofun
  have hsel := select_selects s { s.toParties with
      compositor := { s.compositor with
        mimeTypes := Function.update s.compositor.mimeTypes
          (.foreign s.compositor.nextForeign) mimeTypes
        alive := Function.update s.compositor.alive (.foreign s.compositor.nextForeign) true
        nextForeign := s.compositor.nextForeign + 1 } }
    (.foreign s.compositor.nextForeign) rfl rfl rfl rfl halive rfl rfl rfl rfl
  dsimp only at hsel
  rw [Function.update_self] at hsel
  refine h.selects hsel (h.ordered.otherSelects h.known hsel rfl ?_) rfl (fun _ hr => hr) nofun
  simpa [Watched.orderly] using ho

/-- Another client sets the primary selection. -/
theorem Watched.Inv.otherPrimary (h : s.Inv) (mimeTypes : List String) :
    (s.follow (s.toParties.otherPrimary mimeTypes)).Inv := by
  have hintroduces : Introduces s.compositor.nextOffer mimeTypes
      (.primarySelection (some s.compositor.nextOffer))
      (Parties.introduce s.compositor.nextOffer mimeTypes ++
        [.primarySelection (some s.compositor.nextOffer)]) := ⟨⟨[], rfl, nofun⟩, rfl⟩
  have hcalm : ∀ e ∈ Parties.introduce s.compositor.nextOffer mimeTypes ++
      [.primarySelection (some s.compositor.nextOffer)], e.calm = true := by
    intro e he
    rcases List.mem_append.1 he with he | he
    · rcases mem_introduce.1 he with rfl | ⟨_, _, rfl⟩ <;> rfl
    · rw [List.mem_singleton.1 he]
      rfl
  have hcb : Undisturbed s.cb (s.toParties.otherPrimary mimeTypes).cb [] :=
    ⟨rfl, nofun, rfl, rfl, rfl⟩
  have hsteady : s.compositor.Steady (s.toParties.otherPrimary mimeTypes).compositor [] :=
    ⟨fun _ _ hn => hn.resolve_right nofun, fun _ _ hn => hn, fun _ hn => hn⟩
  refine ⟨h.known.introduced rfl hintroduces nofun rfl rfl rfl, ?_,
    h.ordered.calm h.known hcb hsteady rfl hcalm⟩
  apply h.numbered.undisturbed hcb rfl (fun n hn => .selected hn)
  intro n hn
  rcases List.mem_append.1 hn with hn | hn
  · exact .cancelled hn
  · cases hcalm _ hn

/-! ### The session -/

theorem Watched.Inv.setText (h : s.Inv) (hidle : s.cb.reading = none)
    (ho : s.orderly (.party (.setText text malloc)) = true) :
    (s.follow { s.toParties with cb := clipboardSetText s.cb text malloc }).Inv := by
  have hset := clipboardSetText_cases s.cb text malloc
  have hrecords : (clipboardSetText s.cb text malloc).records = s.cb.records := by
    generalize clipboardSetText s.cb text malloc = cb' at hset
    cases hset with
    | ignored => rfl
    | failed _ _ _ _ _ _ hrec => exact hrec
    | done _ _ _ _ _ _ hrec => exact hrec
  refine ⟨h.known.kept (fun _ he => .inl he) rfl (fun _ => .inl rfl) fun o => ?_,
    h.numbered.setText rfl rfl hset, h.ordered.setText h.known h.numbered rfl rfl hset hidle ho⟩
  exact .inl (congrFun hrecords o)

theorem Watched.Inv.dispatch (h : s.Inv) (hidle : s.cb.reading = none)
    (hev : s.events = event :: rest) (r : DispatchTurn) :
    (s.follow (s.toParties.dispatch r)).Inv := by
  have hfields : (s.toParties.dispatch r).events = rest ∧
      (s.toParties.dispatch r).compositor = s.compositor ∧
        (s.toParties.dispatch r).cb = clipboardDispatch s.cb event s.nextPipe r := by
    rw [Parties.dispatch, hev]
    dsimp only
    split
    · split <;> exact ⟨rfl, rfl, rfl⟩
    · exact ⟨rfl, rfl, rfl⟩
  obtain ⟨hrest, hcomp, hcb⟩ := hfields
  have hd := clipboardDispatch_dispatched s.cb event s.nextPipe r
  rw [← hrest] at hev
  rw [← hcb] at hd
  refine ⟨h.known.dispatched hev hcomp fun o => ?_, h.numbered.dispatched hev hcomp hd,
    h.ordered.dispatched h.known hev hcomp hidle hd⟩
  rw [hcb]
  exact dispatch_records s.cb event s.nextPipe r o

theorem Watched.Inv.readCompletes (h : s.Inv) (hread : s.cb.reading = some rd)
    (text : List UInt8) : (s.follow (s.toParties.readCompletes text)).Inv := by
  have hstep : s.toParties.readCompletes text =
      { s.toParties with cb := readDone s.cb { rd with buf := text } } := by
    rw [Parties.readCompletes, hread]
  have hidle := readDone_idle s.cb { rd with buf := text }
  obtain ⟨hflag, hdone⟩ := readDone_flag s.cb { rd with buf := text }
  rw [hstep]
  exact ⟨h.known.kept (fun _ he => .inl he) rfl (fun _ => .inl rfl) (readDone_records s.cb _),
    h.numbered.idle (fun _ he => he) rfl hidle,
    h.ordered.readCompletes h.known rfl hread hidle hflag hdone⟩

/-! ### Whole runs -/

theorem Watched.Inv.compositorStep (h : s.Inv) (keep : Bool) :
    (s.follow (s.toParties.compositorStep keep)).Inv := by
  simp only [Parties.compositorStep]
  split
  · exact h.posted rfl (.refl _) rfl (fun _ => rfl) (List.append_nil _).symm nofun
  · next r rest hreq =>
    cases r with
    | setSelection n => exact h.select hreq
    | _ => exact h.handled hreq rfl keep

theorem Watched.Inv.step (h : s.Inv) (he : s.admits e = true) (ho : s.orderly e = true) :
    (s.step e).Inv := by
  have hsingle (e : WlEvent) (hcalm : e.calm = true) (ho : e.offer? = none) :
      ∀ e' ∈ [e], e'.calm = true ∧ e'.offer? = none := by
    intro e' he'
    rw [List.mem_singleton.1 he']
    exact ⟨hcalm, ho⟩
  cases e with
  | readCompletes text =>
    have hreading := (Bool.and_eq_true_iff.1 he).1
    obtain ⟨rd, hrd⟩ := Option.isSome_iff_exists.1 hreading
    exact h.readCompletes hrd text
  | party e =>
    obtain ⟨he, hreads⟩ := Bool.and_eq_true_iff.1 he
    cases e with
    | setText text malloc => exact h.setText (Option.isNone_iff_eq_none.1 he) ho
    | dispatch r =>
      obtain ⟨hidle, hevents⟩ := Bool.and_eq_true_iff.1 he
      cases hev : s.events with
      | nil =>
        rw [hev] at hevents
        cases hevents
      | cons event rest => exact h.dispatch (Option.isNone_iff_eq_none.1 hidle) hev r
    | readReturned => cases hreads
    | readEnded => cases hreads
    | compositor keep => exact h.compositorStep keep
    | otherSelects mimeTypes => exact h.otherSelects ho
    | otherClears =>
      change (s.follow s.toParties.otherClears).Inv
      simp only [Parties.otherClears]
      split
      · next n hsel =>
        refine h.posted rfl ⟨fun m _ hm => ?_, fun m _ hm => ?_, nofun⟩ rfl (fun _ => rfl) rfl
          (hsingle _ rfl rfl)
        · change Function.update s.compositor.alive (.foreign n) false (.own m) = true
          have hother : Source.own m ≠ .foreign n := nofun
          rw [Function.update_of_ne hother]
          exact hm.resolve_right nofun
        · cases hsel.symm.trans hm
      · exact h.posted rfl (.refl _) rfl (fun _ => rfl) (List.append_nil _).symm nofun
    | otherPrimary mimeTypes => exact h.otherPrimary mimeTypes
    | otherReceives mimeType =>
      change (s.follow (s.toParties.otherReceives mimeType)).Inv
      simp only [Parties.otherReceives]
      split
      · exact h.posted rfl (.refl _) rfl (fun _ => rfl) rfl (hsingle _ rfl rfl)
      · exact h.posted rfl (.refl _) rfl (fun _ => rfl) (List.append_nil _).symm nofun
    | otherWrites => exact h.posted rfl (.refl _) rfl (fun _ => rfl) (List.append_nil _).symm nofun
    | otherCloses => exact h.posted rfl (.refl _) rfl (fun _ => rfl) (List.append_nil _).symm nofun
    | seatRemoved => exact h.posted rfl (.refl _) rfl (fun _ => rfl) rfl (hsingle _ rfl rfl)

/-! ### Echoes -/

theorem readDone_changes (cb : Clipboard) (rd : Reading) (h : rd.buf ≠ []) :
    (readDone cb rd).changes =
      if cb.settingFromRdp then cb.changes else cb.changes ++ [rd.buf] := by
  simp only [readDone]
  rw [if_neg h]
  rfl

theorem mark_own (h : mark origins (.selection (some o)) = some .own) :
    ∃ n text, origins o = some ⟨.own n, text⟩ := by
  simp only [mark] at h
  cases ho : origins o with
  | none =>
    simp only [ho] at h
    cases h
  | some origin =>
    obtain ⟨source, text⟩ := origin
    cases source with
    | own n => exact ⟨n, text, rfl⟩
    | foreign n => cases text <;> simp only [ho] at h <;> cases h

theorem mark_other (h : mark origins (.selection (some o)) = some .other) :
    ∃ n text, origins o = some ⟨.foreign n, text⟩ := by
  simp only [mark] at h
  cases ho : origins o with
  | none =>
    simp only [ho] at h
    cases h
  | some origin =>
    obtain ⟨source, text⟩ := origin
    cases source with
    | own n =>
      simp only [ho] at h
      cases h
    | foreign n => exact ⟨n, text, rfl⟩

/-- In order, the flag suppresses the session's own selections and no others. -/
theorem Watched.Inv.echoFree (h : s.Inv) (he : s.admits e = true) : s.echoFree e = true := by
  cases e with
  | party => rfl
  | readCompletes text =>
    obtain ⟨rd, hrd⟩ := Option.isSome_iff_exists.1 (Bool.and_eq_true_iff.1 he).1
    by_cases htext : text = []
    · rw [htext]
      rfl
    · have hchanges : (s.toParties.readCompletes text).cb.changes =
          if s.cb.settingFromRdp then s.cb.changes else s.cb.changes ++ [text] := by
        rw [Parties.readCompletes, hrd]
        exact readDone_changes s.cb { rd with buf := text } htext
      rw [Watched.echoFree, hchanges]
      cases hup : s.cb.settingFromRdp with
      | true =>
        obtain ⟨n, _, hreqd | hdel⟩ := h.ordered.armed hup
        · cases hreqd.idle.symm.trans hrd
        · obtain ⟨m, _, horigin⟩ := mark_own (hdel.read rd hrd)
          have hno : s.readsOther = false := by
            simp only [Watched.readsOther, hrd, Option.any_some, horigin]
          simp [hno]
      | false =>
        obtain ⟨m, _, horigin⟩ := mark_other ((h.ordered.disarmed hup).read rd hrd)
        have hyes : s.readsOther = true := by
          simp only [Watched.readsOther, hrd, Option.any_some, horigin]
        simp [hyes]

/-- In a run whose texts and selections come in order, every text that is read is passed on
exactly if another client set the selection. -/
theorem echo_free (hl : watched.Legal .start es)
    (ho : watched.Along (fun s e => s.orderly e = true) .start es) :
    watched.Along (fun s e => s.echoFree e = true) .start es :=
  System.along_of_step (I := Watched.Inv) (fun _ _ h he => h.step he.1 he.2)
    (fun _ _ h he => h.echoFree he.1) .start (System.Along.and hl ho)

/-! ### A text that is set while another is on its way -/

/-- The session handles the events that announce a selection with text, and reads it. -/
def announcedRead (text : List UInt8) : List WatchedEvent :=
  List.replicate 3 (.party (.dispatch ⟨true, true, true, 0⟩)) ++ [.readCompletes text]

/-- The compositor handles the three requests of a text set from RDP. -/
def textSelected : List WatchedEvent := List.replicate 3 (.party (.compositor false))

theorem texts_in_order :
    watched.Along (fun s e => s.echoFree e = true) .start
      ([.party (.setText [104, 105] true)] ++ textSelected ++ announcedRead [104, 105] ++
        [.party (.otherSelects [clipboardMimeType]), .party (.compositor false),
          .party (.dispatch ⟨true, true, true, 0⟩)] ++ announcedRead [111, 107]) :=
  echo_free (by decide) (by decide)

/-- Another client's text is on its way when one is set from RDP: the former is suppressed, and
the latter is passed on to where it came from. -/
theorem crossing_texts_confused :
    watched.Legal .start ([.party (.otherSelects [clipboardMimeType]),
        .party (.setText [104, 105] true)] ++ textSelected ++ announcedRead [111, 107]) ∧
      ¬ watched.Along (fun s e => s.echoFree e = true) .start
        ([.party (.otherSelects [clipboardMimeType]), .party (.setText [104, 105] true)] ++
          textSelected ++ announcedRead [111, 107]) := by
  decide

end Wlrdp
