import Mathlib.Data.List.Basic
import Wlrdp.ClipboardEchoes

namespace Wlrdp
set_option autoImplicit true

variable {s : Watched} {p : Parties} {cb cb' : Clipboard} {rd : Reading}

/-! ### Offers and their origins -/

/-- New offers have new numbers, and the origin of every offer to be delivered as a selection is
on record, with a text if the session knows of one. -/
structure Known (s : Watched) : Prop where
  unused : ∀ o, s.compositor.nextOffer ≤ o →
    s.compositor.offers o = none ∧ s.origins o = none ∧ s.cb.records o = none
  named : ∀ e ∈ s.events, ∀ o, e.offer? = some o → o < s.compositor.nextOffer
  pending : ∀ o, .selection (some o) ∈ s.events → ∃ origin, s.origins o = some origin ∧
    (s.cb.records o = some true ∨ .offer o clipboardMimeType ∈ s.events → origin.text = true)

theorem Known.start : Known .start :=
  ⟨fun _ _ => ⟨rfl, rfl, rfl⟩, fun _ h => (by cases h), fun _ h => (by cases h)⟩

theorem follow_origins (h : s.origins o = some origin) :
    (s.follow p).origins o = some origin := by
  simp only [Watched.follow]
  simp only [h]

theorem follow_origins_none (h : s.origins o = none) (hp : p.compositor.offers o = none) :
    (s.follow p).origins o = none := by
  simp only [Watched.follow]
  simp only [h, hp, Option.map_none]

/-- A mark does not change. -/
theorem mark_follow_of_some (h : mark s.origins e = some m) :
    mark (s.follow p).origins e = some m := by
  simp only [mark] at h ⊢
  split at h
  · next o =>
    cases ho : s.origins o with
    | none =>
      rw [ho] at h
      cases h
    | some origin =>
      rw [ho] at h
      rw [follow_origins ho]
      exact h
  · cases h

theorem Known.mark_follow (h : Known s) (he : e ∈ s.events) :
    mark (s.follow p).origins e = mark s.origins e := by
  simp only [mark]
  split
  · next o =>
    obtain ⟨origin, ho, _⟩ := h.pending o he
    simp only [follow_origins ho, ho]
  · rfl

theorem Known.marks_follow {l : List WlEvent} (h : Known s) (hl : ∀ e ∈ l, e ∈ s.events) :
    l.filterMap (mark (s.follow p).origins) = l.filterMap (mark s.origins) := by
  apply List.filterMap_congr
  intro e he
  exact h.mark_follow (hl e he)

/-- Steps that make no offer. -/
theorem Known.kept (h : Known s) (hev : ∀ e ∈ p.events, e ∈ s.events ∨ e.offer? = none)
    (hnext : p.compositor.nextOffer = s.compositor.nextOffer)
    (hoff : ∀ o, p.compositor.offers o = s.compositor.offers o ∨ p.compositor.offers o = none)
    (hrec : ∀ o, p.cb.records o = s.cb.records o ∨ p.cb.records o = none) :
    Known (s.follow p) := by
  have hold : ∀ e o, e.offer? = some o → e ∈ p.events → e ∈ s.events := by
    intro e o ho he
    rcases hev e he with he | he
    · exact he
    · rw [he] at ho
      cases ho
  constructor
  · intro o ho
    obtain ⟨hoffer, horigin, hrecord⟩ := h.unused o (hnext ▸ ho)
    have hoffer' : p.compositor.offers o = none := (hoff o).elim (·.trans hoffer) id
    exact ⟨hoffer', follow_origins_none horigin hoffer', (hrec o).elim (·.trans hrecord) id⟩
  · intro e he o ho
    change o < p.compositor.nextOffer
    rw [hnext]
    exact h.named e (hold e o ho he) o ho
  · intro o ho
    obtain ⟨origin, horigin, htext⟩ := h.pending o (hold _ o rfl ho)
    refine ⟨origin, follow_origins horigin, fun hknown => htext ?_⟩
    rcases hknown with hrecord | hoffer
    · rcases hrec o with hsame | hnone
      · exact .inl (hsame.symm.trans hrecord)
      · cases hnone.symm.trans hrecord
    · exact .inr (hold _ o rfl hoffer)

/-- Handling an event. -/
theorem Known.dispatched (h : Known s) (hev : s.events = event :: p.events)
    (hcomp : p.compositor = s.compositor)
    (hrec : ∀ o, RecordStep s.cb event o (p.cb.records o)) : Known (s.follow p) := by
  have hmem : event ∈ s.events := hev ▸ List.mem_cons_self
  have hrest : ∀ e ∈ p.events, e ∈ s.events := fun e he => hev ▸ List.mem_cons_of_mem _ he
  constructor
  · intro o ho
    change p.compositor.nextOffer ≤ o at ho
    rw [hcomp] at ho
    obtain ⟨hoffer, horigin, hrecord⟩ := h.unused o ho
    have hoffer' : p.compositor.offers o = none := by rw [hcomp, hoffer]
    refine ⟨hoffer', follow_origins_none horigin hoffer', ?_⟩
    change p.cb.records o = none
    have hstep := hrec o
    generalize p.cb.records o = record at hstep
    cases hstep with
    | kept => exact hrecord
    | dropped => rfl
    | made he => exact absurd (h.named event hmem o (by rw [he]; rfl)) (Nat.not_lt.2 ho)
    | told he => exact absurd (h.named event hmem o (by rw [he]; rfl)) (Nat.not_lt.2 ho)
  · intro e he o ho
    change o < p.compositor.nextOffer
    rw [hcomp]
    exact h.named e (hrest e he) o ho
  · intro o ho
    obtain ⟨origin, horigin, htext⟩ := h.pending o (hrest _ ho)
    refine ⟨origin, follow_origins horigin, fun hknown => htext ?_⟩
    rcases hknown with hrecord | hoffer
    · change p.cb.records o = some true at hrecord
      have hstep := hrec o
      generalize p.cb.records o = record at hstep hrecord
      cases hstep with
      | kept => exact .inl hrecord
      | dropped => cases hrecord
      | made => cases hrecord
      | told he => exact .inr (he ▸ hmem)
    · exact .inr (hrest _ hoffer)

theorem mem_introduce : e ∈ Parties.introduce o mimeTypes ↔
    e = .dataOffer o ∨ ∃ mimeType ∈ mimeTypes, e = .offer o mimeType := by
  rw [Parties.introduce, List.mem_cons, List.mem_map]
  simp only [eq_comm]

/-- The events that come with a new offer: others first, then those that introduce and use it. -/
structure Introduces (o : Nat) (mimeTypes : List String) (last : WlEvent)
    (events : List WlEvent) : Prop where
  split : ∃ before, events = before ++ Parties.introduce o mimeTypes ++ [last] ∧
    ∀ e ∈ before, e.offer? = none
  used : last.offer? = some o

theorem Introduces.mem (h : Introduces o mimeTypes last events) (he : e ∈ events) :
    e.offer? = none ∨ e = .dataOffer o ∨ (∃ mimeType ∈ mimeTypes, e = .offer o mimeType) ∨
      e = last := by
  obtain ⟨before, rfl, hbefore⟩ := h.split
  rcases List.mem_append.1 he with he | he
  · rcases List.mem_append.1 he with he | he
    · exact .inl (hbefore e he)
    · rcases mem_introduce.1 he with he | he
      · exact .inr (.inl he)
      · exact .inr (.inr (.inl he))
  · exact .inr (.inr (.inr (List.mem_singleton.1 he)))

theorem Introduces.offer (h : Introduces o mimeTypes last events) (he : e ∈ events) :
    e.offer? = none ∨ e.offer? = some o := by
  rcases h.mem he with he | rfl | ⟨_, _, rfl⟩ | rfl
  · exact .inl he
  · exact .inr rfl
  · exact .inr rfl
  · exact .inr h.used

/-- The compositor makes an offer of a source, for a selection or for a primary one. -/
theorem Known.introduced (h : Known s) (hev : p.events = s.events ++ events)
    (hi : Introduces s.compositor.nextOffer mimeTypes last events)
    (hmimes : last = .selection (some s.compositor.nextOffer) →
      clipboardMimeType ∈ mimeTypes → clipboardMimeType ∈ p.compositor.mimeTypes source)
    (hnext : p.compositor.nextOffer = s.compositor.nextOffer + 1)
    (hoff : p.compositor.offers =
      Function.update s.compositor.offers s.compositor.nextOffer (some source))
    (hrec : p.cb.records = s.cb.records) : Known (s.follow p) := by
  have hmem : ∀ e ∈ p.events, e ∈ s.events ∨ e ∈ events :=
    fun e he => List.mem_append.1 (hev ▸ he)
  have hnew : (s.follow p).origins s.compositor.nextOffer =
      some ⟨source, clipboardMimeType ∈ p.compositor.mimeTypes source⟩ := by
    simp only [Watched.follow]
    simp only [(h.unused _ (Nat.le_refl _)).2.1, hoff, Function.update_self, Option.map_some]
  constructor
  · intro o ho
    change p.compositor.nextOffer ≤ o at ho
    rw [hnext] at ho
    obtain ⟨hoffer, horigin, hrecord⟩ := h.unused o (Nat.le_of_succ_le ho)
    have hoffer' : p.compositor.offers o = none := by
      rw [hoff, Function.update_of_ne (Nat.ne_of_gt ho), hoffer]
    refine ⟨hoffer', follow_origins_none horigin hoffer', ?_⟩
    change p.cb.records o = none
    rw [hrec, hrecord]
  · intro e he o ho
    change o < p.compositor.nextOffer
    rw [hnext]
    rcases hmem e he with he | he
    · exact Nat.lt_succ_of_lt (h.named e he o ho)
    · rcases hi.offer he with he | he
      · cases he.symm.trans ho
      · cases he.symm.trans ho
        exact Nat.lt_succ_self _
  · intro o ho
    by_cases hfresh : o = s.compositor.nextOffer
    · subst hfresh
      refine ⟨_, hnew, fun hknown => decide_eq_true ?_⟩
      have hused : last = .selection (some s.compositor.nextOffer) := by
        rcases hmem _ ho with he | he
        · exact absurd (h.named _ he _ rfl) (Nat.lt_irrefl _)
        · rcases hi.mem he with he | he | ⟨_, _, he⟩ | he
          · cases he
          · cases he
          · cases he
          · exact he.symm
      apply hmimes hused
      rcases hknown with hrecord | hoffer
      · change p.cb.records s.compositor.nextOffer = some true at hrecord
        rw [hrec, (h.unused _ (Nat.le_refl _)).2.2] at hrecord
        cases hrecord
      · rcases hmem _ hoffer with he | he
        · exact absurd (h.named _ he _ rfl) (Nat.lt_irrefl _)
        · rcases hi.mem he with he | he | ⟨_, hin, he⟩ | he
          · cases he
          · cases he
          · cases he
            exact hin
          · cases he.trans hused
    · have hold : ∀ e, e.offer? = some o → e ∈ p.events → e ∈ s.events := by
        intro e ho he
        rcases hmem e he with he | he
        · exact he
        · rcases hi.offer he with he | he
          · cases he.symm.trans ho
          · exact absurd (Option.some.inj (ho.symm.trans he)) hfresh
      obtain ⟨origin, horigin, htext⟩ := h.pending o (hold _ rfl ho)
      refine ⟨origin, follow_origins horigin, fun hknown => htext ?_⟩
      rcases hknown with hrecord | hoffer
      · refine .inl ?_
        rw [← hrec]
        exact hrecord
      · exact .inr (hold _ rfl hoffer)

/-! ### The sources of the session -/

def WlRequest.source? : WlRequest → Option Nat
  | .createSource n | .offer n _ | .setSelection n | .destroySource n => some n
  | _ => none

/-- Where a number of a source of the session occurs. -/
inductive Parties.Mentions (p : Parties) (n : Nat) : Prop
  | source (h : p.cb.source = some n)
  | requested (r : WlRequest) (h : r ∈ p.cb.requests) (hn : r.source? = some n)
  | cancelled (h : .cancelled n ∈ p.events)
  | selected (h : p.compositor.selection = some (.own n))

/-- New sources have new numbers. -/
def Parties.Numbered (p : Parties) : Prop := ∀ n, p.Mentions n → n < p.cb.nextSource

theorem Parties.Numbered.mono {p' : Parties} (h : p.Numbered)
    (hnext : p'.cb.nextSource = p.cb.nextSource) (hm : ∀ n, p'.Mentions n → p.Mentions n) :
    p'.Numbered := by
  intro n hn
  rw [hnext]
  exact h n (hm n hn)

/-! ### What the flag stands for -/

/-- The compositor has selected the session's source, and will tell when it is replaced. -/
structure Parties.Standing (p : Parties) (n : Nat) : Prop where
  selected : p.compositor.selection = some (.own n)
  alive : p.compositor.alive (.own n) = true
  kept : .destroySource n ∉ p.cb.requests

/-- The session's selection is on its way to the compositor, with nothing else to be read. -/
structure Watched.Requested (s : Watched) (n : Nat) : Prop where
  queue : ∃ before after, s.cb.requests = before ++ .setSelection n :: after ∧
    (∀ r ∈ before ++ after, r.selects = false ∧ r ≠ .destroySource n) ∧
      (s.compositor.alive (.own n) = true ∨ .createSource n ∈ before)
  unselected : s.compositor.selection ≠ some (.own n)
  uncancelled : .cancelled n ∉ s.events
  unmarked : s.marks = []
  idle : s.cb.reading = none

/-- Of the events up to the cancellation of the source, if there is one, the session's selection
is the only one to be read; behind it there is none of the session. -/
structure Watched.Split (s : Watched) (n : Nat) (front back : List WlEvent) : Prop where
  events : s.events = front ++ back
  uncancelled : .cancelled n ∉ front
  ahead : front.filterMap (mark s.origins) = [] ∨
    s.cb.reading = none ∧ front.filterMap (mark s.origins) = [.own]
  behind : .own ∉ back.filterMap (mark s.origins)
  boundary : back = [] ∧ s.toParties.Standing n ∨ ∃ rest, back = .cancelled n :: rest

/-- The session's selection is delivered, is being read, or could not be read. -/
structure Watched.Delivered (s : Watched) (n : Nat) : Prop where
  requests : ∀ r ∈ s.cb.requests, r.selects = false
  read : ∀ rd, s.cb.reading = some rd →
    mark s.origins (.selection (some rd.offer)) = some .own
  split : ∃ front back, s.Split n front back

/-- No selection of the session is on its way. -/
structure Watched.Disarmed (s : Watched) : Prop where
  requests : ∀ r ∈ s.cb.requests, r.selects = false
  read : ∀ rd, s.cb.reading = some rd →
    mark s.origins (.selection (some rd.offer)) = some .other
  marks : .own ∉ s.marks

/-- `setting_from_rdp` says whether the next selection to be read is the session's. -/
structure Watched.Ordered (s : Watched) : Prop where
  armed : s.cb.settingFromRdp = true →
    ∃ n, s.cb.source = some n ∧ (s.Requested n ∨ s.Delivered n)
  disarmed : s.cb.settingFromRdp = false → s.Disarmed

theorem Watched.Ordered.start : Watched.start.Ordered :=
  ⟨nofun, fun _ => ⟨nofun, nofun, nofun⟩⟩

/-- Events that neither deliver a selection nor cancel a source. -/
def WlEvent.calm : WlEvent → Bool
  | .selection (some _) | .cancelled _ => false
  | _ => true

theorem mark_calm (h : e.calm = true) : mark origins e = none := by
  cases e with
  | selection offer =>
    cases offer with
    | none => rfl
    | some => cases h
  | _ => rfl

theorem filterMap_calm {events : List WlEvent} (h : ∀ e ∈ events, e.calm = true) :
    events.filterMap (mark origins) = [] :=
  List.filterMap_eq_nil_iff.2 fun e he => mark_calm (h e he)

theorem cancelled_not_calm {events : List WlEvent} (h : ∀ e ∈ events, e.calm = true) :
    .cancelled n ∉ events := by
  intro hn
  cases h _ hn

/-- What the session holds stays as it is, but for requests at the head that are handled. -/
structure Undisturbed (cb cb' : Clipboard) (handled : List WlRequest) : Prop where
  requests : cb.requests = handled ++ cb'.requests
  quiet : ∀ r ∈ handled, r.selects = false
  source : cb'.source = cb.source
  flag : cb'.settingFromRdp = cb.settingFromRdp
  reading : cb'.reading = cb.reading

/-- The compositor stays as it is for a source of the session that it is not asked to destroy. -/
structure Compositor.Steady (c c' : Compositor) (handled : List WlRequest) : Prop where
  alive : ∀ n, .destroySource n ∉ handled →
    c.alive (.own n) = true ∨ .createSource n ∈ handled → c'.alive (.own n) = true
  selected : ∀ n, .destroySource n ∉ handled →
    c.selection = some (.own n) → c'.selection = some (.own n)
  unselected : ∀ n, c'.selection = some (.own n) → c.selection = some (.own n)

theorem Compositor.Steady.refl (c : Compositor) : c.Steady c [] :=
  ⟨fun _ _ h => h.resolve_right nofun, fun _ _ h => h, fun _ h => h⟩

theorem Undisturbed.requests_mem (h : Undisturbed cb cb' handled) (hr : r ∈ cb'.requests) :
    r ∈ cb.requests := by
  rw [h.requests]
  exact List.mem_append_right handled hr

theorem Known.read_follow (h : ∀ rd, s.cb.reading = some rd →
      mark s.origins (.selection (some rd.offer)) = some m)
    (hr : p.cb.reading = s.cb.reading) (rd : Reading) (hrd : (s.follow p).cb.reading = some rd) :
    mark (s.follow p).origins (.selection (some rd.offer)) = some m := by
  apply mark_follow_of_some
  exact h rd (hr.symm.trans hrd)

theorem handled_split {handled rest before after : List WlRequest}
    (h : handled ++ rest = before ++ r :: after) (hq : ∀ r ∈ handled, r.selects = false)
    (hr : r.selects = true) :
    ∃ before', before = handled ++ before' ∧ rest = before' ++ r :: after := by
  rcases List.append_eq_append_iff.1 h with ⟨before', hbefore, hrest⟩ | ⟨mid, hmid, hrest⟩
  · exact ⟨before', hbefore, hrest⟩
  · cases mid with
    | nil => exact ⟨[], by rw [hmid, List.append_nil, List.append_nil], hrest.symm⟩
    | cons r' mid =>
      cases hrest
      have hmem : r ∈ handled := hmid ▸ List.mem_append_right before List.mem_cons_self
      exact absurd hr (by rw [hq r hmem]; nofun)

theorem Watched.Requested.calm (h : s.Requested n) (hk : Known s)
    (hcb : Undisturbed s.cb p.cb handled) (hc : s.compositor.Steady p.compositor handled)
    (hev : p.events = s.events ++ events) (hcalm : ∀ e ∈ events, e.calm = true) :
    (s.follow p).Requested n := by
  obtain ⟨before, after, hqueue, hothers, halive⟩ := h.queue
  obtain ⟨before', rfl, hrest⟩ := handled_split (hcb.requests.symm.trans hqueue) hcb.quiet rfl
  have hkept : .destroySource n ∉ handled := fun hn =>
    (hothers _ (List.mem_append_left _ (List.mem_append_left _ hn))).2 rfl
  have halive' := hc.alive n hkept
  refine ⟨⟨before', after, hrest, fun r hr => hothers r ?_, ?_⟩, ?_, ?_, ?_,
    hcb.reading.trans h.idle⟩
  · rw [List.append_assoc]
    exact List.mem_append_right handled hr
  · rcases halive with halive | hcreate
    · exact .inl (halive' (.inl halive))
    · rcases List.mem_append.1 hcreate with hcreate | hcreate
      · exact .inl (halive' (.inr hcreate))
      · exact .inr hcreate
  · exact fun hn => h.unselected (hc.unselected n hn)
  · change _ ∉ p.events
    rw [hev, List.mem_append]
    exact fun hn => hn.elim h.uncancelled (cancelled_not_calm hcalm)
  · change p.events.filterMap _ = _
    rw [hev, List.filterMap_append, filterMap_calm hcalm, List.append_nil,
      hk.marks_follow fun _ he => he]
    exact h.unmarked

theorem Parties.Standing.calm {p' : Parties} (h : p.Standing n)
    (hcb : Undisturbed p.cb p'.cb handled) (hc : p.compositor.Steady p'.compositor handled) :
    p'.Standing n := by
  have hkept : .destroySource n ∉ handled := fun hn =>
    h.kept (hcb.requests ▸ List.mem_append_left _ hn)
  exact ⟨hc.selected n hkept h.selected, hc.alive n hkept (.inl h.alive),
    fun hn => h.kept (hcb.requests_mem hn)⟩

theorem Watched.Split.marks_follow (h : s.Split n front back) (hk : Known s) (p : Parties) :
    front.filterMap (mark (s.follow p).origins) = front.filterMap (mark s.origins) ∧
      back.filterMap (mark (s.follow p).origins) = back.filterMap (mark s.origins) := by
  constructor
  · apply hk.marks_follow
    intro e he
    exact h.events ▸ List.mem_append_left _ he
  · apply hk.marks_follow
    intro e he
    exact h.events ▸ List.mem_append_right _ he

theorem Watched.Delivered.calm (h : s.Delivered n) (hk : Known s)
    (hcb : Undisturbed s.cb p.cb handled) (hc : s.compositor.Steady p.compositor handled)
    (hev : p.events = s.events ++ events) (hcalm : ∀ e ∈ events, e.calm = true) :
    (s.follow p).Delivered n := by
  refine ⟨fun r hr => h.requests r (hcb.requests_mem hr), Known.read_follow h.read hcb.reading, ?_⟩
  obtain ⟨front, back, hsplit⟩ := h.split
  obtain ⟨hfront, hback⟩ := hsplit.marks_follow hk p
  have hreading : (s.follow p).cb.reading = s.cb.reading := hcb.reading
  rcases hsplit.boundary with ⟨rfl, hstanding⟩ | ⟨rest, rfl⟩
  · refine ⟨front ++ events, [], ?_, ?_, ?_, nofun, .inl ⟨rfl, hstanding.calm hcb hc⟩⟩
    · rw [List.append_nil]
      change p.events = _
      rw [hev, hsplit.events, List.append_nil]
    · rw [List.mem_append]
      exact fun hn => hn.elim hsplit.uncancelled (cancelled_not_calm hcalm)
    · rw [List.filterMap_append, filterMap_calm hcalm, List.append_nil, hfront, hreading]
      exact hsplit.ahead
  · refine ⟨front, .cancelled n :: rest ++ events, ?_, hsplit.uncancelled, ?_, ?_,
      .inr ⟨rest ++ events, rfl⟩⟩
    · change p.events = _
      rw [hev, hsplit.events, List.append_assoc]
    · rw [hfront, hreading]
      exact hsplit.ahead
    · rw [List.filterMap_append, filterMap_calm hcalm, List.append_nil, hback]
      exact hsplit.behind

/-- Steps of the others that set no selection. -/
theorem Watched.Ordered.calm (h : s.Ordered) (hk : Known s)
    (hcb : Undisturbed s.cb p.cb handled) (hc : s.compositor.Steady p.compositor handled)
    (hev : p.events = s.events ++ events) (hcalm : ∀ e ∈ events, e.calm = true) :
    (s.follow p).Ordered := by
  constructor
  · intro hflag
    obtain ⟨n, hsource, harmed⟩ := h.armed (hcb.flag.symm.trans hflag)
    refine ⟨n, hcb.source.trans hsource, ?_⟩
    exact harmed.imp (·.calm hk hcb hc hev hcalm) (·.calm hk hcb hc hev hcalm)
  · intro hflag
    have hd := h.disarmed (hcb.flag.symm.trans hflag)
    refine ⟨fun r hr => hd.requests r (hcb.requests_mem hr), Known.read_follow hd.read hcb.reading,
      ?_⟩
    change _ ∉ p.events.filterMap _
    rw [hev, List.filterMap_append, filterMap_calm hcalm, List.append_nil,
      hk.marks_follow fun _ he => he]
    exact hd.marks

/-! ### Selections -/

/-- What the compositor tells the session when the selection is replaced. -/
def Compositor.cancels (c : Compositor) : List WlEvent :=
  match c.selection with
  | some (.own n) => if c.alive (.own n) then [.cancelled n] else []
  | _ => []

theorem Compositor.mem_cancels {c : Compositor} (he : e ∈ c.cancels) :
    ∃ n, e = .cancelled n ∧ c.selection = some (.own n) := by
  simp only [Compositor.cancels] at he
  split at he
  · next n hn =>
    split at he
    · exact ⟨n, List.mem_singleton.1 he, hn⟩
    · cases he
  · cases he

theorem Parties.Standing.cancels (h : p.Standing n) : p.compositor.cancels = [.cancelled n] := by
  rw [Compositor.cancels, h.selected]
  exact if_pos h.alive

/-- The events of a new selection. -/
def Compositor.announcement (c : Compositor) (mimeTypes : List String) : List WlEvent :=
  c.cancels ++ Parties.introduce c.nextOffer mimeTypes ++ [.selection (some c.nextOffer)]

/-- A source is made the selection. -/
structure Selects (s : Watched) (p : Parties) (source : Source) (mimeTypes : List String) :
    Prop where
  events : p.events = s.events ++ s.compositor.announcement mimeTypes
  mimeTypes : p.compositor.mimeTypes source = mimeTypes
  nextOffer : p.compositor.nextOffer = s.compositor.nextOffer + 1
  offers : p.compositor.offers =
    Function.update s.compositor.offers s.compositor.nextOffer (some source)
  selection : p.compositor.selection = some source
  alive : ∀ n, p.compositor.alive (.own n) = s.compositor.alive (.own n)
  records : p.cb.records = s.cb.records
  source : p.cb.source = s.cb.source
  flag : p.cb.settingFromRdp = s.cb.settingFromRdp
  reading : p.cb.reading = s.cb.reading

theorem Compositor.announcement_introduces (c : Compositor) (mimeTypes : List String) :
    Introduces c.nextOffer mimeTypes (.selection (some c.nextOffer))
      (c.announcement mimeTypes) := by
  refine ⟨⟨c.cancels, rfl, fun e he => ?_⟩, rfl⟩
  obtain ⟨n, rfl, _⟩ := Compositor.mem_cancels he
  rfl

theorem Selects.known (h : Selects s p src mimes) (hk : Known s) : Known (s.follow p) :=
  hk.introduced h.events (s.compositor.announcement_introduces mimes)
    (fun _ hin => h.mimeTypes.symm ▸ hin) h.nextOffer h.offers h.records

/-- The mark of a new selection. -/
def Source.mark (mimeTypes : List String) : Source → Option Mark
  | .own _ => some .own
  | .foreign _ => if clipboardMimeType ∈ mimeTypes then some .other else none

theorem Selects.mark (h : Selects s p src mimes) (hk : Known s) :
    Wlrdp.mark (s.follow p).origins (.selection (some s.compositor.nextOffer)) =
      src.mark mimes := by
  have hnew : (s.follow p).origins s.compositor.nextOffer =
      some ⟨src, clipboardMimeType ∈ mimes⟩ := by
    simp only [Watched.follow]
    simp only [(hk.unused _ (Nat.le_refl _)).2.1, h.offers, Function.update_self, Option.map_some,
      h.mimeTypes]
  simp only [Wlrdp.mark]
  simp only [hnew]
  cases src with
  | own => rfl
  | foreign =>
    by_cases htext : clipboardMimeType ∈ mimes
    · simp only [Source.mark, htext, decide_true, if_true]
    · simp only [Source.mark, htext, decide_false, if_false]

/-- The events that introduce a selection have no other mark. -/
theorem Selects.filterMap (h : Selects s p src mimes) (hk : Known s) :
    (s.compositor.announcement mimes).filterMap (Wlrdp.mark (s.follow p).origins) =
      (src.mark mimes).toList := by
  have hcancels : s.compositor.cancels.filterMap (Wlrdp.mark (s.follow p).origins) = [] := by
    apply List.filterMap_eq_nil_iff.2
    intro e he
    obtain ⟨n, rfl, _⟩ := Compositor.mem_cancels he
    rfl
  have hintroduce : (Parties.introduce s.compositor.nextOffer mimes).filterMap
      (Wlrdp.mark (s.follow p).origins) = [] := by
    apply List.filterMap_eq_nil_iff.2
    intro e he
    rcases mem_introduce.1 he with rfl | ⟨_, _, rfl⟩ <;> rfl
  rw [Compositor.announcement, List.filterMap_append, List.filterMap_append, hcancels, hintroduce]
  simp only [List.nil_append, List.filterMap_cons, List.filterMap_nil, h.mark hk]
  cases src.mark mimes <;> rfl

theorem Selects.marks (h : Selects s p src mimes) (hk : Known s) :
    (s.follow p).marks = s.marks ++ (src.mark mimes).toList := by
  change p.events.filterMap _ = _
  rw [h.events, List.filterMap_append, h.filterMap hk, hk.marks_follow fun _ he => he]
  rfl

/-- A source that is not the selection is not cancelled. -/
theorem Selects.uncancelled (h : Selects s p src mimes)
    (hn : .cancelled n ∉ s.events) (hsel : s.compositor.selection ≠ some (.own n)) :
    .cancelled n ∉ p.events := by
  rw [h.events, Compositor.announcement, List.mem_append]
  rintro (he | he)
  · exact hn he
  · rcases List.mem_append.1 he with he | he
    · rcases List.mem_append.1 he with he | he
      · obtain ⟨m, hm, hselected⟩ := Compositor.mem_cancels he
        cases hm
        exact hsel hselected
      · rcases mem_introduce.1 he with he | ⟨_, _, he⟩ <;> cases he
    · cases List.mem_singleton.1 he

theorem foreign_mark (hm : m ∈ (Source.mark mimeTypes (.foreign k)).toList) : m = .other := by
  simp only [Source.mark] at hm
  split at hm
  · exact List.mem_singleton.1 hm
  · cases hm

theorem Watched.Delivered.otherSelects (h : s.Delivered n) (hk : Known s)
    (hsel : Selects s p (.foreign k) mimes) (hreq : p.cb.requests = s.cb.requests) :
    (s.follow p).Delivered n := by
  refine ⟨fun r hr => h.requests r (hreq ▸ hr), Known.read_follow h.read hsel.reading, ?_⟩
  obtain ⟨front, back, hsplit⟩ := h.split
  obtain ⟨hfront, hback⟩ := hsplit.marks_follow hk p
  have hreading : (s.follow p).cb.reading = s.cb.reading := hsel.reading
  refine ⟨front, back ++ s.compositor.announcement mimes, ?_, hsplit.uncancelled, ?_, ?_, .inr ?_⟩
  · change p.events = _
    rw [hsel.events, hsplit.events, List.append_assoc]
  · rw [hfront, hreading]
    exact hsplit.ahead
  · rw [List.filterMap_append, hback, hsel.filterMap hk, List.mem_append]
    exact fun hown => hown.elim hsplit.behind fun hown => nomatch foreign_mark hown
  · rcases hsplit.boundary with ⟨rfl, hstanding⟩ | ⟨rest, rfl⟩
    · rw [Compositor.announcement, hstanding.cancels]
      exact ⟨_, rfl⟩
    · exact ⟨_, rfl⟩

/-- Another client sets the selection. -/
theorem Watched.Ordered.otherSelects (h : s.Ordered) (hk : Known s)
    (hsel : Selects s p (.foreign k) mimes) (hreq : p.cb.requests = s.cb.requests)
    (hquiet : clipboardMimeType ∉ mimes ∨ s.selecting = false) : (s.follow p).Ordered := by
  constructor
  · intro hflag
    obtain ⟨n, hsource, hreqd | hdel⟩ := h.armed (hsel.flag.symm.trans hflag)
    · refine ⟨n, hsel.source.trans hsource, .inl ?_⟩
      obtain ⟨before, after, hqueue, hothers, halive⟩ := hreqd.queue
      have hselecting : s.selecting = true := by
        apply List.any_eq_true.2
        exact ⟨.setSelection n, hqueue ▸ List.mem_append_right _ List.mem_cons_self, rfl⟩
      have htext : clipboardMimeType ∉ mimes := by
        apply hquiet.resolve_right
        intro hno
        cases hselecting.symm.trans hno
      refine ⟨⟨before, after, hreq.trans hqueue, hothers, ?_⟩, ?_, ?_, ?_,
        hsel.reading.trans hreqd.idle⟩
      · change p.compositor.alive (.own n) = true ∨ _
        rw [hsel.alive]
        exact halive
      · change p.compositor.selection ≠ _
        rw [hsel.selection]
        nofun
      · exact hsel.uncancelled hreqd.uncancelled hreqd.unselected
      · rw [hsel.marks hk, hreqd.unmarked]
        simp only [Source.mark, if_neg htext, Option.toList_none, List.append_nil]
    · exact ⟨n, hsel.source.trans hsource, .inr (hdel.otherSelects hk hsel hreq)⟩
  · intro hflag
    have hd := h.disarmed (hsel.flag.symm.trans hflag)
    refine ⟨fun r hr => hd.requests r (hreq ▸ hr), Known.read_follow hd.read hsel.reading, ?_⟩
    rw [hsel.marks hk, List.mem_append]
    exact fun hown => hown.elim hd.marks fun hown => nomatch foreign_mark hown

/-- The compositor selects the session's source. -/
theorem Watched.Ordered.select (h : s.Ordered) (hk : Known s) (hsel : Selects s p (.own m) mimes)
    (hreq : s.cb.requests = .setSelection m :: p.cb.requests) : (s.follow p).Ordered := by
  have hhead : .setSelection m ∈ s.cb.requests := hreq ▸ List.mem_cons_self
  cases hflag : s.cb.settingFromRdp with
  | false => cases (h.disarmed hflag).requests _ hhead
  | true =>
    obtain ⟨n, hsource, hreqd | hdel⟩ := h.armed hflag
    · obtain ⟨before, after, hqueue, hothers, halive⟩ := hreqd.queue
      cases before with
      | cons r before =>
        obtain ⟨rfl, _⟩ := List.cons.inj (hqueue.symm.trans hreq)
        cases (hothers (.setSelection m) List.mem_cons_self).1
      | nil =>
        obtain ⟨hselect, rfl⟩ := List.cons.inj (hqueue.symm.trans hreq)
        cases hselect
        refine ⟨fun _ => ⟨m, hsel.source.trans hsource, .inr ?_⟩, fun hno => ?_⟩
        · refine ⟨fun r hr => (hothers r hr).1, ?_, p.events, [], ?_⟩
          · intro rd hrd
            cases (hsel.reading.trans hreqd.idle).symm.trans hrd
          · refine ⟨(List.append_nil _).symm, ?_, .inr ⟨hsel.reading.trans hreqd.idle, ?_⟩, nofun,
              .inl ⟨rfl, hsel.selection, ?_, ?_⟩⟩
            · exact hsel.uncancelled hreqd.uncancelled hreqd.unselected
            · change (s.follow p).marks = _
              rw [hsel.marks hk, hreqd.unmarked]
              rfl
            · change p.compositor.alive _ = true
              rw [hsel.alive]
              exact halive.resolve_right nofun
            · exact fun hdestroyed => (hothers _ hdestroyed).2 rfl
        · cases (hsel.flag.trans hflag).symm.trans hno
    · cases hdel.requests _ hhead

/-! ### Texts set from RDP -/

theorem mem_destroys {source : Option Nat}
    (hr : r ∈ (source.map WlRequest.destroySource).toList) :
    ∃ m, source = some m ∧ r = .destroySource m := by
  cases source with
  | none => cases hr
  | some m => exact ⟨m, rfl, List.mem_singleton.1 hr⟩

/-- A new source is created and asked to be selected while no other is on its way. -/
theorem Watched.Requested.setText (hn : s.toParties.Numbered) (hmarks : (s.follow p).marks = [])
    (hquiet : s.selecting = false) (hev : p.events = s.events)
    (hcomp : p.compositor = s.compositor) (hidle : p.cb.reading = none)
    (hreq : p.cb.requests = s.cb.requests ++ (s.cb.source.map .destroySource).toList ++
      [.createSource s.cb.nextSource, .offer s.cb.nextSource clipboardMimeType,
        .setSelection s.cb.nextSource]) : (s.follow p).Requested s.cb.nextSource := by
  have hfresh (hmem : s.toParties.Mentions s.cb.nextSource) : False :=
    Nat.lt_irrefl _ (hn _ hmem)
  refine ⟨⟨s.cb.requests ++ (s.cb.source.map .destroySource).toList ++
    [.createSource s.cb.nextSource, .offer s.cb.nextSource clipboardMimeType], [], ?_, ?_, ?_⟩,
    ?_, ?_, hmarks, hidle⟩
  · change p.cb.requests = _
    rw [hreq, List.append_assoc _ [_, _]]
    rfl
  · intro r hr
    rw [List.append_nil] at hr
    rcases List.mem_append.1 hr with hr | hr
    · rcases List.mem_append.1 hr with hr | hr
      · refine ⟨?_, fun hdestroy => hfresh (.requested r hr (by rw [hdestroy]; rfl))⟩
        apply Bool.eq_false_iff.2
        intro hsel
        exact Bool.false_ne_true (hquiet.symm.trans (List.any_eq_true.2 ⟨r, hr, hsel⟩))
      · obtain ⟨m, hm, rfl⟩ := mem_destroys hr
        refine ⟨rfl, fun hdestroy => hfresh (.source ?_)⟩
        cases hdestroy
        exact hm
    · simp only [List.mem_cons, List.not_mem_nil, or_false] at hr
      rcases hr with rfl | rfl <;> exact ⟨rfl, nofun⟩
  · exact .inr (List.mem_append_right _ List.mem_cons_self)
  · intro hsel
    change p.compositor.selection = _ at hsel
    rw [hcomp] at hsel
    exact hfresh (.selected hsel)
  · intro hc
    change _ ∈ p.events at hc
    rw [hev] at hc
    exact hfresh (.cancelled hc)

/-- A text is set from RDP. -/
theorem Watched.Ordered.setText (h : s.Ordered) (hk : Known s) (hn : s.toParties.Numbered)
    (hev : p.events = s.events) (hcomp : p.compositor = s.compositor)
    (hset : TextSet s.cb malloc p.cb) (hidle : s.cb.reading = none)
    (horderly : s.orderly (.party (.setText text malloc)) = true) : (s.follow p).Ordered := by
  have hmarks : (s.follow p).marks = s.marks := by
    change p.events.filterMap _ = _
    rw [hev]
    exact hk.marks_follow fun _ he => he
  generalize hcb : p.cb = cb' at hset
  cases hset with
  | ignored =>
    have hnothing : Undisturbed s.cb p.cb [] := by
      rw [hcb]
      exact ⟨rfl, nofun, rfl, rfl, rfl⟩
    have hsteady : s.compositor.Steady p.compositor [] := by
      rw [hcomp]
      exact .refl _
    exact h.calm hk hnothing hsteady (hev.trans (List.append_nil _).symm) nofun
  | failed hd hm hf hr hs _ _ hreq =>
    subst hcb hm
    have hoff : s.cb.settingFromRdp = false := by simpa [Watched.orderly, hd] using horderly
    have hdis := h.disarmed hoff
    refine ⟨fun hup => ?_, fun _ => ⟨fun r hr => ?_, fun rd hrd => ?_, ?_⟩⟩
    · cases (hf.trans hoff).symm.trans hup
    · rw [Watched.follow, hreq] at hr
      rcases List.mem_append.1 hr with hr | hr
      · exact hdis.requests r hr
      · obtain ⟨_, _, rfl⟩ := mem_destroys hr
        rfl
    · cases (hr.trans hidle).symm.trans hrd
    · rw [hmarks]
      exact hdis.marks
  | done hd hm hf hr hs _ _ hreq =>
    subst hcb hm
    have hquiet : s.marks = [] ∧ s.selecting = false := by
      simpa [Watched.orderly, hd] using horderly
    refine ⟨fun _ => ⟨s.cb.nextSource, hs, .inl ?_⟩, fun hno => ?_⟩
    · exact .setText hn (hmarks.trans hquiet.1) hquiet.2 hev hcomp (hr.trans hidle) hreq
    · cases hf.symm.trans hno

/-! ### Events and reads -/

theorem idle_requests (h : Idle cb cb') (hr : ∀ r ∈ cb.requests, r.selects = false) :
    ∀ r ∈ cb'.requests, r.selects = false := by
  obtain ⟨rs, hrs, hreq⟩ := h.requests
  intro r hmem
  rw [hreq] at hmem
  rcases List.mem_append.1 hmem with hmem | hmem
  · exact hr r hmem
  · have haside := hrs r hmem
    cases r with
    | setSelection => cases haside
    | _ => rfl

/-- A selection whose offer the session reads has a mark. -/
theorem Known.marked (h : Known s) (hev : s.events = .selection (some o) :: rest)
    (ht : s.cb.records o = some true) :
    mark s.origins (.selection (some o)) = some .own ∨
      mark s.origins (.selection (some o)) = some .other := by
  obtain ⟨⟨source, text⟩, horigin, htext⟩ := h.pending o (hev ▸ List.mem_cons_self)
  cases htext (.inl ht)
  simp only [mark]
  simp only [horigin]
  cases source with
  | own => exact .inl rfl
  | foreign => exact .inr rfl

/-- Where the head of the events lies. -/
theorem Watched.Split.head (h : s.Split n front back) (hev : s.events = event :: rest) :
    (∃ front', front = event :: front' ∧ rest = front' ++ back) ∨
      front = [] ∧ back = event :: rest ∧ event = .cancelled n := by
  cases front with
  | cons e front' =>
    obtain ⟨rfl, hrest⟩ := List.cons.inj (hev.symm.trans h.events)
    exact .inl ⟨front', rfl, hrest⟩
  | nil =>
    have hback : back = event :: rest := (hev.symm.trans h.events).symm
    rcases h.boundary with ⟨rfl, _⟩ | ⟨rest', rfl⟩
    · cases hback
    · exact .inr ⟨rfl, hback, (List.cons.inj hback).1.symm⟩

/-- Behind a selection of the session there is no other. -/
theorem Watched.Split.unread (h : s.Split n (event :: front) back)
    (he : mark s.origins event = some .own) :
    front.filterMap (mark s.origins) = [] ∧
      .own ∉ (front ++ back).filterMap (mark s.origins) := by
  have hahead := h.ahead
  rw [List.filterMap_cons_some he] at hahead
  have hfront : front.filterMap (mark s.origins) = [] :=
    hahead.elim nofun fun hone => (List.cons.inj hone.2).2
  refine ⟨hfront, ?_⟩
  rw [List.filterMap_append, hfront]
  exact h.behind

theorem Watched.Split.tail (h : s.Split n (event :: front) back) :
    front.filterMap (mark s.origins) = [] ∨
      s.cb.reading = none ∧ front.filterMap (mark s.origins) = [.own] := by
  have hahead := h.ahead
  cases hm : mark s.origins event with
  | none => rwa [List.filterMap_cons_none hm] at hahead
  | some m =>
    rw [List.filterMap_cons_some hm] at hahead
    exact .inl (hahead.elim nofun fun hone => (List.cons.inj hone.2).2)

/-- The session reads its own selection only, up to the cancellation of its source. -/
theorem Watched.Delivered.own (h : s.Delivered n) (hev : s.events = event :: rest)
    (hc : event ≠ .cancelled n)
    (hm : mark s.origins event = some .own ∨ mark s.origins event = some .other) :
    mark s.origins event = some .own ∧ .own ∉ rest.filterMap (mark s.origins) := by
  obtain ⟨front, back, hsplit⟩ := h.split
  obtain ⟨front', rfl, rfl⟩ := (hsplit.head hev).resolve_right fun hno => hc hno.2.2
  have hown : mark s.origins event = some .own := by
    apply hm.resolve_right
    intro hother
    have hahead := hsplit.ahead
    rw [List.filterMap_cons_some hother] at hahead
    exact hahead.elim nofun fun hone => nomatch (List.cons.inj hone.2).1
  exact ⟨hown, (hsplit.unread hown).2⟩

/-- Behind the cancellation of its source there is no selection of the session. -/
theorem Watched.Delivered.cancelled (h : s.Delivered n) (hev : s.events = .cancelled n :: rest) :
    .own ∉ rest.filterMap (mark s.origins) := by
  obtain ⟨front, back, hsplit⟩ := h.split
  rcases hsplit.head hev with ⟨front', rfl, _⟩ | ⟨_, rfl, _⟩
  · exact absurd List.mem_cons_self hsplit.uncancelled
  · exact hsplit.behind

theorem Watched.Requested.unread (h : s.Requested n) (hev : s.events = event :: rest)
    (hm : mark s.origins event = some .own ∨ mark s.origins event = some .other) : False := by
  have hnone := h.unmarked
  rw [Watched.marks, hev] at hnone
  have hhead := List.filterMap_eq_nil_iff.1 hnone event List.mem_cons_self
  rcases hm with hm | hm <;> cases hhead.symm.trans hm

/-- The session handles an event while it waits for its selection to be selected. -/
theorem Watched.Requested.dispatched (h : s.Requested n) (hk : Known s)
    (hev : s.events = event :: p.events) (hcomp : p.compositor = s.compositor)
    (hidle : Idle s.cb p.cb) (hr : p.cb.reading = none) : (s.follow p).Requested n := by
  obtain ⟨before, after, hqueue, hothers, halive⟩ := h.queue
  obtain ⟨rs, hrs, hreq⟩ := hidle.requests
  have hrest : ∀ e ∈ p.events, e ∈ s.events := fun e he => hev ▸ List.mem_cons_of_mem _ he
  refine ⟨⟨before, after ++ rs, ?_, fun r hmem => ?_, ?_⟩, ?_, ?_, ?_, hr⟩
  · change p.cb.requests = _
    rw [hreq, hqueue, List.append_assoc]
    rfl
  · rw [← List.append_assoc] at hmem
    rcases List.mem_append.1 hmem with hmem | hmem
    · exact hothers r hmem
    · have haside := hrs r hmem
      cases r with
      | setSelection => cases haside
      | destroySource => cases haside
      | _ => exact ⟨rfl, nofun⟩
  · change p.compositor.alive _ = true ∨ _
    rw [hcomp]
    exact halive
  · change p.compositor.selection ≠ _
    rw [hcomp]
    exact h.unselected
  · exact fun hn => h.uncancelled (hrest _ hn)
  · change p.events.filterMap _ = _
    rw [hk.marks_follow hrest]
    have hnone := h.unmarked
    rw [Watched.marks, hev] at hnone
    apply List.filterMap_eq_nil_iff.2
    intro e he
    exact List.filterMap_eq_nil_iff.1 hnone e (List.mem_cons_of_mem _ he)

/-- The session handles an event after its selection was delivered, but not the cancellation of
its source. -/
theorem Watched.Delivered.dispatched (h : s.Delivered n) (hk : Known s)
    (hev : s.events = event :: p.events) (hcomp : p.compositor = s.compositor)
    (hidle : Idle s.cb p.cb) (hc : event ≠ .cancelled n)
    (hr : p.cb.reading = s.cb.reading ∨
      ∃ rd, p.cb.reading = some rd ∧ event = .selection (some rd.offer) ∧
        mark s.origins event = some .own) : (s.follow p).Delivered n := by
  obtain ⟨front, back, hsplit⟩ := h.split
  obtain ⟨front', rfl, hrest⟩ := (hsplit.head hev).resolve_right fun hno => hc hno.2.2
  have hmem : ∀ e ∈ p.events, e ∈ s.events := fun e he => hev ▸ List.mem_cons_of_mem _ he
  have hfront : front'.filterMap (mark (s.follow p).origins) = front'.filterMap (mark s.origins) :=
    hk.marks_follow fun e he => hmem e (hrest ▸ List.mem_append_left _ he)
  have hback : back.filterMap (mark (s.follow p).origins) = back.filterMap (mark s.origins) :=
    hk.marks_follow fun e he => hmem e (hrest ▸ List.mem_append_right _ he)
  refine ⟨idle_requests hidle h.requests, fun rd hrd => ?_, front', back, hrest, ?_, ?_, ?_, ?_⟩
  · rcases hr with hr | ⟨rd', hrd', rfl, hown⟩
    · exact Known.read_follow h.read hr rd hrd
    · cases hrd'.symm.trans hrd
      exact mark_follow_of_some hown
  · exact fun hn => hsplit.uncancelled (List.mem_cons_of_mem _ hn)
  · rw [hfront]
    rcases hr with hr | ⟨_, _, _, hown⟩
    · change _ ∨ p.cb.reading = none ∧ _
      rw [hr]
      exact hsplit.tail
    · exact .inl (hsplit.unread hown).1
  · rw [hback]
    exact hsplit.behind
  · refine hsplit.boundary.imp_left fun ⟨hnil, hstanding⟩ => ⟨hnil, ?_, ?_, ?_⟩
    · change p.compositor.selection = _
      rw [hcomp]
      exact hstanding.selected
    · change p.compositor.alive _ = true
      rw [hcomp]
      exact hstanding.alive
    · intro hdestroy
      obtain ⟨rs, hrs, hreq⟩ := hidle.requests
      change _ ∈ p.cb.requests at hdestroy
      rw [hreq] at hdestroy
      rcases List.mem_append.1 hdestroy with hdestroy | hdestroy
      · exact hstanding.kept hdestroy
      · cases hrs _ hdestroy

/-- Nothing of the session is on its way any more. -/
theorem Watched.Disarmed.dispatched (hk : Known s) (hev : s.events = event :: p.events)
    (hreq : ∀ r ∈ p.cb.requests, r.selects = false)
    (hown : .own ∉ p.events.filterMap (mark s.origins))
    (hread : ∀ rd, p.cb.reading = some rd →
      mark s.origins (.selection (some rd.offer)) = some .other) : (s.follow p).Disarmed := by
  refine ⟨hreq, fun rd hrd => mark_follow_of_some (hread rd hrd), ?_⟩
  change _ ∉ p.events.filterMap _
  rw [hk.marks_follow fun e he => hev ▸ List.mem_cons_of_mem _ he]
  exact hown

/-- The session handles an event. -/
theorem Watched.Ordered.dispatched (h : s.Ordered) (hk : Known s)
    (hev : s.events = event :: p.events) (hcomp : p.compositor = s.compositor)
    (hidle : s.cb.reading = none) (hd : Dispatched s.cb event p.cb) : (s.follow p).Ordered := by
  have htail (hown : .own ∉ s.marks) : .own ∉ p.events.filterMap (mark s.origins) := by
    rw [Watched.marks, hev] at hown
    refine fun hmem => hown ?_
    obtain ⟨e, he, hm⟩ := List.mem_filterMap.1 hmem
    exact List.mem_filterMap.2 ⟨e, List.mem_cons_of_mem _ he, hm⟩
  generalize hcb : p.cb = cb' at hd
  cases hd with
  | kept hc hi hf hr =>
    subst hcb
    constructor
    · intro hup
      obtain ⟨n, hsource, harmed⟩ := h.armed (hf.symm.trans hup)
      refine ⟨n, hi.source.trans hsource, harmed.imp (fun hreqd => ?_) fun hdel => ?_⟩
      · exact hreqd.dispatched hk hev hcomp hi (hr.trans hidle)
      · exact hdel.dispatched hk hev hcomp hi (fun he => hc n he hsource) (.inl hr)
    · intro hdown
      have hdis := h.disarmed (hf.symm.trans hdown)
      refine .dispatched hk hev (idle_requests hi hdis.requests) (htail hdis.marks) ?_
      intro rd hrd
      cases (hr.trans hidle).symm.trans hrd
  | @began o rd hi hf hr ho he ht =>
    subst hcb ho he
    have hmarked := hk.marked hev ht
    constructor
    · intro hup
      obtain ⟨n, hsource, hreqd | hdel⟩ := h.armed (hf.symm.trans hup)
      · cases hreqd.unread hev hmarked
      · refine ⟨n, hi.source.trans hsource, .inr ?_⟩
        obtain ⟨hown, _⟩ := hdel.own hev nofun hmarked
        exact hdel.dispatched hk hev hcomp hi nofun (.inr ⟨rd, hr, rfl, hown⟩)
    · intro hdown
      have hdis := h.disarmed (hf.symm.trans hdown)
      refine .dispatched hk hev (idle_requests hi hdis.requests) (htail hdis.marks) ?_
      intro rd' hrd
      cases hr.symm.trans hrd
      refine hmarked.resolve_left fun hown => hdis.marks ?_
      rw [Watched.marks, hev]
      exact List.mem_filterMap.2 ⟨_, List.mem_cons_self, hown⟩
  | ended hi hf hr he ht =>
    subst hcb he
    have hmarked := hk.marked hev ht
    have hown : .own ∉ p.events.filterMap (mark s.origins) ∧
        ∀ r ∈ s.cb.requests, r.selects = false := by
      cases hup : s.cb.settingFromRdp with
      | false => exact ⟨htail (h.disarmed hup).marks, (h.disarmed hup).requests⟩
      | true =>
        obtain ⟨n, _, hreqd | hdel⟩ := h.armed hup
        · cases hreqd.unread hev hmarked
        · exact ⟨(hdel.own hev nofun hmarked).2, hdel.requests⟩
    refine ⟨fun hup => ?_, fun _ => .dispatched hk hev (idle_requests hi hown.2) hown.1 ?_⟩
    · cases hf.symm.trans hup
    · intro rd hrd
      cases hr.symm.trans hrd
  | @cancelled n he hs hf hr _ _ hreq =>
    subst hcb he
    have hown : .own ∉ p.events.filterMap (mark s.origins) ∧
        ∀ r ∈ s.cb.requests, r.selects = false := by
      cases hup : s.cb.settingFromRdp with
      | false => exact ⟨htail (h.disarmed hup).marks, (h.disarmed hup).requests⟩
      | true =>
        obtain ⟨m, hsource, hreqd | hdel⟩ := h.armed hup
        · cases hs.symm.trans hsource
          exact absurd (hev ▸ List.mem_cons_self) hreqd.uncancelled
        · cases hs.symm.trans hsource
          exact ⟨hdel.cancelled hev, hdel.requests⟩
    refine ⟨fun hup => ?_, fun _ => .dispatched hk hev (fun r hmem => ?_) hown.1 ?_⟩
    · cases hf.symm.trans hup
    · rw [hreq] at hmem
      rcases List.mem_append.1 hmem with hmem | hmem
      · exact hown.2 r hmem
      · rw [List.mem_singleton.1 hmem]
        rfl
    · intro rd hrd
      cases (hr.trans hidle).symm.trans hrd

theorem Watched.Ordered.readCompletes (h : s.Ordered) (hk : Known s)
    (hev : p.events = s.events) (hread : s.cb.reading = some rd) (hidle : Idle s.cb p.cb)
    (hflag : p.cb.settingFromRdp = false) (hdone : p.cb.reading = none) :
    (s.follow p).Ordered := by
  constructor
  · intro hup
    cases hflag.symm.trans hup
  · intro _
    have hown : .own ∉ s.marks ∧ ∀ r ∈ s.cb.requests, r.selects = false := by
      cases hup : s.cb.settingFromRdp with
      | false => exact ⟨(h.disarmed hup).marks, (h.disarmed hup).requests⟩
      | true =>
        obtain ⟨n, _, hreqd | hdel⟩ := h.armed hup
        · cases hreqd.idle.symm.trans hread
        · obtain ⟨front, back, hsplit⟩ := hdel.split
          refine ⟨?_, hdel.requests⟩
          have hfront := hsplit.ahead.resolve_right fun hno => by cases hno.1.symm.trans hread
          rw [Watched.marks, hsplit.events, List.filterMap_append, hfront]
          exact hsplit.behind
    refine ⟨idle_requests hidle hown.2, fun rd' hrd => ?_, ?_⟩
    · cases hdone.symm.trans hrd
    · change _ ∉ p.events.filterMap _
      rw [hev, hk.marks_follow fun _ he => he]
      exact hown.1

end Wlrdp
