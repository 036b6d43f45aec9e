import Mathlib.Logic.Function.Basic
import Wlrdp.TransitionSystems

namespace Wlrdp
set_option autoImplicit true

def clipboardMimeType : String := "text/plain;charset=utf-8"

def clipboardMaxSize : Nat := 16 * 1024 * 1024

/-- Requests that the session sends to the compositor. -/
inductive WlRequest
  | createSource (source : Nat)
  | offer (source : Nat) (mimeType : String)
  | setSelection (source : Nat)
  | destroySource (source : Nat)
  | receive (offer : Nat) (mimeType : String) (pipe : Nat)
  | destroyOffer (offer : Nat)
  | destroyDevice
deriving DecidableEq

/-- Events that the compositor sends to the session. -/
inductive WlEvent
  | dataOffer (offer : Nat)
  | offer (offer : Nat) (mimeType : String)
  | selection (offer : Option Nat)
  | primarySelection (offer : Option Nat)
  | finished
  | send (source : Nat) (mimeType : String) (pipe : Nat)
  | cancelled (source : Nat)
deriving DecidableEq

/-- `read_offer_text` while it reads: the offer, the pipe, and its buffer. -/
structure Reading where
  offer : Nat
  pipe : Nat
  buf : List UInt8
  capacity : Nat
deriving DecidableEq

/-- `struct wlrdp_clipboard` with its connection. A text and its length are one field. `records`
holds `has_text` of the `clipboard_offer` that each offer carries, `reading` is the read that the
session is blocked in, and `changes` are the calls of `on_wl_clipboard_changed`. -/
structure Clipboard where
  dcm : Bool
  device : Bool
  source : Option Nat
  wlClipboardText : Option (List UInt8)
  pendingSetText : Option (List UInt8)
  settingFromRdp : Bool
  records : Nat → Option Bool
  reading : Option Reading
  nextSource : Nat
  requests : List WlRequest
  changes : List (List UInt8)

/-- The clipboard after `clipboard_init`. -/
def Clipboard.init : Clipboard where
  dcm := true
  device := true
  source := none
  wlClipboardText := none
  pendingSetText := none
  settingFromRdp := false
  records _ := none
  reading := none
  nextSource := 0
  requests := []
  changes := []

def Clipboard.request (cb : Clipboard) (rs : List WlRequest) : Clipboard :=
  { cb with requests := cb.requests ++ rs }

/-! ### The source's callbacks -/

/-- What `source_send` writes; `written` is how much of it the pipe accepts. -/
def sourceSend (cb : Clipboard) (mimeType : String) (written : Nat) : List UInt8 :=
  match cb.pendingSetText with
  | none => []
  | some text => if mimeType = clipboardMimeType then text.take written else []

def sourceCancelled (cb : Clipboard) (source : Nat) : Clipboard :=
  let cb := if cb.source = some source then
    { cb.request [.destroySource source] with source := none } else cb
  { cb with pendingSetText := none, settingFromRdp := false }

/-! ### The device's callbacks -/

def offerOffer (cb : Clipboard) (offer : Nat) (mimeType : String) : Clipboard :=
  if mimeType = clipboardMimeType ∧ (cb.records offer).isSome then
    { cb with records := Function.update cb.records offer (some true) }
  else cb

def deviceDataOffer (cb : Clipboard) (offer : Nat) (calloc : Bool) : Clipboard :=
  if !calloc then cb else { cb with records := Function.update cb.records offer (some false) }

/-- The end of `device_selection`: the offer and its record go. -/
def dropOffer (cb : Clipboard) (offer : Nat) : Clipboard :=
  { cb.request [.destroyOffer offer] with records := Function.update cb.records offer none }

/-- The head of the reading loop; `none` when it is left. -/
def Reading.more (rd : Reading) (realloc : Bool) : Option Reading :=
  if clipboardMaxSize ≤ rd.buf.length then none else
  if rd.buf.length + 4096 > rd.capacity then
    let capacity := if rd.capacity = 0 then 4096 else rd.capacity * 2
    let capacity := if clipboardMaxSize < capacity then clipboardMaxSize else capacity
    if !realloc then none else some { rd with capacity := capacity }
  else some rd

/-- The head of the loop changes nothing but the capacity. -/
theorem more_eq {rd rd' : Reading} (h : rd.more realloc = some rd') :
    rd' = { rd with capacity := rd'.capacity } := by
  simp only [Reading.more] at h
  split at h
  · cases h
  split at h
  · split at h
    · cases h
    · cases h
      rfl
  · cases h
    rfl

/-- The capacity grows, up to the size limit. -/
theorem more_capacity {rd rd' : Reading} (h : rd.more realloc = some rd')
    (hmax : rd.capacity ≤ clipboardMaxSize) :
    rd.capacity ≤ rd'.capacity ∧ rd'.capacity ≤ clipboardMaxSize := by
  have hgrown {n : Nat} (hn : rd.capacity ≤ n) :
      rd.capacity ≤ (if clipboardMaxSize < n then clipboardMaxSize else n) ∧
        (if clipboardMaxSize < n then clipboardMaxSize else n) ≤ clipboardMaxSize := by
    split
    · exact ⟨hmax, Nat.le_refl _⟩
    · next hsmall => exact ⟨hn, Nat.not_lt.1 hsmall⟩
  simp only [Reading.more] at h
  split at h
  · cases h
  split at h
  · split at h
    · cases h
    · cases h
      apply hgrown
      split <;> omega
  · cases h
    exact ⟨Nat.le_refl _, hmax⟩

/-- The rest of `read_offer_text` and of `device_selection` after the reading loop. -/
def readDone (cb : Clipboard) (rd : Reading) : Clipboard :=
  let cb := { cb with reading := none }
  let cb := if rd.buf = [] then cb else
    { cb with
      wlClipboardText := some rd.buf
      changes := if cb.settingFromRdp then cb.changes else cb.changes ++ [rd.buf] }
  dropOffer { cb with settingFromRdp := false } rd.offer

def readOn (cb : Clipboard) (rd : Reading) (realloc : Bool) : Clipboard :=
  match rd.more realloc with
  | none => readDone cb rd
  | some rd => { cb with reading := some rd }

/-- What the handling of one event meets; `pipe` is the pipe that `pipe2` made. -/
structure DispatchTurn where
  calloc : Bool
  pipe2 : Bool
  realloc : Bool
  written : Nat
deriving DecidableEq

/-- `read_offer_text` up to its first `read`. -/
def readOfferText (cb : Clipboard) (offer pipe : Nat) (r : DispatchTurn) : Clipboard :=
  if !r.pipe2 then dropOffer cb offer else
  readOn (cb.request [.receive offer clipboardMimeType pipe]) ⟨offer, pipe, [], 0⟩ r.realloc

def deviceSelection (cb : Clipboard) (offer : Option Nat) (pipe : Nat) (r : DispatchTurn) :
    Clipboard :=
  match offer with
  | none => cb
  | some offer =>
    match cb.records offer with
    | none => cb.request [.destroyOffer offer]
    | some hasText => if hasText then readOfferText cb offer pipe r else dropOffer cb offer

/-- `device_primary_selection` destroys the offer, but not its record. -/
def devicePrimarySelection (cb : Clipboard) (offer : Option Nat) : Clipboard :=
  match offer with
  | none => cb
  | some offer => cb.request [.destroyOffer offer]

def deviceFinished (cb : Clipboard) : Clipboard :=
  { cb.request [.destroyDevice] with device := false }

/-! ### The public interface -/

/-- The first block of `clipboard_set_text`. -/
def dropSource (cb : Clipboard) : Clipboard :=
  match cb.source with
  | none => cb
  | some source => { cb.request [.destroySource source] with source := none }

def clipboardSetText (cb : Clipboard) (text : List UInt8) (malloc : Bool) : Clipboard :=
  if !cb.dcm || !cb.device then cb else
  let cb := { dropSource cb with pendingSetText := none }
  if !malloc then cb else
  let source := cb.nextSource
  let cb := { cb with
    pendingSetText := some text, source := some source, nextSource := source + 1
    settingFromRdp := true }
  cb.request [.createSource source, .offer source clipboardMimeType, .setSelection source]

/-- `wl_display_dispatch` for one event: what the session becomes. Events for objects that it has
destroyed reach no listener. -/
def clipboardDispatch (cb : Clipboard) (event : WlEvent) (pipe : Nat) (r : DispatchTurn) :
    Clipboard :=
  match event with
  | .dataOffer offer => if cb.device then deviceDataOffer cb offer r.calloc else cb
  | .offer offer mimeType => offerOffer cb offer mimeType
  | .selection offer => if cb.device then deviceSelection cb offer pipe r else cb
  | .primarySelection offer => if cb.device then devicePrimarySelection cb offer else cb
  | .finished => if cb.device then deviceFinished cb else cb
  | .send _ _ _ => cb
  | .cancelled source => if cb.source = some source then sourceCancelled cb source else cb

/-! ### The compositor and the other clients -/

/-- A selection source: one of the session, or one of another client. -/
inductive Source
  | own (n : Nat)
  | foreign (n : Nat)
deriving DecidableEq

/-- The compositor: the selection, the mime types of each source, the sources their clients have
not destroyed, and the source of each offer it made for the session. -/
structure Compositor where
  selection : Option Source
  mimeTypes : Source → List String
  alive : Source → Bool
  offers : Nat → Option Source
  nextOffer : Nat
  nextForeign : Nat

def Compositor.init : Compositor where
  selection := none
  mimeTypes _ := []
  alive _ := false
  offers _ := none
  nextOffer := 0
  nextForeign := 0

/-- An offer is served while its source is the selection. `keep` says whether the compositor
also serves offers of sources that were replaced but not destroyed. -/
def Compositor.serves (c : Compositor) (keep : Bool) (source : Source) : Bool :=
  c.alive source && (c.selection = some source || keep)

/-- The session, the compositor and the other clients, with the events on their way to the
session. Of the pipes: the write ends that other clients hold, what was written and not yet read,
and how many were made. -/
structure Parties where
  cb : Clipboard
  compositor : Compositor
  events : List WlEvent
  held : List Nat
  data : Nat → List UInt8
  nextPipe : Nat

def Parties.start : Parties where
  cb := .init
  compositor := .init
  events := []
  held := []
  data _ := []
  nextPipe := 0

namespace Parties

def post (s : Parties) (events : List WlEvent) : Parties := { s with events := s.events ++ events }

def writePipe (s : Parties) (pipe : Nat) (bytes : List UInt8) : Parties :=
  { s with data := Function.update s.data pipe (s.data pipe ++ bytes) }

/-- The events that introduce an offer, up to the one that uses it. -/
def introduce (offer : Nat) (mimeTypes : List String) : List WlEvent :=
  .dataOffer offer :: mimeTypes.map (.offer offer)

/-- The compositor makes a source the selection. -/
def select (s : Parties) (source : Source) : Parties :=
  let c := s.compositor
  let cancelled := match c.selection with
    | some (.own n) => if c.alive (.own n) then [WlEvent.cancelled n] else []
    | _ => []
  { s.post (cancelled ++ introduce c.nextOffer (c.mimeTypes source) ++
      [.selection (some c.nextOffer)]) with
    compositor := { c with
      selection := some source, nextOffer := c.nextOffer + 1
      offers := Function.update c.offers c.nextOffer (some source) } }

/-- The compositor forwards a `receive` to the owner of the source, or closes the pipe. -/
def forward (s : Parties) (keep : Bool) (offer : Nat) (mimeType : String) (pipe : Nat) : Parties :=
  match s.compositor.offers offer with
  | none => s
  | some source =>
    if !s.compositor.serves keep source then s else
    match source with
    | .own n => s.post [.send n mimeType pipe]
    | .foreign _ => { s with held := pipe :: s.held }

/-- The compositor handles a request of the session. -/
def handle (s : Parties) (keep : Bool) (request : WlRequest) : Parties :=
  let c := s.compositor
  match request with
  | .createSource n =>
    { s with compositor := { c with alive := Function.update c.alive (.own n) true } }
  | .offer n mimeType =>
    { s with compositor := { c with
        mimeTypes := Function.update c.mimeTypes (.own n) (c.mimeTypes (.own n) ++ [mimeType]) } }
  | .setSelection n => s.select (.own n)
  | .destroySource n =>
    let c := { c with alive := Function.update c.alive (.own n) false }
    if c.selection = some (.own n) then
      { s.post [.selection none] with compositor := { c with selection := none } }
    else { s with compositor := c }
  | .receive offer mimeType pipe => s.forward keep offer mimeType pipe
  | .destroyOffer offer =>
    { s with compositor := { c with offers := Function.update c.offers offer none } }
  | .destroyDevice => s

/-- The compositor handles the next request, if there is one. -/
def compositorStep (s : Parties) (keep : Bool) : Parties :=
  match s.cb.requests with
  | [] => s
  | request :: rest => handle { s with cb := { s.cb with requests := rest } } keep request

/-- The session handles the next event, if there is one. -/
def dispatch (s : Parties) (r : DispatchTurn) : Parties :=
  match s.events with
  | [] => s
  | event :: rest =>
    let cb := clipboardDispatch s.cb event s.nextPipe r
    let s' := { s with cb := cb, events := rest, nextPipe := s.nextPipe + 1 }
    match event with
    | .send source mimeType pipe =>
      if s.cb.source = some source then s'.writePipe pipe (sourceSend s.cb mimeType r.written)
      else s'
    | _ => s'

/-- Another client sets the selection. -/
def otherSelects (s : Parties) (mimeTypes : List String) : Parties :=
  let c := s.compositor
  let source := Source.foreign c.nextForeign
  let c := { c with
    mimeTypes := Function.update c.mimeTypes source mimeTypes
    alive := Function.update c.alive source true, nextForeign := c.nextForeign + 1 }
  { s with compositor := c }.select source

/-- Another client destroys the source of the selection, if it is one of theirs. -/
def otherClears (s : Parties) : Parties :=
  match s.compositor.selection with
  | some (.foreign n) =>
    let c := s.compositor
    { s.post [.selection none] with
      compositor := { c with
        selection := none, alive := Function.update c.alive (.foreign n) false } }
  | _ => s

/-- Another client sets the primary selection. -/
def otherPrimary (s : Parties) (mimeTypes : List String) : Parties :=
  let c := s.compositor
  { s.post (introduce c.nextOffer mimeTypes ++ [.primarySelection (some c.nextOffer)]) with
    compositor := { c with
      nextOffer := c.nextOffer + 1
      offers := Function.update c.offers c.nextOffer (some (.foreign c.nextForeign))
      nextForeign := c.nextForeign + 1 } }

/-- Another client asks for the selection; a source of the session gets a `send`. -/
def otherReceives (s : Parties) (mimeType : String) : Parties :=
  match s.compositor.selection with
  | some (.own n) => { s.post [.send n mimeType s.nextPipe] with nextPipe := s.nextPipe + 1 }
  | _ => s

/-- The blocked `read` returns `n` bytes. -/
def readReturned (s : Parties) (n : Nat) (realloc : Bool) : Parties :=
  match s.cb.reading with
  | none => s
  | some rd =>
    let rd := { rd with buf := rd.buf ++ (s.data rd.pipe).take n }
    { s with
      cb := readOn { s.cb with reading := none } rd realloc
      data := Function.update s.data rd.pipe ((s.data rd.pipe).drop n) }

/-- The blocked `read` returns 0. -/
def readEnded (s : Parties) : Parties :=
  match s.cb.reading with
  | none => s
  | some rd => { s with cb := readDone s.cb rd }

end Parties

def WlRequest.writeEnd : WlRequest → Option Nat
  | .receive _ _ pipe => some pipe
  | _ => none

def WlEvent.writeEnd : WlEvent → Option Nat
  | .send _ _ pipe => some pipe
  | _ => none

namespace Parties

/-- The pipes whose write ends are on their way to the compositor. -/
def requested (s : Parties) : List Nat := s.cb.requests.filterMap WlRequest.writeEnd

/-- The pipes whose write ends are on their way to a source of the session. -/
def undelivered (s : Parties) : List Nat := s.events.filterMap WlEvent.writeEnd

def writeEnds (s : Parties) : List Nat := s.requested ++ (s.undelivered ++ s.held)

end Parties

inductive PartyEvent
  | setText (text : List UInt8) (malloc : Bool)
  | dispatch (r : DispatchTurn)
  | readReturned (n : Nat) (realloc : Bool)
  | readEnded
  | compositor (keep : Bool)
  | otherSelects (mimeTypes : List String)
  | otherClears
  | otherPrimary (mimeTypes : List String)
  | otherReceives (mimeType : String)
  | otherWrites (pipe : Nat) (bytes : List UInt8)
  | otherCloses (pipe : Nat)
  | seatRemoved
deriving DecidableEq

namespace Parties

def step (s : Parties) : PartyEvent → Parties
  | .setText text malloc => { s with cb := clipboardSetText s.cb text malloc }
  | .dispatch r => s.dispatch r
  | .readReturned n realloc => s.readReturned n realloc
  | .readEnded => s.readEnded
  | .compositor keep => s.compositorStep keep
  | .otherSelects mimeTypes => s.otherSelects mimeTypes
  | .otherClears => s.otherClears
  | .otherPrimary mimeTypes => s.otherPrimary mimeTypes
  | .otherReceives mimeType => s.otherReceives mimeType
  | .otherWrites pipe bytes => s.writePipe pipe bytes
  | .otherCloses pipe => { s with held := s.held.erase pipe }
  | .seatRemoved => s.post [.finished]

/-- When an event can happen: while the session is blocked in a read it handles nothing, and the
read returns only on data or once the pipe has no write end. -/
def admits (s : Parties) : PartyEvent → Bool
  | .setText _ _ => s.cb.reading.isNone
  | .dispatch _ => s.cb.reading.isNone && !s.events.isEmpty
  | .readReturned n _ => s.cb.reading.any fun rd =>
    0 < n && n ≤ (s.data rd.pipe).length && rd.buf.length + n ≤ rd.capacity
  | .readEnded => s.cb.reading.any fun rd =>
    (s.data rd.pipe).isEmpty && rd.pipe ∉ s.writeEnds
  | .compositor _ => !s.cb.requests.isEmpty
  | .otherSelects _ | .otherClears | .otherPrimary _ | .otherReceives _ | .seatRemoved => true
  | .otherWrites pipe _ => pipe ∈ s.held
  | .otherCloses pipe => pipe ∈ s.held

end Parties

def parties : System Parties PartyEvent := ⟨fun s e => s.admits e = true, Parties.step⟩

instance (s : Parties) (e : PartyEvent) : Decidable (parties.enabled s e) :=
  inferInstanceAs (Decidable (s.admits e = true))

end Wlrdp
