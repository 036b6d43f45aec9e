import Wlrdp.ClipboardMemory
import Wlrdp.SplitTransfers
import Wlrdp.UnicodeTexts

namespace Wlrdp
set_option autoImplicit true
open Unicode

/-! ### Messages of the clipboard channel -/

/-- `CF_OEMTEXT`. -/
def cfOemText : UInt32 := 7

/-- `CB_RESPONSE_OK`. -/
def cbResponseOk : UInt16 := 1

/-- `CB_RESPONSE_FAIL`. -/
def cbResponseFail : UInt16 := 2

/-- The client's `CLIPRDR_FORMAT_DATA_RESPONSE`; `dataLen` is the length of the data. -/
structure ClientFormatData where
  msgFlags : UInt16
  requestedFormatData : Option (List UInt8)
deriving DecidableEq

inductive ClientMessage
  | formatList (formatIds : List UInt32)
  | formatDataRequest (requestedFormatId : UInt32)
  | formatDataResponse (resp : ClientFormatData)
deriving DecidableEq

inductive ServerMessage
  | formatListResponse
  | formatDataRequest (requestedFormatId : UInt32)
  | formatDataResponse (resp : FormatDataResponse)
  | formatList (formatIds : List UInt32)
deriving DecidableEq

/-- `ConvertWCharNToUtf8Alloc`: `none` when it fails. -/
abbrev WideConversion := List UInt16 → Option (List UInt8)

def isTextFormat (formatId : UInt32) : Bool :=
  formatId = cfText || formatId = cfUnicodeText || formatId = cfOemText

/-- `on_cliprdr_client_format_list`: the answers it sends. -/
def onCliprdrClientFormatList (formatIds : List UInt32) : List ServerMessage :=
  .formatListResponse ::
    if formatIds.any isTextFormat then [.formatDataRequest cfUnicodeText] else []

/-- The `WCHAR`s in memory; an odd byte at the end is none. -/
def wchars : List UInt8 → List UInt16
  | low :: high :: bytes => (low.toUInt16 + 256 * high.toUInt16) :: wchars bytes
  | _ => []

/-- The text that `on_cliprdr_client_format_data_response` passes to `clipboard_set_text`, if it
does. -/
def ClientFormatData.text (resp : ClientFormatData) (toUtf8 : WideConversion) :
    Option (List UInt8) :=
  if resp.msgFlags ≠ cbResponseOk then none else
  match resp.requestedFormatData with
  | none => none
  | some data =>
    if data = [] then none else
    match toUtf8 (wchars data) with
    | none => none
    | some utf8 => if utf8 = [] then none else some (utf8.rdropWhile fun b => decide (b = 0))

def onCliprdrClientFormatDataResponse (cb : Clipboard) (resp : ClientFormatData)
    (toUtf8 : WideConversion) (malloc : Bool) : Clipboard :=
  match resp.text toUtf8 with
  | none => cb
  | some text => clipboardSetText cb text malloc

def clipboardNotifyRdp : List ServerMessage := [.formatList [cfUnicodeText, cfText]]

/-! ### Both ends of the channel -/

/-- The session and the client of a clipboard channel, with the messages under way. `client` is the
text on the client's own clipboard, if it holds one, and `selected` are the texts that
`clipboard_set_text` has made the selection. -/
structure CliprdrLink where
  pasting : Pasting
  client : Option (List Char)
  toServer : List ClientMessage
  toClient : List ServerMessage
  selected : List (List UInt8)

/-- The user of the client copies, or pastes; one side handles its next message; something happens
on the side of the compositor, while `active` says whether `client_active` is set. -/
inductive CliprdrEvent
  | copies (formatIds : List UInt32) (text : Option (List Char))
  | pastes (requestedFormatId : UInt32)
  | serverHandles (malloc : Bool)
  | clientHandles
  | wayland (event : PasteEvent) (active : Bool)

/-- The client's answer to a request for `CF_UNICODETEXT`. -/
def clientFormatData : Option (List Char) → ClientFormatData
  | none => ⟨cbResponseFail, none⟩
  | some text => ⟨cbResponseOk, some ((utf16 text ++ [0]).flatMap wcharBytes)⟩

namespace CliprdrLink

def start : CliprdrLink := ⟨.start, none, [], [], []⟩

/-- `clipboard_set_text` does not give up. -/
def sets (s : CliprdrLink) (malloc : Bool) : Bool :=
  s.pasting.cb.dcm && s.pasting.cb.device && malloc

/-- The session handles a message. -/
def serve (s : CliprdrLink) (toUtf8 : WideConversion) (toWide : Conversion) (malloc : Bool) :
    ClientMessage → CliprdrLink
  | .formatList formatIds =>
    { s with toClient := s.toClient ++ onCliprdrClientFormatList formatIds }
  | .formatDataRequest requestedFormatId =>
    { s with toClient := s.toClient ++ [.formatDataResponse
        (onCliprdrClientFormatDataRequest s.pasting.cb requestedFormatId toWide)] }
  | .formatDataResponse resp =>
    { s with
      pasting.cb := onCliprdrClientFormatDataResponse s.pasting.cb resp toUtf8 malloc
      selected := s.selected ++ if s.sets malloc then (resp.text toUtf8).toList else [] }

/-- The client handles a message; a format list of the session takes over its clipboard. -/
def receive (s : CliprdrLink) : ServerMessage → CliprdrLink
  | .formatListResponse | .formatDataResponse _ => s
  | .formatDataRequest _ =>
    { s with toServer := s.toServer ++ [.formatDataResponse (clientFormatData s.client)] }
  | .formatList _ => { s with client := none }

def step (toUtf8 : WideConversion) (toWide : Conversion) (s : CliprdrLink) :
    CliprdrEvent → CliprdrLink
  | .copies formatIds text =>
    { s with client := text, toServer := s.toServer ++ [.formatList formatIds] }
  | .pastes requestedFormatId =>
    { s with toServer := s.toServer ++ [.formatDataRequest requestedFormatId] }
  | .serverHandles malloc =>
    match s.toServer with
    | [] => s
    | message :: rest => { s with toServer := rest }.serve toUtf8 toWide malloc message
  | .clientHandles =>
    match s.toClient with
    | [] => s
    | message :: rest => { s with toClient := rest }.receive message
  | .wayland event active =>
    let pasting := s.pasting.step event
    { s with
      pasting := pasting
      toClient := s.toClient ++
        if active && s.pasting.cb.changes.length < pasting.cb.changes.length then clipboardNotifyRdp
        else [] }

end CliprdrLink

/-- The events of the compositor's side; the others are those of the channel. -/
def PasteEvent.fromWayland : PasteEvent → Bool
  | .setText _ _ | .request _ _ => false
  | _ => true

/-- A client announces a text format exactly when it has a text, and the session handles nothing
while it reads from a pipe. -/
def CliprdrLink.admits (s : CliprdrLink) : CliprdrEvent → Bool
  | .copies formatIds text => text.isSome = formatIds.any isTextFormat
  | .pastes _ => true
  | .serverHandles _ => s.toServer ≠ [] && s.pasting.cb.reading.isNone
  | .clientHandles => s.toClient ≠ []
  | .wayland event _ => event.fromWayland && s.pasting.admits event

def cliprdrLink (toUtf8 : WideConversion) (toWide : Conversion) :
    System CliprdrLink CliprdrEvent :=
  ⟨fun s e => s.admits e = true, CliprdrLink.step toUtf8 toWide⟩

instance (toUtf8 : WideConversion) (toWide : Conversion) (s : CliprdrLink)
    (e : CliprdrEvent) : Decidable ((cliprdrLink toUtf8 toWide).enabled s e) :=
  inferInstanceAs (Decidable (s.admits e = true))

/-- What the session handles it can also set. -/
def CliprdrLink.reliable (s : CliprdrLink) : CliprdrEvent → Bool
  | .serverHandles malloc => s.sets malloc
  | _ => true

/-- No message is under way. -/
def CliprdrLink.settled (s : CliprdrLink) : Bool := s.toServer.isEmpty && s.toClient.isEmpty

/-! ### Conversions -/

/-- What is documented of the conversions: they convert up to the first terminator. Whether the
result counts terminators of its own is left open. -/
structure Converts (toUtf8 : WideConversion) (toWide : Conversion) : Prop where
  narrow : ∀ text, '\x00' ∉ text → ∀ n, ∃ m,
    toUtf8 (utf16 text ++ List.replicate n 0) = some (utf8 text ++ List.replicate m 0)
  wide : ∀ text, '\x00' ∉ text → toWide (utf8 text) = some (utf16 text)

/-- The text that a client reads from the data of `CF_UNICODETEXT`. -/
def readWide (data : List UInt8) : Option (List Char) :=
  decode16 ((wchars data).takeWhile fun unit => decide (unit ≠ 0))

end Wlrdp
