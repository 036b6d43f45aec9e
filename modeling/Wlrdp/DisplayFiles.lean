import Wlrdp.CompositorSemantics
import Wlrdp.DisplayNames

namespace Wlrdp
set_option autoImplicit true

/-- What is at the path of the display file. A file of another user can neither be unlinked nor be
opened for writing. -/
structure DisplayFile where
  content : List UInt8
  foreign : Bool
deriving DecidableEq

/-- Where the shell under the compositor is with `echo "$WAYLAND_DISPLAY" > file`: not forked yet,
before its `open`, between that and its `write`, and behind them. -/
inductive EchoPc
  | absent | pending | opened | done
deriving DecidableEq

/-- Where `compositor_launch` is: at the first `unlink`, at the `fork`, in the first loop with that
many polls behind the next, in `read_display_name`, at the `unlink` behind it, in the second loop,
and behind its end. -/
inductive LaunchPc
  | unlinking
  | forking
  | awaitingFile (left : Nat)
  | reading
  | removing
  | awaitingSocket (left : Nat)
  | returned (ok : Bool)
deriving DecidableEq

/-- The session worker in `compositor_launch`. `displayName` is `comp->display_name` once it is
read. -/
structure CompositorLaunch where
  proc : SessionProcess
  pc : LaunchPc
  displayName : Option CString
  file : Option DisplayFile
  echo : EchoPc
deriving DecidableEq

def CompositorLaunch.start (file : Option DisplayFile) : CompositorLaunch where
  proc := .start
  pc := .unlinking
  displayName := none
  file := file
  echo := .absent

/-- `shellOpens` and `shellWrites` are steps of the shell, `foreign` one of another user, who
removes his file or leaves any content in it, and `session` one outside `compositor_launch`. -/
inductive LaunchInput
  | unlink
  | fork (pid : Option Nat)
  | access (found : Bool)
  | read (opened : Bool)
  | shellOpens
  | shellWrites
  | foreign (content : Option (List UInt8))
  | session (e : SessionInput)
deriving DecidableEq

/-- The polls of `wait_for_file` behind the first: one every 50 ms. -/
def pollsBehind (timeoutMs : Nat) : Nat := (timeoutMs - 1) / 50

/-- What `echo "$WAYLAND_DISPLAY"` writes. -/
def echoed (name : CString) : List UInt8 := name.bytes ++ [10]

/-- The session step happens in `compositor_launch`. -/
def SessionInput.launches : SessionInput → Bool
  | .fork _ | .displayReady _ => true
  | _ => false

namespace CompositorLaunch

def unlinked (s : CompositorLaunch) : CompositorLaunch :=
  { s with file := s.file.filter (·.foreign) }

/-- The end of `compositor_launch` behind its `fork`, with `compositor_destroy` if it fails. -/
def ends (s : CompositorLaunch) (ok : Bool) : CompositorLaunch :=
  { s with pc := .returned ok, proc := s.proc.step (.displayReady ok) }

/-- The shell truncates its own file, and gives up at that of another user. -/
def shellOpened (s : CompositorLaunch) : CompositorLaunch :=
  if s.file.any (·.foreign) then { s with echo := .done }
  else { s with echo := .opened, file := some ⟨[], false⟩ }

def step (name : CString) (s : CompositorLaunch) : LaunchInput → CompositorLaunch
  | .unlink =>
    match s.pc with
    | .unlinking => { s.unlinked with pc := .forking }
    | .removing =>
      if s.displayName.isSome then { s.unlinked with pc := .awaitingSocket (pollsBehind 3000) }
      else s.unlinked.ends false
    | _ => s
  | .fork none => { s with pc := .returned false, proc := s.proc.step (.fork none) }
  | .fork (some pid) =>
    { s with
      pc := .awaitingFile (pollsBehind 5000)
      proc := s.proc.step (.fork (some pid))
      echo := .pending }
  | .access found =>
    match s.pc with
    | .awaitingFile left =>
      if found then { s with pc := .reading }
      else if left = 0 then { s with pc := .removing }
      else { s with pc := .awaitingFile (left - 1) }
    | .awaitingSocket left =>
      if found then s.ends true
      else if left = 0 then s.ends false
      else { s with pc := .awaitingSocket (left - 1) }
    | _ => s
  | .read opened =>
    let content := if opened then s.file.map (·.content) else none
    { s with
      pc := .removing
      displayName := content.bind (readDisplayName · displayNameSize) }
  | .shellOpens => s.shellOpened
  | .shellWrites =>
    { s with
      echo := .done
      file := s.file.map fun f => if f.foreign then f else ⟨echoed name, false⟩ }
  | .foreign content => { s with file := content.map (⟨·, true⟩) }
  | .session e => { s with proc := s.proc.step e }

/-- When an event can happen. -/
def admits (s : CompositorLaunch) : LaunchInput → Bool
  | .unlink => s.pc = .unlinking || s.pc = .removing
  | .fork pid => s.pc = .forking && s.proc.admits (.fork pid)
  | .access found =>
    match s.pc with
    | .awaitingFile _ => found = s.file.isSome
    | .awaitingSocket _ => true
    | _ => false
  | .read opened =>
    s.pc = .reading && match s.file with
      | none => !opened
      | some f => f.foreign || opened
  | .shellOpens => s.echo = .pending
  | .shellWrites => s.echo = .opened
  | .foreign _ => s.file.all (·.foreign)
  | .session e => !e.launches && s.proc.admits e

end CompositorLaunch

def compositorLaunch (name : CString) : System CompositorLaunch LaunchInput :=
  ⟨fun s e => s.admits e = true, CompositorLaunch.step name⟩

instance (name : CString) (s : CompositorLaunch) (e : LaunchInput) :
    Decidable ((compositorLaunch name).enabled s e) :=
  inferInstanceAs (Decidable (s.admits e = true))

end Wlrdp
