import Mathlib.Data.Finset.Basic
import Wlrdp.WorkerSemantics

namespace Wlrdp
set_option autoImplicit true

def kbdFlagsExtended : UInt16 := 0x0100
def kbdFlagsRelease : UInt16 := 0x8000

def ptrFlagsWheelNegative : UInt16 := 0x0100
def ptrFlagsWheel : UInt16 := 0x0200
def ptrFlagsMove : UInt16 := 0x0800
def ptrFlagsButton1 : UInt16 := 0x1000
def ptrFlagsButton2 : UInt16 := 0x2000
def ptrFlagsButton3 : UInt16 := 0x4000
def ptrFlagsDown : UInt16 := 0x8000

def btnLeft : UInt32 := 0x110
def btnRight : UInt32 := 0x111
def btnMiddle : UInt32 := 0x112

def keyA : UInt32 := 30
def keyKpenter : UInt32 := 96
def keyRightctrl : UInt32 := 97
def keyKpslash : UInt32 := 98
def keyRightalt : UInt32 := 100
def keyHome : UInt32 := 102
def keyUp : UInt32 := 103
def keyPageup : UInt32 := 104
def keyLeft : UInt32 := 105
def keyRight : UInt32 := 106
def keyEnd : UInt32 := 107
def keyDown : UInt32 := 108
def keyPagedown : UInt32 := 109
def keyInsert : UInt32 := 110
def keyDelete : UInt32 := 111
def keyLeftmeta : UInt32 := 125
def keyRightmeta : UInt32 := 126
def keyCompose : UInt32 := 127

/-- The evdev key of a scan code. -/
def evdevKey (flags : UInt16) (code : UInt8) : UInt32 :=
  if flags &&& kbdFlagsExtended ≠ 0 then
    match code with
    | 0x1C => keyKpenter
    | 0x1D => keyRightctrl
    | 0x35 => keyKpslash
    | 0x38 => keyRightalt
    | 0x47 => keyHome
    | 0x48 => keyUp
    | 0x49 => keyPageup
    | 0x4B => keyLeft
    | 0x4D => keyRight
    | 0x4F => keyEnd
    | 0x50 => keyDown
    | 0x51 => keyPagedown
    | 0x52 => keyInsert
    | 0x53 => keyDelete
    | 0x5B => keyLeftmeta
    | 0x5C => keyRightmeta
    | 0x5D => keyCompose
    | _ => code.toUInt32
  else code.toUInt32

/-! ### The keyboard state -/

/-- What one `modifiers` request carries. -/
structure Modifiers where
  depressed : UInt32
  latched : UInt32
  locked : UInt32
  group : UInt32
deriving DecidableEq

/-- The part of libxkbcommon that the input module uses: the state that a keymap starts in, its
update for one key, and its serialised components. -/
structure Xkb (σ : Type) where
  stateNew : σ
  stateUpdateKey : σ → UInt32 → Bool → σ
  stateSerialize : σ → Modifiers

namespace Xkb

variable (x : Xkb σ)

/-- The state after a series of keys that go down or up. -/
def feed (s : σ) (keys : List (UInt32 × Bool)) : σ :=
  keys.foldl (fun s k => x.stateUpdateKey s k.1 k.2) s

/-- Every modifier key is up, and nothing waits for the next key. -/
def Neutral (s : σ) : Prop := (x.stateSerialize s).depressed = 0 ∧ (x.stateSerialize s).latched = 0

/-- The documented behaviour that matters here. The components say all there is about keys that
are up: two keyboards with no modifier depressed or latched and with the same locks go on
alike. And a key without a modifier changes none of them when it is released. -/
structure Documented : Prop where
  determined : ∀ keys keys', x.Neutral (x.feed x.stateNew keys) →
    x.Neutral (x.feed x.stateNew keys') →
    (x.stateSerialize (x.feed x.stateNew keys)).locked =
      (x.stateSerialize (x.feed x.stateNew keys')).locked →
    (x.stateSerialize (x.feed x.stateNew keys)).group =
      (x.stateSerialize (x.feed x.stateNew keys')).group →
    ∀ more, x.stateSerialize (x.feed (x.feed x.stateNew keys) more) =
      x.stateSerialize (x.feed (x.feed x.stateNew keys') more)
  ordinary : ∀ s, x.stateSerialize (x.stateUpdateKey s (keyA + 8) false) = x.stateSerialize s

end Xkb

/-! ### The input module -/

/-- A request on the virtual pointer or the virtual keyboard. -/
inductive InputRequest
  | motionAbsolute (x y width height : UInt32)
  | button (button : UInt32) (pressed : Bool)
  | axis (value : Int)
  | frame
  | key (key : UInt32) (pressed : Bool)
  | modifiers (m : Modifiers)
deriving DecidableEq

/-- A session with its input devices: the xkb state, and the requests to the compositor. -/
structure Desk (σ : Type) where
  worker : Worker
  xkbState : σ
  requests : List InputRequest

namespace Desk

variable (d : Desk σ)

def request (r : InputRequest) : Desk σ := { d with requests := d.requests ++ [r] }

def inputPointerMotion (x y : UInt32) : Desk σ :=
  (d.request (.motionAbsolute x y d.worker.inputWidth d.worker.inputHeight)).request .frame

def inputPointerButton (button : UInt32) (pressed : Bool) : Desk σ :=
  (d.request (.button button pressed)).request .frame

def inputPointerAxis (value : Int) : Desk σ := (d.request (.axis (value * 256))).request .frame

def inputKeyboardKey (x : Xkb σ) (key : UInt32) (pressed : Bool) : Desk σ :=
  let d := d.request (.key key pressed)
  let d := { d with xkbState := x.stateUpdateKey d.xkbState (key + 8) pressed }
  d.request (.modifiers (x.stateSerialize d.xkbState))

def onKeyboardEvent (x : Xkb σ) (flags : UInt16) (code : UInt8) : Desk σ :=
  d.inputKeyboardKey x (evdevKey flags code) (flags &&& kbdFlagsRelease = 0)

/-- One of the three button blocks of `on_mouse_event`. -/
def mouseButton (flags mask : UInt16) (button : UInt32) : Desk σ :=
  if flags &&& mask ≠ 0 then d.inputPointerButton button (flags &&& ptrFlagsDown ≠ 0) else d

def onMouseEvent (flags x y : UInt16) : Desk σ :=
  let d := if flags &&& ptrFlagsMove ≠ 0 then d.inputPointerMotion x.toUInt32 y.toUInt32 else d
  let d := d.mouseButton flags ptrFlagsButton1 btnLeft
  let d := d.mouseButton flags ptrFlagsButton2 btnRight
  let d := d.mouseButton flags ptrFlagsButton3 btnMiddle
  if flags &&& ptrFlagsWheel ≠ 0 then
    let value : Int := (flags &&& 0x01FF).toNat
    let value := if flags &&& ptrFlagsWheelNegative ≠ 0 then -value else value
    d.inputPointerAxis (value.tdiv 120)
  else d

def onExtendedMouseEvent (x y : UInt16) : Desk σ := d.inputPointerMotion x.toUInt32 y.toUInt32

end Desk

/-! ### The desk as a transition system -/

/-- A handler of the worker, or an input callback of the attached client. -/
inductive DeskEvent
  | worker (e : Event)
  | keyboard (flags : UInt16) (code : UInt8)
  | mouse (flags x y : UInt16)
  | extendedMouse (flags x y : UInt16)
deriving DecidableEq

/-- The input devices as `input_init` leaves them. -/
def Desk.start (x : Xkb σ) (standalone clipboardActive audioActive : Bool)
    (width height : UInt32) : Desk σ where
  worker := .start standalone clipboardActive audioActive width height
  xkbState := x.stateNew
  requests := []

/-- No handler of the worker uses a device: `disconnect_client` and the code that attaches the
next client leave them as they are. -/
def Desk.step (x : Xkb σ) (d : Desk σ) : DeskEvent → Desk σ
  | .worker e => { d with worker := d.worker.step e }
  | .keyboard flags code => d.onKeyboardEvent x flags code
  | .mouse flags px py => d.onMouseEvent flags px py
  | .extendedMouse _ px py => d.onExtendedMouseEvent px py

def Desk.enabled (d : Desk σ) : DeskEvent → Prop
  | .worker e => d.worker.enabled e
  | _ => d.worker.exited = false ∧ d.worker.client.isSome = true

instance (d : Desk σ) (e : DeskEvent) : Decidable (d.enabled e) :=
  match e with
  | .worker e => inferInstanceAs (Decidable (d.worker.enabled e))
  | .keyboard _ _ => inferInstanceAs (Decidable (_ ∧ _))
  | .mouse _ _ _ => inferInstanceAs (Decidable (_ ∧ _))
  | .extendedMouse _ _ _ => inferInstanceAs (Decidable (_ ∧ _))

def desk (x : Xkb σ) : System (Desk σ) DeskEvent := ⟨Desk.enabled, Desk.step x⟩

instance (x : Xkb σ) (d : Desk σ) (e : DeskEvent) : Decidable ((desk x).enabled d e) :=
  inferInstanceAs (Decidable (d.enabled e))

/-! ### What the compositor makes of the requests -/

/-- What is down after one more event. -/
def press (held : Finset UInt32) (code : UInt32) (pressed : Bool) : Finset UInt32 :=
  if pressed then insert code held else held.erase code

def pressKey (held : Finset UInt32) : InputRequest → Finset UInt32
  | .key key pressed => press held key pressed
  | _ => held

def pressButton (held : Finset UInt32) : InputRequest → Finset UInt32
  | .button button pressed => press held button pressed
  | _ => held

/-- The keys that the virtual keyboard holds pressed. -/
def heldKeys (requests : List InputRequest) : Finset UInt32 := requests.foldl pressKey ∅

/-- The buttons that the virtual pointer holds pressed. -/
def heldButtons (requests : List InputRequest) : Finset UInt32 := requests.foldl pressButton ∅

def InputRequest.sentModifiers : InputRequest → Option Modifiers
  | .modifiers m => some m
  | _ => none

/-- The modifier states that were sent, in order. -/
def modifiersOf (requests : List InputRequest) : List Modifiers :=
  requests.filterMap InputRequest.sentModifiers

end Wlrdp
