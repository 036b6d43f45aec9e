import Wlrdp.InputSemantics

namespace Wlrdp
set_option autoImplicit true

variable {x : Xkb σ} {d d' : Desk σ} {n n' : Nat}

/-! ### Requests one at a time -/

theorem heldKeys_append (rs : List InputRequest) (r : InputRequest) :
    heldKeys (rs ++ [r]) = pressKey (heldKeys rs) r := List.foldl_concat ..

theorem heldButtons_append (rs : List InputRequest) (r : InputRequest) :
    heldButtons (rs ++ [r]) = pressButton (heldButtons rs) r := List.foldl_concat ..

theorem modifiersOf_append (rs : List InputRequest) (r : InputRequest) :
    modifiersOf (rs ++ [r]) = modifiersOf rs ++ r.sentModifiers.toList := by
  rw [modifiersOf, List.filterMap_append]
  cases r <;> rfl

/-! ### Two desks that cannot be told apart -/

/-- The requests make the compositor hold the same and have carried the same modifiers, after
the first `n` and `n'` states. -/
structure SameHeld (n n' : Nat) (rs rs' : List InputRequest) : Prop where
  keys : heldKeys rs = heldKeys rs'
  buttons : heldButtons rs = heldButtons rs'
  modifiers : (modifiersOf rs).drop n = (modifiersOf rs').drop n'
  first : n ≤ (modifiersOf rs).length
  first' : n' ≤ (modifiersOf rs').length

theorem SameHeld.append (h : SameHeld n n' rs rs') (hk : ∀ held, pressKey held r = pressKey held r')
    (hb : ∀ held, pressButton held r = pressButton held r')
    (hm : r.sentModifiers = r'.sentModifiers) : SameHeld n n' (rs ++ [r]) (rs' ++ [r']) := by
  constructor
  · rw [heldKeys_append, heldKeys_append, h.keys, hk]
  · rw [heldButtons_append, heldButtons_append, h.buttons, hb]
  · rw [modifiersOf_append, modifiersOf_append, List.drop_append_of_le_length h.first,
      List.drop_append_of_le_length h.first', h.modifiers, hm]
  · rw [modifiersOf_append, List.length_append]
    exact h.first.trans (Nat.le_add_right ..)
  · rw [modifiersOf_append, List.length_append]
    exact h.first'.trans (Nat.le_add_right ..)

/-- The keyboards go on alike, and the compositor has been told the same. -/
structure Alike (x : Xkb σ) (n n' : Nat) (d d' : Desk σ) : Prop where
  keyboard : ∀ keys, x.stateSerialize (x.feed d.xkbState keys) =
    x.stateSerialize (x.feed d'.xkbState keys)
  held : SameHeld n n' d.requests d'.requests

theorem Alike.request (h : Alike x n n' d d') (r : InputRequest) :
    Alike x n n' (d.request r) (d'.request r) :=
  ⟨h.keyboard, h.held.append (fun _ => rfl) (fun _ => rfl) rfl⟩

/-- The two sessions may differ in size. -/
theorem Alike.motion (h : Alike x n n' d d') (px py : UInt32) :
    Alike x n n' (d.inputPointerMotion px py) (d'.inputPointerMotion px py) := by
  have hmoved : Alike x n n'
      (d.request (.motionAbsolute px py d.worker.inputWidth d.worker.inputHeight))
      (d'.request (.motionAbsolute px py d'.worker.inputWidth d'.worker.inputHeight)) :=
    ⟨h.keyboard, h.held.append (fun _ => rfl) (fun _ => rfl) rfl⟩
  exact hmoved.request .frame

theorem Alike.button (h : Alike x n n' d d') (button : UInt32) (pressed : Bool) :
    Alike x n n' (d.inputPointerButton button pressed) (d'.inputPointerButton button pressed) :=
  (h.request (.button button pressed)).request .frame

theorem Alike.axis (h : Alike x n n' d d') (value : Int) :
    Alike x n n' (d.inputPointerAxis value) (d'.inputPointerAxis value) :=
  (h.request (.axis (value * 256))).request .frame

theorem Alike.key (h : Alike x n n' d d') (key : UInt32) (pressed : Bool) :
    Alike x n n' (d.inputKeyboardKey x key pressed) (d'.inputKeyboardKey x key pressed) := by
  have hnext : ∀ keys, x.stateSerialize
      (x.feed (x.stateUpdateKey d.xkbState (key + 8) pressed) keys) =
      x.stateSerialize (x.feed (x.stateUpdateKey d'.xkbState (key + 8) pressed) keys) :=
    fun keys => h.keyboard ((key + 8, pressed) :: keys)
  refine ⟨hnext, ?_⟩
  have hsent := (h.request (.key key pressed)).held
  have hnow := hnext []
  apply hsent.append
  · exact fun _ => rfl
  · exact fun _ => rfl
  · exact congrArg some hnow

theorem Alike.mouseButton (h : Alike x n n' d d') (flags mask : UInt16) (button : UInt32) :
    Alike x n n' (d.mouseButton flags mask button) (d'.mouseButton flags mask button) := by
  rw [Desk.mouseButton, Desk.mouseButton]
  split
  · exact h.button button _
  · exact h

theorem Alike.mouse (h : Alike x n n' d d') (flags px py : UInt16) :
    Alike x n n' (d.onMouseEvent flags px py) (d'.onMouseEvent flags px py) := by
  have hmoved : Alike x n n'
      (if flags &&& ptrFlagsMove ≠ 0 then d.inputPointerMotion px.toUInt32 py.toUInt32 else d)
      (if flags &&& ptrFlagsMove ≠ 0 then d'.inputPointerMotion px.toUInt32 py.toUInt32 else d') := by
    split
    · exact h.motion _ _
    · exact h
  have hpressed := ((hmoved.mouseButton flags ptrFlagsButton1 btnLeft).mouseButton flags
    ptrFlagsButton2 btnRight).mouseButton flags ptrFlagsButton3 btnMiddle
  simp only [Desk.onMouseEvent]
  split
  · exact hpressed.axis _
  · exact hpressed

/-- No event tells the two desks apart. -/
theorem Alike.step (d d' : Desk σ) (e : DeskEvent) (h : Alike x n n' d d') :
    Alike x n n' (d.step x e) (d'.step x e) := by
  cases e with
  | worker e => exact ⟨h.keyboard, h.held⟩
  | keyboard flags code => exact h.key _ _
  | mouse flags px py => exact h.mouse flags px py
  | extendedMouse flags px py => exact h.motion _ _

/-! ### Handing over -/

/-- The modifier states that are sent for the events. -/
def Desk.sentFor (x : Xkb σ) (d : Desk σ) (es : List DeskEvent) : List Modifiers :=
  (modifiersOf ((desk x).run d es).requests).drop (modifiersOf d.requests).length

/-- The same events make the compositor hold the same keys and buttons, and are sent with the
same modifier states. -/
structure SameView (x : Xkb σ) (d d' : Desk σ) (es : List DeskEvent) : Prop where
  keys : heldKeys ((desk x).run d es).requests = heldKeys ((desk x).run d' es).requests
  buttons : heldButtons ((desk x).run d es).requests = heldButtons ((desk x).run d' es).requests
  modifiers : d.sentFor x es = d'.sentFor x es

/-- A client has just been attached. Whoever was attached before may have sent anything and
have left at any point. -/
inductive HandedOver (x : Xkb σ) (d : Desk σ) : Prop
  | attached (standalone clipboard audio : Bool) (width height : UInt32) (es : List DeskEvent)
      (e : Event)
      (hl : (desk x).Legal (.start x standalone clipboard audio width height) (es ++ [.worker e]))
      (hd : d = (desk x).run (.start x standalone clipboard audio width height)
        (es ++ [.worker e]))
      (hc : d.worker.client.any (·.id = ((desk x).run
        (.start x standalone clipboard audio width height) es).worker.nextClient) = true)

/-- No key and no button is held, neither by the compositor nor by the keyboard state. -/
structure Desk.Released (x : Xkb σ) (d : Desk σ) : Prop where
  keys : heldKeys d.requests = ∅
  buttons : heldButtons d.requests = ∅
  modifiers : x.Neutral d.xkbState

/-- The locks and the layout agree. -/
structure SameLocks (x : Xkb σ) (d d' : Desk σ) : Prop where
  locked : (x.stateSerialize d.xkbState).locked = (x.stateSerialize d'.xkbState).locked
  group : (x.stateSerialize d.xkbState).group = (x.stateSerialize d'.xkbState).group

theorem Alike.run (h : Alike x n n' d d') :
    Alike x n n' ((desk x).run d es) ((desk x).run d' es) := System.run_related Alike.step h

theorem Alike.view (h : Alike x (modifiersOf d.requests).length (modifiersOf d'.requests).length
    d d') : SameView x d d' es := by
  have hrun : Alike x _ _ ((desk x).run d es) ((desk x).run d' es) := h.run
  obtain ⟨hk, hb, hm, _, _⟩ := hrun.held
  exact ⟨hk, hb, hm⟩

/-- The keyboard state has been fed some series of keys. -/
def Desk.Fed (x : Xkb σ) (d : Desk σ) : Prop := ∃ keys, d.xkbState = x.feed x.stateNew keys

theorem onMouseEvent_xkbState (d : Desk σ) (flags px py : UInt16) :
    (d.onMouseEvent flags px py).xkbState = d.xkbState := by
  have hbutton : ∀ (d : Desk σ) mask button, (d.mouseButton flags mask button).xkbState =
      d.xkbState := by
    intro d mask button
    rw [Desk.mouseButton]
    split <;> rfl
  have hmoved : (if flags &&& ptrFlagsMove ≠ 0 then d.inputPointerMotion px.toUInt32 py.toUInt32
      else d).xkbState = d.xkbState := by
    split <;> rfl
  simp only [Desk.onMouseEvent]
  split
  · exact (hbutton _ _ _).trans ((hbutton _ _ _).trans ((hbutton _ _ _).trans hmoved))
  · exact (hbutton _ _ _).trans ((hbutton _ _ _).trans ((hbutton _ _ _).trans hmoved))

theorem Desk.Fed.step (h : d.Fed x) : (d.step x e).Fed x := by
  obtain ⟨keys, hkeys⟩ := h
  cases e with
  | worker e => exact ⟨keys, hkeys⟩
  | keyboard flags code =>
    refine ⟨keys ++ [(evdevKey flags code + 8, decide (flags &&& kbdFlagsRelease = 0))], ?_⟩
    rw [Xkb.feed, List.foldl_concat]
    change x.stateUpdateKey d.xkbState _ _ = _
    rw [hkeys]
    rfl
  | mouse flags px py => exact ⟨keys, (onMouseEvent_xkbState d flags px py).trans hkeys⟩
  | extendedMouse flags px py => exact ⟨keys, hkeys⟩

theorem HandedOver.fed (h : HandedOver x d) : d.Fed x := by
  obtain ⟨standalone, clipboard, audio, width, height, es, e, _, rfl, _⟩ := h
  have hrun : ∀ {es : List DeskEvent} {d : Desk σ}, d.Fed x → ((desk x).run d es).Fed x := by
    intro es
    induction es with
    | nil => exact id
    | cons e es ih => exact fun h => ih h.step
  exact hrun ⟨[], rfl⟩

theorem alike_of_released (hx : x.Documented) (hd : d.Fed x) (hd' : d'.Fed x)
    (hr : d.Released x) (hr' : d'.Released x) (hlocks : SameLocks x d d') :
    Alike x (modifiersOf d.requests).length (modifiersOf d'.requests).length d d' := by
  obtain ⟨keys, hkeys⟩ := hd
  obtain ⟨keys', hkeys'⟩ := hd'
  have hn := hr.modifiers
  have hn' := hr'.modifiers
  have hlocked := hlocks.locked
  have hgroup := hlocks.group
  rw [hkeys] at hn hlocked hgroup
  rw [hkeys'] at hn' hlocked hgroup
  constructor
  · rw [hkeys, hkeys']
    exact hx.determined keys keys' hn hn' hlocked hgroup
  · constructor
    · exact hr.keys.trans hr'.keys.symm
    · exact hr.buttons.trans hr'.buttons.symm
    · rw [List.drop_length, List.drop_length]
    · exact le_rfl
    · exact le_rfl

/-- The release of a key without a modifier shows what the keyboard holds. -/
theorem sentFor_ordinary (hx : x.Documented) (d : Desk σ) :
    d.sentFor x [.keyboard kbdFlagsRelease 30] = [x.stateSerialize d.xkbState] := by
  have hkey : evdevKey kbdFlagsRelease 30 = keyA := by decide
  have hup : decide (kbdFlagsRelease &&& kbdFlagsRelease = 0) = false := by decide
  have hstep : (desk x).run d [.keyboard kbdFlagsRelease 30] = d.inputKeyboardKey x keyA false := by
    change d.onKeyboardEvent x kbdFlagsRelease 30 = _
    rw [Desk.onKeyboardEvent, hkey, hup]
  have hlength : (modifiersOf d.requests).length ≤ (modifiersOf (d.requests ++
      [.key keyA false])).length := by
    rw [modifiersOf_append, List.length_append]
    exact Nat.le_add_right ..
  rw [Desk.sentFor, hstep]
  change List.drop _ (modifiersOf (d.requests ++ [.key keyA false] ++ [.modifiers
    (x.stateSerialize (x.stateUpdateKey d.xkbState (keyA + 8) false))])) = _
  rw [hx.ordinary, modifiersOf_append, List.drop_append_of_le_length hlength, modifiersOf_append]
  change List.drop _ (modifiersOf d.requests ++ []) ++ [_] = _
  rw [List.append_nil, List.drop_length, List.nil_append]

/-- What a new client does is seen as it is after any other run with the same locks that left
nothing held, exactly if nothing is held when the client is attached. -/
theorem input_isolated_iff (x : Xkb σ) (hx : x.Documented) (hd : HandedOver x d)
    (hd' : HandedOver x d') (hlocks : SameLocks x d d') (hreleased : d'.Released x) :
    (∀ es, SameView x d d' es) ↔ d.Released x := by
  constructor
  · intro h
    have hnow := h []
    have hsent := (h [.keyboard kbdFlagsRelease 30]).modifiers
    rw [sentFor_ordinary hx, sentFor_ordinary hx] at hsent
    have hserialized := (List.cons.inj hsent).1
    constructor
    · exact hnow.keys.trans hreleased.keys
    · exact hnow.buttons.trans hreleased.buttons
    · rw [Xkb.Neutral, hserialized]
      exact hreleased.modifiers
  · intro h es
    exact (alike_of_released hx hd.fed hd'.fed h hreleased hlocks).view

/-! ### A keyboard -/

/-- The modifier keys of the `us` layout that lock nothing. -/
inductive ModifierKey
  | shiftL | shiftR | controlL | controlR | altL | altR | superL | superR
deriving DecidableEq

def ModifierKey.mask : ModifierKey → UInt32
  | .shiftL | .shiftR => 1
  | .controlL | .controlR => 4
  | .altL | .altR => 8
  | .superL | .superR => 64

/-- The key with the xkb code. -/
def modifierKey (code : UInt32) : Option ModifierKey :=
  if code = 50 then some .shiftL
  else if code = 62 then some .shiftR
  else if code = 37 then some .controlL
  else if code = 105 then some .controlR
  else if code = 64 then some .altL
  else if code = 108 then some .altR
  else if code = 133 then some .superL
  else if code = 134 then some .superR
  else none

def depressedMask (held : List ModifierKey) : UInt32 :=
  held.foldr (fun key mask => key.mask ||| mask) 0

def updateModifiers (held : List ModifierKey) (code : UInt32) (down : Bool) : List ModifierKey :=
  match modifierKey code with
  | none => held
  | some key => if down then key :: held else held.erase key

/-- A keyboard on which no lock key is used. A key that went down twice has to go up twice. -/
def usModifiers : Xkb (List ModifierKey) where
  stateNew := []
  stateUpdateKey := updateModifiers
  stateSerialize held := ⟨depressedMask held, 0, 0, 0⟩

theorem depressedMask_eq_zero (h : depressedMask held = 0) : held = [] := by
  cases held with
  | nil => rfl
  | cons key held =>
    have hor : key.mask ||| depressedMask held = 0 := h
    have hmask := (UInt32.or_eq_zero_iff.1 hor).1
    cases key <;> cases hmask

theorem usModifiers_documented : usModifiers.Documented := by
  constructor
  · intro keys keys' hn hn' _ _ more
    have hheld : usModifiers.feed usModifiers.stateNew keys = [] := depressedMask_eq_zero hn.1
    have hheld' : usModifiers.feed usModifiers.stateNew keys' = [] := depressedMask_eq_zero hn'.1
    rw [hheld, hheld']
  · exact fun _ => rfl

/-- A client that sends the events and disconnects. -/
def firstClient (es : List DeskEvent) : List DeskEvent :=
  .worker (.peerAccepted (.accepted (.basic 800 600 true false))) :: es ++ [.worker .checkFailed]

/-- The desk when the second client is attached. -/
def deskAfter (es : List DeskEvent) : Desk (List ModifierKey) :=
  (desk usModifiers).run (.start usModifiers true false false 800 600)
    (firstClient es ++ [.worker (.peerAccepted (.accepted (.basic 800 600 true false)))])

theorem input_isolated_iff_shift :
    (∀ es, SameView usModifiers (deskAfter [.keyboard 0 42, .keyboard kbdFlagsRelease 42])
        (deskAfter []) es) ↔
      (deskAfter [.keyboard 0 42, .keyboard kbdFlagsRelease 42]).Released usModifiers :=
  input_isolated_iff usModifiers usModifiers_documented
    (.attached true false false 800 600 (firstClient _) _ (by decide +kernel) rfl
      (by decide +kernel))
    (.attached true false false 800 600 (firstClient []) _ (by decide +kernel) rfl
      (by decide +kernel))
    ⟨rfl, rfl⟩ ⟨by decide +kernel, by decide +kernel, by decide +kernel, by decide +kernel⟩

/-- A client that leaves while it holds Shift: the compositor goes on holding the key, and the
next client's A is sent with Shift depressed. -/
theorem shift_stuck :
    (HandedOver usModifiers (deskAfter [.keyboard 0 42]) ∧ HandedOver usModifiers (deskAfter [])) ∧
      SameLocks usModifiers (deskAfter [.keyboard 0 42]) (deskAfter []) ∧
      heldKeys (deskAfter [.keyboard 0 42]).requests = {42} ∧
      (deskAfter [.keyboard 0 42]).sentFor usModifiers [.keyboard 0 30] = [⟨1, 0, 0, 0⟩] ∧
      ¬SameView usModifiers (deskAfter [.keyboard 0 42]) (deskAfter []) [.keyboard 0 30] := by
  have hover : HandedOver usModifiers (deskAfter [.keyboard 0 42]) :=
    .attached true false false 800 600 (firstClient _) _ (by decide +kernel) rfl
      (by decide +kernel)
  have hover' : HandedOver usModifiers (deskAfter []) :=
    .attached true false false 800 600 (firstClient []) _ (by decide +kernel) rfl
      (by decide +kernel)
  have hsent : (deskAfter [.keyboard 0 42]).sentFor usModifiers [.keyboard 0 30] =
      [⟨1, 0, 0, 0⟩] := by decide +kernel
  have hsent' : (deskAfter []).sentFor usModifiers [.keyboard 0 30] = [⟨0, 0, 0, 0⟩] := by
    decide +kernel
  refine ⟨⟨hover, hover'⟩, ⟨rfl, rfl⟩, by decide +kernel, hsent, fun h => ?_⟩
  have hsame := h.modifiers
  rw [hsent, hsent'] at hsame
  cases hsame

end Wlrdp
