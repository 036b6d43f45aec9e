import Mathlib.Data.Finset.Image
import Wlrdp.InputIsolation

namespace Wlrdp
set_option autoImplicit true

/-! ### Keys and key events -/

/-- A key of the client's keyboard. -/
structure PhysicalKey where
  extended : Bool
  code : UInt8
deriving DecidableEq

/-- The evdev key that the worker takes the key for. -/
def PhysicalKey.evdev (k : PhysicalKey) : UInt32 :=
  evdevKey (if k.extended then kbdFlagsExtended else 0) k.code

/-- The flags and the scan code of a keyboard event. -/
structure KeyEvent where
  flags : UInt16
  code : UInt8
deriving DecidableEq

namespace KeyEvent

def key (e : KeyEvent) : PhysicalKey := ⟨e.flags &&& kbdFlagsExtended ≠ 0, e.code⟩

def pressed (e : KeyEvent) : Bool := e.flags &&& kbdFlagsRelease = 0

end KeyEvent

/-- libxkbcommon with a record of the calls of `xkb_state_update_key`. -/
def Xkb.logged (x : Xkb σ) : Xkb (σ × List (UInt32 × Bool)) where
  stateNew := (x.stateNew, [])
  stateUpdateKey s code pressed := (x.stateUpdateKey s.1 code pressed, s.2 ++ [(code, pressed)])
  stateSerialize s := x.stateSerialize s.1

/-- One call counts: a key that goes down twice has to go up twice. -/
def countCall (code : UInt32) (n : Nat) (call : UInt32 × Bool) : Nat :=
  if call.1 = code then if call.2 then n + 1 else n - 1 else n

/-- How often the key with the xkb code is down after the calls. -/
def downs (calls : List (UInt32 × Bool)) (code : UInt32) : Nat := calls.foldl (countCall code) 0

/-- A desk with the keys that are held at the client. -/
structure Typing (σ : Type) where
  desk : Desk (σ × List (UInt32 × Bool))
  held : Finset PhysicalKey

namespace Typing

/-- Nobody has typed yet. -/
def start (x : Xkb σ) (w : Worker) : Typing σ := ⟨⟨w, x.logged.stateNew, []⟩, ∅⟩

def step (x : Xkb σ) (s : Typing σ) (e : KeyEvent) : Typing σ where
  desk := s.desk.step x.logged (.keyboard e.flags e.code)
  held := if e.pressed then insert e.key s.held else s.held.erase e.key

/-- When a key is released, no other key that stands for its evdev key is held, and the keyboard
state has not been told a second time that it went down. -/
def releasesAlone (s : Typing σ) (e : KeyEvent) : Bool :=
  e.pressed || (decide (∀ k ∈ s.held, k.evdev = e.key.evdev → k = e.key) &&
    decide (downs s.desk.xkbState.2 (e.key.evdev + 8) ≤ 1))

end Typing

/-- The keyboard events of an attached client, in any order. -/
def typing (x : Xkb σ) : System (Typing σ) KeyEvent :=
  ⟨fun s e => s.desk.enabled (.keyboard e.flags e.code), Typing.step x⟩

instance (x : Xkb σ) (s : Typing σ) (e : KeyEvent) : Decidable ((typing x).enabled s e) :=
  inferInstanceAs (Decidable (s.desk.enabled (.keyboard e.flags e.code)))

/-- The compositor and the keyboard state hold the translations of the held keys and no others,
and the modifiers that were sent last are those of the keyboard state. -/
structure KeysAgree (x : Xkb σ) (s : Typing σ) : Prop where
  compositor : heldKeys s.desk.requests = s.held.image PhysicalKey.evdev
  xkb : ∀ key, 0 < downs s.desk.xkbState.2 (key + 8) ↔ key ∈ s.held.image PhysicalKey.evdev
  modifiers : s.desk.requests ≠ [] →
    (modifiersOf s.desk.requests).getLast? = some (x.stateSerialize s.desk.xkbState.1)

/-! ### What one event does -/

variable {x : Xkb σ} {s : Typing σ} {e : KeyEvent}

theorem KeysAgree.start (w : Worker) : KeysAgree x (.start x w) :=
  ⟨rfl, fun _ => iff_of_false (Nat.lt_irrefl 0) (Finset.notMem_empty _),
    fun h => absurd rfl h⟩

/-- The translation looks at the extended flag only. -/
theorem evdevKey_congr (h : f &&& kbdFlagsExtended ≠ 0 ↔ f' &&& kbdFlagsExtended ≠ 0)
    (code : UInt8) : evdevKey f code = evdevKey f' code := by
  unfold evdevKey
  exact if_congr h rfl rfl

theorem evdev_key (e : KeyEvent) : e.key.evdev = evdevKey e.flags e.code := by
  apply evdevKey_congr
  split
  · next hext => exact iff_of_true (by decide) (of_decide_eq_true hext)
  · next hnone => exact iff_of_false (by decide) fun h => hnone (decide_eq_true h)

theorem downs_append (calls : List (UInt32 × Bool)) (call : UInt32 × Bool) (code : UInt32) :
    downs (calls ++ [call]) code = countCall code (downs calls code) call := by
  rw [downs, List.foldl_append]
  rfl

theorem step_desk (x : Xkb σ) (s : Typing σ) (e : KeyEvent) : (s.step x e).desk =
    { s.desk with
      xkbState := (x.stateUpdateKey s.desk.xkbState.1 (e.key.evdev + 8) e.pressed,
        s.desk.xkbState.2 ++ [(e.key.evdev + 8, e.pressed)])
      requests := s.desk.requests ++ [.key e.key.evdev e.pressed] ++ [.modifiers (x.stateSerialize
        (x.stateUpdateKey s.desk.xkbState.1 (e.key.evdev + 8) e.pressed))] } := by
  rw [evdev_key]
  rfl

theorem step_heldKeys (x : Xkb σ) (s : Typing σ) (e : KeyEvent) :
    heldKeys (s.step x e).desk.requests =
      press (heldKeys s.desk.requests) e.key.evdev e.pressed := by
  rw [step_desk, heldKeys_append, heldKeys_append]
  rfl

/-- The modifiers that are sent last are always those of the keyboard state. -/
theorem step_modifiers (x : Xkb σ) (s : Typing σ) (e : KeyEvent) :
    (modifiersOf (s.step x e).desk.requests).getLast? =
      some (x.stateSerialize (s.step x e).desk.xkbState.1) := by
  rw [step_desk, modifiersOf_append]
  exact List.getLast?_concat

theorem step_downs (x : Xkb σ) (s : Typing σ) (e : KeyEvent) (key : UInt32) :
    downs (s.step x e).desk.xkbState.2 (key + 8) =
      if e.key.evdev = key then
        if e.pressed then downs s.desk.xkbState.2 (key + 8) + 1
        else downs s.desk.xkbState.2 (key + 8) - 1
      else downs s.desk.xkbState.2 (key + 8) := by
  rw [step_desk]
  simp only [downs_append, countCall, UInt32.add_left_inj]

theorem KeysAgree.press (h : KeysAgree x s) (hp : e.pressed = true) : KeysAgree x (s.step x e) := by
  have hheld : (s.step x e).held = insert e.key s.held := if_pos hp
  refine ⟨?_, fun key => ?_, fun _ => step_modifiers x s e⟩
  · rw [step_heldKeys, hp, hheld, Finset.image_insert, ← h.compositor]
    rfl
  · rw [step_downs, hheld, Finset.image_insert, Finset.mem_insert]
    split
    · next heq => exact iff_of_true (Nat.succ_pos _) (.inl heq.symm)
    · next hne =>
      rw [h.xkb]
      exact ⟨.inr, fun hmem => hmem.resolve_left fun heq => hne heq.symm⟩

/-- A release takes away the translation of one key, if no other key has it. -/
theorem image_erase_iff {held : Finset PhysicalKey} {k : PhysicalKey} :
    (held.erase k).image PhysicalKey.evdev = (held.image PhysicalKey.evdev).erase k.evdev ↔
      ∀ j ∈ held, j.evdev = k.evdev → j = k := by
  constructor
  · intro h j hj heq
    by_contra hne
    have hmem := Finset.mem_image_of_mem PhysicalKey.evdev (Finset.mem_erase.2 ⟨hne, hj⟩)
    rw [h, heq] at hmem
    exact Finset.notMem_erase _ _ hmem
  · intro h
    ext key
    rw [Finset.mem_image, Finset.mem_erase, Finset.mem_image]
    constructor
    · rintro ⟨j, hj, rfl⟩
      obtain ⟨hne, hj⟩ := Finset.mem_erase.1 hj
      exact ⟨fun heq => hne (h j hj heq), j, hj, rfl⟩
    · rintro ⟨hne, j, hj, rfl⟩
      exact ⟨j, Finset.mem_erase.2 ⟨fun heq => hne (heq ▸ rfl), hj⟩, rfl⟩

theorem KeysAgree.release_iff (h : KeysAgree x s) (hp : e.pressed = false) :
    KeysAgree x (s.step x e) ↔ (∀ k ∈ s.held, k.evdev = e.key.evdev → k = e.key) ∧
      downs s.desk.xkbState.2 (e.key.evdev + 8) ≤ 1 := by
  have hheld : (s.step x e).held = s.held.erase e.key := if_neg (by rw [hp]; decide)
  have hcompositor : heldKeys (s.step x e).desk.requests =
      (s.held.image PhysicalKey.evdev).erase e.key.evdev := by
    rw [step_heldKeys, hp, h.compositor]
    rfl
  constructor
  · intro h'
    have himage := h'.compositor
    rw [hcompositor, hheld] at himage
    refine ⟨image_erase_iff.1 himage.symm, ?_⟩
    have hup := h'.xkb e.key.evdev
    rw [hheld, ← himage, step_downs, if_pos rfl, hp] at hup
    have hgone := mt hup.1 (Finset.notMem_erase _ _)
    rw [if_neg (by decide)] at hgone
    omega
  · rintro ⟨halone, honce⟩
    have himage := image_erase_iff.2 halone
    refine ⟨?_, fun key => ?_, fun _ => step_modifiers x s e⟩
    · rw [hcompositor, hheld, himage]
    · rw [step_downs, hheld, himage, hp, Finset.mem_erase, ← h.xkb key]
      split
      · next heq =>
        rw [← heq, if_neg (by decide)]
        exact iff_of_false (by omega) fun hmem => hmem.1 rfl
      · next hne => exact ⟨fun hmem => ⟨fun heq => hne heq.symm, hmem⟩, And.right⟩

theorem keysAgree_step_iff (x : Xkb σ) (s : Typing σ) (e : KeyEvent) (h : KeysAgree x s) :
    KeysAgree x ((typing x).step s e) ↔ s.releasesAlone e = true := by
  change KeysAgree x (s.step x e) ↔ _
  rw [Typing.releasesAlone]
  cases hp : e.pressed with
  | true => exact iff_of_true (h.press hp) rfl
  | false =>
    rw [h.release_iff hp, Bool.false_or, Bool.and_eq_true, decide_eq_true_eq, decide_eq_true_eq]

/-- In every sequence of presses and releases, the held keys and their translations agree
throughout, if and only if no key is released that shares its translation with another held key
or went down more than once. -/
theorem keys_independent_iff (x : Xkb σ) (w : Worker) (es : List KeyEvent) :
    (typing x).Always (KeysAgree x) (.start x w) es ↔
      (typing x).Along (fun s e => s.releasesAlone e = true) (.start x w) es :=
  System.always_iff_along (I := fun _ => True) (D := fun _ _ => True) (fun _ _ _ _ => trivial)
    (fun s e _ h _ => keysAgree_step_iff x s e h) trivial (.start w)
    (System.along_of_forall fun _ _ => trivial)

/-- The asterisk of the keypad is held while Print Screen is pressed and released. -/
theorem asterisk_released :
    let es : List KeyEvent := [⟨0, 0x37⟩, ⟨kbdFlagsExtended, 0x37⟩,
      ⟨kbdFlagsExtended ||| kbdFlagsRelease, 0x37⟩]
    let s := (typing usModifiers).run (.start usModifiers (deskAfter []).worker) es
    (typing usModifiers).Legal (.start usModifiers (deskAfter []).worker) es ∧
      s.held = {⟨false, 0x37⟩} ∧ heldKeys s.desk.requests = ∅ ∧
      ¬ (typing usModifiers).Always (KeysAgree usModifiers)
        (.start usModifiers (deskAfter []).worker) es := by
  have hheld : ((typing usModifiers).run (.start usModifiers (deskAfter []).worker)
      [⟨0, 0x37⟩, ⟨kbdFlagsExtended, 0x37⟩, ⟨kbdFlagsExtended ||| kbdFlagsRelease, 0x37⟩]).held =
        {⟨false, 0x37⟩} := by decide +kernel
  have hkeys : heldKeys ((typing usModifiers).run (.start usModifiers (deskAfter []).worker)
      [⟨0, 0x37⟩, ⟨kbdFlagsExtended, 0x37⟩,
        ⟨kbdFlagsExtended ||| kbdFlagsRelease, 0x37⟩]).desk.requests = ∅ := by decide +kernel
  refine ⟨by decide +kernel, hheld, hkeys, fun h => ?_⟩
  have hagree := h.last.compositor
  rw [hheld, hkeys] at hagree
  revert hagree
  decide

end Wlrdp
