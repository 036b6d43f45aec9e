import Mathlib.Logic.Function.Basic
import Wlrdp.TransitionSystems

namespace Wlrdp
set_option autoImplicit true

/-! ### The namespace of the host -/

/-- The POSIX shared-memory objects that have a name, with the worker that created each. -/
abbrev ShmNamespace := String → Option Nat

/-- Why `shm_open` fails: the name exists already, or anything else. -/
inductive ShmError
  | eexist (creator : Nat)
  | other
deriving DecidableEq

/-- `shm_open` with `O_CREAT | O_EXCL`. -/
def shmOpen (names : ShmNamespace) (name : String) (creator : Nat) (resources : Bool) :
    Except ShmError ShmNamespace :=
  match names name with
  | some other => .error (.eexist other)
  | none => if resources then .ok (Function.update names name (some creator)) else .error .other

def shmUnlink (names : ShmNamespace) (name : String) : ShmNamespace :=
  Function.update names name none

/-! ### The workers -/

/-- The two functions of a worker that create a shared-memory object. -/
inductive ShmCall
  | createShmFile
  | setupKeymap
deriving DecidableEq

/-- `shm_open` takes the name as it is: it does not replace the X characters. -/
def ShmCall.name : ShmCall → String
  | .createShmFile => "/wlrdp-shm-XXXXXX"
  | .setupKeymap => "/wlrdp-keymap-XXXXXX"

/-- A worker process, and the call that is between its `shm_open` and its `shm_unlink`. -/
structure ShmProcess where
  alive : Bool
  inside : Option ShmCall
deriving DecidableEq

structure ShmHost where
  names : ShmNamespace
  workers : Nat → ShmProcess

def ShmHost.init : ShmHost where
  names := fun _ => none
  workers := fun _ => ⟨true, none⟩

inductive ShmEvent
  | shmOpen (worker : Nat) (call : ShmCall) (resources : Bool)
  | shmUnlink (worker : Nat)
  | kill (worker : Nat)
deriving DecidableEq

namespace ShmHost

def setWorker (s : ShmHost) (worker : Nat) (p : ShmProcess) : ShmHost :=
  { s with workers := Function.update s.workers worker p }

/-- A failed `shm_open` leaves the capture without a buffer; without a keymap the worker ends. -/
def openFailed (s : ShmHost) (worker : Nat) : ShmCall → ShmHost
  | .createShmFile => s
  | .setupKeymap => s.setWorker worker ⟨false, none⟩

def unlinked (s : ShmHost) (worker : Nat) : Option ShmCall → ShmHost
  | none => s
  | some call =>
    { s with names := Wlrdp.shmUnlink s.names call.name }.setWorker worker ⟨true, none⟩

def step (s : ShmHost) : ShmEvent → ShmHost
  | .shmOpen worker call resources =>
    match Wlrdp.shmOpen s.names call.name worker resources with
    | .ok names => { s with names := names }.setWorker worker ⟨true, some call⟩
    | .error _ => s.openFailed worker call
  | .shmUnlink worker => s.unlinked worker (s.workers worker).inside
  | .kill worker => s.setWorker worker { s.workers worker with alive := false }

/-- A worker runs one call at a time. -/
def enabled (s : ShmHost) : ShmEvent → Prop
  | .shmOpen worker _ _ => s.workers worker = ⟨true, none⟩
  | .shmUnlink worker => (s.workers worker).alive = true ∧ (s.workers worker).inside.isSome = true
  | .kill worker => (s.workers worker).alive = true

instance (s : ShmHost) (e : ShmEvent) : Decidable (s.enabled e) :=
  match e with
  | .shmOpen _ _ _ => inferInstanceAs (Decidable (_ = _))
  | .shmUnlink _ => inferInstanceAs (Decidable (_ ∧ _))
  | .kill _ => inferInstanceAs (Decidable (_ = _))

/-- The creator of the name that makes the event fail. -/
def blockedBy (s : ShmHost) : ShmEvent → Option Nat
  | .shmOpen worker call resources =>
    match Wlrdp.shmOpen s.names call.name worker resources with
    | .error (.eexist creator) => some creator
    | _ => none
  | _ => none

/-- The event does not fail because of a name that another worker created. -/
def Unblocked (s : ShmHost) : ShmEvent → Prop
  | .shmOpen worker call resources =>
    ∀ other, s.blockedBy (.shmOpen worker call resources) = some other → other = worker
  | _ => True

/-- No other worker is in the same call between its two steps, or was killed there. -/
def Alone (s : ShmHost) : ShmEvent → Prop
  | .shmOpen worker call _ => ∀ other, (s.workers other).inside = some call → other = worker
  | _ => True

end ShmHost

def shmHost : System ShmHost ShmEvent := ⟨ShmHost.enabled, ShmHost.step⟩

instance (s : ShmHost) (e : ShmEvent) : Decidable (shmHost.enabled s e) :=
  inferInstanceAs (Decidable (s.enabled e))

/-! ### Who owns a name -/

variable {s : ShmHost} {call : ShmCall} {worker : Nat} {p : ShmProcess}

theorem ShmCall.name_injective : Function.Injective ShmCall.name := by
  intro a b h
  cases a <;> cases b
  · rfl
  · exact absurd h (by decide)
  · exact absurd h (by decide)
  · rfl

/-- A name exists exactly as long as its creator is between its two steps, for ever if it was
killed there. -/
def NamesHeld (s : ShmHost) : Prop :=
  ∀ call worker, s.names call.name = some worker ↔ (s.workers worker).inside = some call

theorem NamesHeld.init : NamesHeld .init := by
  intro call worker
  apply iff_of_false
  · intro h
    cases h
  · intro h
    cases h

/-- A worker that keeps its place. -/
theorem NamesHeld.setWorker (h : NamesHeld s) (hi : p.inside = (s.workers worker).inside) :
    NamesHeld (s.setWorker worker p) := by
  intro call other
  refine (h call other).trans ?_
  change _ ↔ (Function.update s.workers worker p other).inside = some call
  by_cases ho : other = worker
  · subst ho
    rw [Function.update_self, hi]
  · rw [Function.update_of_ne ho]

theorem NamesHeld.opened (h : NamesHeld s) (hout : (s.workers worker).inside = none)
    (hfree : s.names call.name = none) :
    NamesHeld ({ s with names := Function.update s.names call.name (some worker) }.setWorker
      worker ⟨true, some call⟩) := by
  intro call' other
  change Function.update s.names call.name (some worker) call'.name = some other ↔
    (Function.update s.workers worker ⟨true, some call⟩ other).inside = some call'
  by_cases hc : call' = call
  · subst hc
    rw [Function.update_self]
    by_cases ho : other = worker
    · subst ho
      rw [Function.update_self]
      exact iff_of_true rfl rfl
    · rw [Function.update_of_ne ho, ← h call' other, hfree]
      exact iff_of_false (fun h => ho (Option.some.inj h).symm) (fun h => by cases h)
  · rw [Function.update_of_ne (ShmCall.name_injective.ne hc)]
    by_cases ho : other = worker
    · subst ho
      rw [Function.update_self, h call' other, hout]
      exact iff_of_false (fun h => by cases h) (fun h => hc (Option.some.inj h).symm)
    · rw [Function.update_of_ne ho]
      exact h call' other

theorem NamesHeld.unlinked (h : NamesHeld s) (hin : (s.workers worker).inside = some call) :
    NamesHeld (s.unlinked worker (some call)) := by
  have hname : s.names call.name = some worker := (h call worker).2 hin
  intro call' other
  change Function.update s.names call.name none call'.name = some other ↔
    (Function.update s.workers worker ⟨true, none⟩ other).inside = some call'
  by_cases ho : other = worker
  · subst ho
    rw [Function.update_self]
    by_cases hc : call' = call
    · subst hc
      rw [Function.update_self]
      exact iff_of_false (fun h => by cases h) (fun h => by cases h)
    · rw [Function.update_of_ne (ShmCall.name_injective.ne hc), h call' other, hin]
      exact iff_of_false (fun h => hc (Option.some.inj h).symm) (fun h => by cases h)
  · rw [Function.update_of_ne ho, ← h call' other]
    by_cases hc : call' = call
    · subst hc
      rw [Function.update_self, hname]
      exact iff_of_false (fun h => by cases h) (fun h => ho (Option.some.inj h).symm)
    · rw [Function.update_of_ne (ShmCall.name_injective.ne hc)]

theorem namesHeld_step (s : ShmHost) (e : ShmEvent) (h : NamesHeld s) (he : shmHost.enabled s e) :
    NamesHeld (shmHost.step s e) := by
  cases e with
  | shmOpen worker call resources =>
    have hworker : s.workers worker = ⟨true, none⟩ := he
    have hout : (s.workers worker).inside = none := by rw [hworker]
    have hfailed : NamesHeld (s.openFailed worker call) := by
      cases call with
      | createShmFile => exact h
      | setupKeymap => exact h.setWorker hout.symm
    change NamesHeld (s.step (.shmOpen worker call resources))
    rw [ShmHost.step, shmOpen]
    cases hname : s.names call.name with
    | some other => exact hfailed
    | none =>
      cases resources with
      | true => exact h.opened hout hname
      | false => exact hfailed
  | shmUnlink worker =>
    obtain ⟨_, hin⟩ := he
    obtain ⟨call, hcall⟩ := Option.isSome_iff_exists.1 hin
    change NamesHeld (s.unlinked worker (s.workers worker).inside)
    rw [hcall]
    exact h.unlinked hcall
  | kill worker => exact h.setWorker rfl

theorem unblocked_iff_alone (s : ShmHost) (e : ShmEvent) (h : NamesHeld s)
    (_ : shmHost.enabled s e) : s.Unblocked e ↔ s.Alone e := by
  cases e with
  | shmOpen worker call resources =>
    have hblocked : ∀ other, s.blockedBy (.shmOpen worker call resources) = some other ↔
        (s.workers other).inside = some call := by
      intro other
      rw [← h call other, ShmHost.blockedBy, shmOpen]
      cases s.names call.name with
      | some creator => exact Iff.rfl
      | none => cases resources <;> exact iff_of_false (fun h => by cases h) (fun h => by cases h)
    exact forall_congr' fun other => imp_congr_left (hblocked other)
  | shmUnlink worker => exact Iff.rfl
  | kill worker => exact Iff.rfl

/-- Workers do not make each other's shared memory fail, exactly if none ever opens a name while
another is between its two steps for that name, or was killed there. -/
theorem shm_unblocked_iff (hl : shmHost.Legal .init es) :
    shmHost.Along ShmHost.Unblocked .init es ↔ shmHost.Along ShmHost.Alone .init es :=
  System.along_congr namesHeld_step unblocked_iff_alone NamesHeld.init hl

theorem shm_unblocked_iff_in_turn :
    shmHost.Along ShmHost.Unblocked .init
        [.shmOpen 0 .createShmFile true, .shmUnlink 0, .shmOpen 1 .createShmFile true] ↔
      shmHost.Along ShmHost.Alone .init
        [.shmOpen 0 .createShmFile true, .shmUnlink 0, .shmOpen 1 .createShmFile true] :=
  shm_unblocked_iff (by decide)

/-- The second of two captures that start at the same time fails, and no keymap can be set up
any more once a worker was killed between the two steps. -/
theorem shm_blocked :
    (shmHost.Legal .init [.shmOpen 0 .createShmFile true, .shmOpen 1 .createShmFile true] ∧
      ¬shmHost.Along ShmHost.Unblocked .init
        [.shmOpen 0 .createShmFile true, .shmOpen 1 .createShmFile true]) ∧
    shmHost.Legal .init [.shmOpen 0 .setupKeymap true, .kill 0, .shmOpen 1 .setupKeymap true] ∧
      ¬shmHost.Along ShmHost.Unblocked .init
        [.shmOpen 0 .setupKeymap true, .kill 0, .shmOpen 1 .setupKeymap true] := by
  refine ⟨⟨by decide, fun h => ?_⟩, by decide, fun h => ?_⟩
  · have hsame := h.2.1 0 (by decide)
    cases hsame
  · have hsame := h.2.2.1 0 (by decide)
    cases hsame

end Wlrdp
