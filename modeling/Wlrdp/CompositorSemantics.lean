import Wlrdp.TransitionSystems

namespace Wlrdp
set_option autoImplicit true

/-- Where the main function of the session worker is: in `compositor_launch`, before or after
its `fork`, in the initialisation, at the head of the main loop, at its `waitpid`, behind it,
before `epoll_wait`, behind that, at `cleanup`, and in `compositor_destroy`: before the first
`kill`, with that many polls left, before the second `kill` and at the last `waitpid`. -/
inductive SessionPc
  | launching
  | awaitingDisplay
  | initializing
  | test
  | collecting
  | clearing
  | waiting
  | dispatching
  | cleanup
  | terminating
  | polling (left : Nat)
  | killing
  | joining
  | done
deriving DecidableEq

/-- An unreaped child of the session worker. -/
structure SessionChild where
  pid : Nat
  exited : Bool
deriving DecidableEq

/-- The session worker as a process. `compPid` is `srv.comp.pid`, which is zero without a
compositor. -/
structure SessionProcess where
  pc : SessionPc
  running : Bool
  childExited : Bool
  compPid : Nat
  children : List SessionChild
deriving DecidableEq

def SessionProcess.start : SessionProcess where
  pc := .launching
  running := true
  childExited := false
  compPid := 0
  children := []

/-- How the initialisation before the main loop ends: at the loop, with a failure that destroys
the compositor and returns, or with one that goes to `cleanup`. -/
inductive SessionSetup
  | entered | returned | cleanedUp
deriving DecidableEq

/-- `childExits`, `sigchld` and `sigterm` come from outside, between any two steps of the
program: an exit makes a zombie and runs the handler. The shell that `system` starts is waited
for in there, so that all that is left of it is a `sigchld`. -/
inductive SessionInput
  | childExits (pid : Nat)
  | sigchld
  | sigterm
  | fork (pid : Option Nat)
  | displayReady (ok : Bool)
  | initialized (r : SessionSetup)
  | loopTest
  | waitpid (pid : Option Nat)
  | clearFlag
  | epollWait (failed : Bool)
  | dispatched (fatal : Bool)
  | peersFreed
  | kill
  | poll (pid : Option Nat)
  | join (interrupted : Bool)
deriving DecidableEq

namespace SessionProcess

/-- The head of `compositor_destroy`. -/
def destroy (s : SessionProcess) : SessionProcess :=
  if s.compPid = 0 then { s with pc := .done } else { s with pc := .terminating }

def reap (s : SessionProcess) (pid : Nat) : SessionProcess :=
  { s with children := s.children.filter (·.pid ≠ pid) }

def step (s : SessionProcess) : SessionInput → SessionProcess
  | .childExits pid =>
    { s with
      childExited := true
      children := s.children.map fun c => if c.pid = pid then { c with exited := true } else c }
  | .sigchld => { s with childExited := true }
  | .sigterm => { s with running := false }
  | .fork none => { s with pc := .done }
  | .fork (some pid) =>
    { s with pc := .awaitingDisplay, compPid := pid, children := ⟨pid, false⟩ :: s.children }
  | .displayReady ok => if ok then { s with pc := .initializing } else s.destroy
  | .initialized .entered => { s with pc := .test }
  | .initialized .returned => s.destroy
  | .initialized .cleanedUp => { s with pc := .cleanup }
  | .loopTest =>
    if !s.running then { s with pc := .cleanup }
    else if s.childExited then { s with pc := .collecting }
    else { s with pc := .waiting }
  | .waitpid none => { s with pc := .clearing }
  | .waitpid (some pid) =>
    { s.reap pid with pc := if pid = s.compPid then .cleanup else .clearing }
  | .clearFlag => { s with childExited := false, pc := .waiting }
  | .epollWait failed => { s with pc := if failed then .cleanup else .dispatching }
  | .dispatched fatal => { s with pc := .test, running := s.running && !fatal }
  | .peersFreed => s.destroy
  | .kill => { s with pc := if s.pc = .terminating then .polling 20 else .joining }
  | .poll (some pid) => { s.reap pid with compPid := 0, pc := .done }
  | .poll none =>
    match s.pc with
    | .polling (left + 1) => { s with pc := if left = 0 then .killing else .polling left }
    | _ => s
  | .join interrupted =>
    { (if interrupted then s else s.reap s.compPid) with compPid := 0, pc := .done }

def zombies (s : SessionProcess) : List Nat := (s.children.filter (·.exited)).map (·.pid)

def unreaped (s : SessionProcess) : List Nat := s.children.map (·.pid)

/-- When an event can happen. -/
def admits (s : SessionProcess) : SessionInput → Bool
  | .childExits pid => s.children.any fun c => c.pid = pid && !c.exited
  | .sigchld | .sigterm => true
  | .fork pid => s.pc = .launching && pid.all fun pid => 0 < pid && pid ∉ s.unreaped
  | .displayReady _ => s.pc = .awaitingDisplay
  | .initialized _ => s.pc = .initializing
  | .loopTest => s.pc = .test
  | .waitpid (some pid) => s.pc = .collecting && pid ∈ s.zombies
  | .waitpid none => s.pc = .collecting && s.zombies = []
  | .clearFlag => s.pc = .clearing
  | .epollWait _ => s.pc = .waiting
  | .dispatched _ => s.pc = .dispatching
  | .peersFreed => s.pc = .cleanup
  | .kill => s.pc = .terminating || s.pc = .killing
  | .poll r =>
    match s.pc with
    | .polling (_ + 1) => r = (if s.compPid ∈ s.zombies then some s.compPid else none)
    | _ => false
  | .join interrupted =>
    s.pc = .joining && (interrupted || s.compPid ∈ s.zombies || s.compPid ∉ s.unreaped)

/-- The pid that a step passes to `kill`. -/
def kills (s : SessionProcess) : SessionInput → Option Nat
  | .kill => some s.compPid
  | _ => none

end SessionProcess

def sessionProcess : System SessionProcess SessionInput :=
  ⟨fun s e => s.admits e = true, SessionProcess.step⟩

instance (s : SessionProcess) (e : SessionInput) : Decidable (sessionProcess.enabled s e) :=
  inferInstanceAs (Decidable (s.admits e = true))

end Wlrdp
