import Wlrdp.CompositorSemantics
import Wlrdp.DaemonSemantics

namespace Wlrdp
set_option autoImplicit true

/-- A worker as a process: forked and still with the handlers of the daemon, executed and without
handlers, in the main function behind `sigaction`, killed by a signal, and gone, with the
children that it left behind. -/
inductive WorkerProcess
  | forked
  | booting
  | serving (p : SessionProcess)
  | killed
  | gone (orphans : List Nat)
deriving DecidableEq

namespace WorkerProcess

def alive : WorkerProcess → Bool
  | .gone _ => false
  | _ => true

/-- `SIGTERM` arrives. Before `execlp` it sets a `g_running` that the worker will not see. -/
def terminate : WorkerProcess → WorkerProcess
  | .booting => .killed
  | .serving p => .serving (p.step .sigterm)
  | w => w

/-- The children that a worker leaves behind if it ends now. -/
def leaves : WorkerProcess → List Nat
  | .serving p => p.unreaped
  | _ => []

end WorkerProcess

/-- The daemon and its workers, by their pids. -/
structure ProcessTree where
  daemon : DaemonProcess
  workers : Nat → WorkerProcess

def ProcessTree.start (mgr : SessionMgr) (fds : DescriptorTable FileObject) : ProcessTree where
  daemon := .start mgr fds
  workers _ := .gone []

/-- A worker exits at the end of its main function, but it may do so anywhere: `fork_session`
and the main function return early, and signals kill. -/
inductive TreeInput
  | daemon (e : DaemonInput)
  | exec (pid : Nat)
  | sigaction (pid : Nat)
  | worker (pid : Nat) (e : SessionInput)
  | exits (pid : Nat)
deriving DecidableEq

def DaemonInput.isExit : DaemonInput → Bool
  | .workerExits _ => true
  | _ => false

/-- The step forks a worker of that pid. -/
def DaemonProcess.forks (db : AccountDb) (s : DaemonProcess) (e : DaemonInput) (pid : Nat) : Bool :=
  (s.step db e).daemon.children.any (·.pid = pid) && !s.daemon.children.any (·.pid = pid)

namespace ProcessTree

def set (s : ProcessTree) (pid : Nat) (w : WorkerProcess) : ProcessTree :=
  { s with workers := Function.update s.workers pid w }

/-- What a step of the daemon does to the worker of that pid. -/
def told (db : AccountDb) (s : ProcessTree) (e : DaemonInput) (pid : Nat) : WorkerProcess :=
  if s.daemon.kills e = some pid then (s.workers pid).terminate
  else if s.daemon.forks db e pid then .forked
  else s.workers pid

def step (db : AccountDb) (s : ProcessTree) : TreeInput → ProcessTree
  | .daemon e => ⟨s.daemon.step db e, s.told db e⟩
  | .exec pid => s.set pid .booting
  | .sigaction pid => s.set pid (.serving .start)
  | .worker pid e =>
    match s.workers pid with
    | .serving p => s.set pid (.serving (p.step e))
    | _ => s
  | .exits pid =>
    { s.set pid (.gone (s.workers pid).leaves) with
      daemon := s.daemon.step db (.workerExits pid) }

/-- When an event can happen. The exit of a worker is no event of the daemon alone. -/
def admits (s : ProcessTree) : TreeInput → Bool
  | .daemon e => !e.isExit && s.daemon.admits e
  | .exec pid => s.workers pid = .forked
  | .sigaction pid => s.workers pid = .booting
  | .worker pid e =>
    match s.workers pid with
    | .serving p => p.admits e
    | _ => false
  | .exits pid => (s.workers pid).alive

end ProcessTree

def processTree (db : AccountDb) : System ProcessTree TreeInput :=
  ⟨fun s e => s.admits e = true, ProcessTree.step db⟩

instance (db : AccountDb) (s : ProcessTree) (e : TreeInput) :
    Decidable ((processTree db).enabled s e) := inferInstanceAs (Decidable (s.admits e = true))

end Wlrdp
