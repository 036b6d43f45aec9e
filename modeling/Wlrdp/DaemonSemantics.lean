import Wlrdp.IpcSemantics
import Wlrdp.LogonSemantics

namespace Wlrdp
set_option autoImplicit true

/-! ### Messages to the workers -/

/-- `WLRDP_MSG_NEW_CLIENT`. -/
def msgNewClient : UInt32 := 1

/-- `WLRDP_MSG_SHUTDOWN`. -/
def msgShutdown : UInt32 := 5

/-- A message without payload, as a designated initializer leaves it. -/
def WlrdpIpcMsg.bare (type : UInt32) : WlrdpIpcMsg where
  type := type
  payloadLen := 0
  payload := ⟨List.replicate payloadSize 0, List.length_replicate⟩

/-- The arguments of a call of `ipc_send_msg`. -/
structure IpcSend where
  sock : Nat
  msg : WlrdpIpcMsg
  fd : Int

/-- The message of `session_mgr_send_client`. -/
def sessionMgrSendClient (entry : SessionEntry) (peerFd : Nat) : IpcSend :=
  ⟨entry.ipcFd, .bare msgNewClient, peerFd⟩

/-- The message that `session_mgr_destroy` sends to an active session. -/
def shutdownSession (entry : SessionEntry) : IpcSend := ⟨entry.ipcFd, .bare msgShutdown, -1⟩

/-! ### The main function -/

/-- Where the main function of the daemon is: at the head of the loop, in `session_mgr_reap`,
behind it, before `epoll_wait`, with that many events left to dispatch, in the loop of
`on_peer_accepted` for a peer, and in the two loops of `session_mgr_destroy`. -/
inductive DaemonPc
  | test
  | reaping
  | reaped
  | waiting
  | dispatching (nfds : Nat)
  | pumping (nfds peerFd : Nat)
  | stopping (slots : List (Fin maxSessions))
  | joining (slots : List (Fin maxSessions))
  | done
deriving DecidableEq

/-- The daemon as a process. `logons` lists the logons it has accepted: the entry that
`session_mgr_get_session` returned and the socket of the peer. -/
structure DaemonProcess where
  daemon : Daemon
  pc : DaemonPc
  running : Bool
  childExited : Bool
  sent : List IpcSend
  logons : List (SessionEntry × Nat)

def DaemonProcess.start (mgr : SessionMgr) (fds : DescriptorTable FileObject) : DaemonProcess where
  daemon := .start mgr fds
  pc := .test
  running := true
  childExited := false
  sent := []
  logons := []

inductive EpollResult
  | interrupted | failed | ready (nfds : Nat)
deriving DecidableEq

/-- `workerExits`, `sigchld` and `sigterm` come from outside, between any two steps of the
program: an exit makes a zombie and runs the handler. -/
inductive DaemonInput
  | workerExits (pid : Nat)
  | sigchld
  | sigterm
  | loopTest
  | waitpid (pid : Option Nat)
  | clearFlag
  | epollWait (r : EpollResult)
  | peerAccepted (peerFd : Nat)
  | listenerChecked (ok : Bool)
  | peerLogon (identity : Identity) (r : LogonTurn)
  | peerChecked (connected : Bool)
  | stopSession
  | joinSession (interrupted : Bool)
deriving DecidableEq

/-- The entry that `session_mgr_get_session` returns for a logon. -/
def logonSession (db : AccountDb) (d : Daemon) (identity : Identity) (r : LogonTurn) :
    Option (Fin maxSessions) :=
  match identity.user, identity.password with
  | some username, some _ =>
    match authCheckCredentials db username r.pam with
    | none => none
    | some auth => (sessionMgrGetSession db.names d auth r.fork).1
  | _, _ => none

def allSlots : List (Fin maxSessions) := List.finRange maxSessions

/-- The loop over the events of `epoll_wait`. -/
def dispatchLoop (nfds : Nat) : DaemonPc := if nfds = 0 then .test else .dispatching nfds

namespace DaemonProcess

def logon (db : AccountDb) (s : DaemonProcess) (identity : Identity) (r : LogonTurn)
    (peerFd : Nat) : DaemonProcess :=
  let (_, d) := onPeerLogon db s.daemon identity r
  let entry := logonSession db s.daemon identity r
  { s with
    daemon := d
    logons := s.logons ++ (entry.map fun i => (d.mgr.sessions i, peerFd)).toList }

/-- One turn of the first loop of `session_mgr_destroy`. -/
def stop (s : DaemonProcess) (i : Fin maxSessions) (slots : List (Fin maxSessions)) :
    DaemonProcess :=
  let entry := s.daemon.mgr.sessions i
  if entry.active then
    { s with
      pc := .stopping slots
      sent := s.sent ++ [shutdownSession entry]
      daemon := { s.daemon with fds := s.daemon.fds.close entry.ipcFd } }
  else { s with pc := .stopping slots }

/-- One turn of the second loop of `session_mgr_destroy`, whose `waitpid` a signal may
interrupt. -/
def join (s : DaemonProcess) (i : Fin maxSessions) (slots : List (Fin maxSessions))
    (interrupted : Bool) : DaemonProcess :=
  let entry := s.daemon.mgr.sessions i
  if entry.active && !interrupted then
    { s with
      pc := .joining slots
      daemon := { s.daemon with children := s.daemon.children.filter (·.pid ≠ entry.pid) } }
  else { s with pc := .joining slots }

def step (db : AccountDb) (s : DaemonProcess) : DaemonInput → DaemonProcess
  | .workerExits pid =>
    { s with daemon := s.daemon.step db.names (.workerExited pid), childExited := true }
  | .sigchld => { s with childExited := true }
  | .sigterm => { s with running := false }
  | .loopTest =>
    if !s.running then { s with pc := .stopping allSlots }
    else if s.childExited then { s with pc := .reaping }
    else { s with pc := .waiting }
  | .waitpid (some pid) => { s with daemon := reapChild s.daemon pid }
  | .waitpid none => { s with pc := .reaped }
  | .clearFlag => { s with childExited := false, pc := .waiting }
  | .epollWait .interrupted => { s with pc := .test }
  | .epollWait .failed => { s with pc := .stopping allSlots }
  | .epollWait (.ready nfds) => { s with pc := dispatchLoop nfds }
  | .peerAccepted peerFd =>
    match s.pc with
    | .dispatching nfds =>
      { s with
        pc := .pumping nfds peerFd
        daemon := { s.daemon with fds := s.daemon.fds.install peerFd (.other peerFd) false } }
    | _ => s
  | .listenerChecked ok =>
    match s.pc with
    | .dispatching nfds =>
      { s with pc := dispatchLoop (nfds - 1), running := s.running && ok }
    | _ => s
  | .peerLogon identity r =>
    match s.pc with
    | .pumping _ peerFd => s.logon db identity r peerFd
    | _ => s
  | .peerChecked connected =>
    match s.pc with
    | .pumping nfds peerFd =>
      if s.running && connected then s else
      { s with
        pc := .dispatching nfds
        daemon := { s.daemon with fds := s.daemon.fds.close peerFd } }
    | _ => s
  | .stopSession =>
    match s.pc with
    | .stopping (i :: slots) => s.stop i slots
    | .stopping [] => { s with pc := .joining allSlots }
    | _ => s
  | .joinSession interrupted =>
    match s.pc with
    | .joining (i :: slots) => s.join i slots interrupted
    | .joining [] =>
      { s with
        pc := .done
        daemon := { s.daemon with mgr := sessionMgrInit .empty .empty .empty 0 0 } }
    | _ => s

/-- The blocking `waitpid` of `session_mgr_destroy` returns: the child has exited, or there is
none of that pid. -/
def joins (d : Daemon) (entry : SessionEntry) : Bool :=
  !entry.active || entry.pid ∈ d.zombies || d.children.all (·.pid ≠ entry.pid)

/-- When an event can happen. -/
def admits (s : DaemonProcess) : DaemonInput → Bool
  | .workerExits pid => s.daemon.admits (.workerExited pid)
  | .sigchld | .sigterm => true
  | .loopTest => s.pc = .test
  | .waitpid (some pid) => s.pc = .reaping && pid ∈ s.daemon.zombies
  | .waitpid none => s.pc = .reaping && s.daemon.zombies = []
  | .clearFlag => s.pc = .reaped
  | .epollWait _ => s.pc = .waiting
  | .peerAccepted peerFd =>
    match s.pc with
    | .dispatching _ => s.daemon.freeDescriptor peerFd
    | _ => false
  | .listenerChecked _ =>
    match s.pc with
    | .dispatching _ => true
    | _ => false
  | .peerLogon _ r =>
    match s.pc with
    | .pumping _ _ => s.daemon.admits (.getSession (.basic 0) r.fork)
    | _ => false
  | .peerChecked _ =>
    match s.pc with
    | .pumping _ _ => true
    | _ => false
  | .stopSession =>
    match s.pc with
    | .stopping _ => true
    | _ => false
  | .joinSession interrupted =>
    match s.pc with
    | .joining (i :: _) => interrupted || joins s.daemon (s.daemon.mgr.sessions i)
    | .joining [] => true
    | _ => false

/-- The pid that a step passes to `kill`. -/
def kills (s : DaemonProcess) : DaemonInput → Option Nat
  | .stopSession =>
    match s.pc with
    | .stopping (i :: _) =>
      if (s.daemon.mgr.sessions i).active then some (s.daemon.mgr.sessions i).pid else none
    | _ => none
  | _ => none

end DaemonProcess

def daemonProcess (db : AccountDb) : System DaemonProcess DaemonInput :=
  ⟨fun s e => s.admits e = true, DaemonProcess.step db⟩

instance (db : AccountDb) (s : DaemonProcess) (e : DaemonInput) :
    Decidable ((daemonProcess db).enabled s e) := inferInstanceAs (Decidable (s.admits e = true))

end Wlrdp
