import Mathlib.Data.Fin.Basic
import Wlrdp.DescriptorTables
import Wlrdp.PeerSemantics
import Wlrdp.TransitionSystems

namespace Wlrdp
set_option autoImplicit true

/-- A C string: its bytes up to the terminating zero. -/
structure CString where
  bytes : List UInt8
  noNul : ∀ b ∈ bytes, b ≠ 0
deriving DecidableEq

def CString.empty : CString := ⟨[], fun _ h => by cases h⟩

def CString.length (s : CString) : Nat := s.bytes.length

/-- What `snprintf(buf, size, "%s", s)` leaves in `buf`. -/
def CString.snprintf (size : Nat) (s : CString) : CString :=
  ⟨s.bytes.take (size - 1), fun b h => s.noNul b (List.mem_of_mem_take h)⟩

abbrev maxSessions : Nat := 50

/-- `sizeof(entry->username)`. -/
def usernameSize : Nat := 64

/-- `struct wlrdp_auth_result`. -/
structure AuthResult where
  uid : UInt32
  gid : UInt32
  home : CString
  shell : CString
deriving DecidableEq

/-- `struct wlrdp_session_entry`. -/
structure SessionEntry where
  active : Bool
  username : CString
  pid : Nat
  ipcFd : Nat
  status : SessionStatus
deriving DecidableEq

/-- An entry after `memset`. -/
def SessionEntry.zero : SessionEntry := ⟨false, .empty, 0, 0, .ready⟩

/-- `struct wlrdp_session_mgr`. -/
structure SessionMgr where
  sessions : Fin maxSessions → SessionEntry
  count : Int
  desktopCmd : CString
  certFile : CString
  keyFile : CString
  defaultWidth : Int
  defaultHeight : Int

def sessionMgrInit (desktopCmd certFile keyFile : CString) (width height : Int) : SessionMgr where
  sessions _ := .zero
  count := 0
  desktopCmd := desktopCmd
  certFile := certFile
  keyFile := keyFile
  defaultWidth := width
  defaultHeight := height

namespace SessionMgr

def setEntry (mgr : SessionMgr) (i : Fin maxSessions) (entry : SessionEntry) : SessionMgr :=
  { mgr with sessions := Function.update mgr.sessions i entry }

@[simp] theorem sessions_setEntry_self (mgr : SessionMgr) (i : Fin maxSessions)
    (entry : SessionEntry) : (mgr.setEntry i entry).sessions i = entry := Function.update_self ..

theorem sessions_setEntry_of_ne {mgr : SessionMgr} (h : j ≠ i) :
    (mgr.setEntry i entry).sessions j = mgr.sessions j := Function.update_of_ne h ..

end SessionMgr

def findSession (mgr : SessionMgr) (username : CString) : Option (Fin maxSessions) :=
  Fin.find? fun i => (mgr.sessions i).active && (mgr.sessions i).username = username

def allocSlot (mgr : SessionMgr) : Option (Fin maxSessions) :=
  Fin.find? fun i => !(mgr.sessions i).active

/-! ### Processes -/

inductive Side
  | daemon | session
deriving DecidableEq

def Side.other : Side → Side
  | .daemon => .session
  | .session => .daemon

/-- What a descriptor refers to: an end of the IPC socket pair with that number, or anything
else. -/
inductive FileObject
  | endpoint (pair : Nat) (side : Side)
  | other (n : Nat)
deriving DecidableEq

def FileObject.isEndpoint : FileObject → Prop
  | .endpoint _ _ => True
  | .other _ => False

/-- The `wlrdp-session` program as `execlp` starts it: its arguments, its credentials, with the
user and group given to `initgroups`, its environment and its descriptors. -/
structure ProcessImage where
  ipcFd : Nat
  width : Int
  height : Int
  desktopCmd : CString
  cert : CString
  key : CString
  uid : UInt32
  gid : UInt32
  groups : CString × UInt32
  home : CString
  user : CString
  logname : CString
  shell : CString
  xdgRuntimeDir : String
  fds : DescriptorTable FileObject

/-- An unreaped child of the daemon: the uid it was forked for, the program it executes, and
whether it has exited. -/
structure ChildProcess where
  pid : Nat
  uid : UInt32
  image : Option ProcessImage
  exited : Bool

/-- Results of the system calls that one `fork_session` may make. -/
structure ForkTurn where
  socketpair : Option (Nat × Nat)
  fork : Option Nat
  setgid : Bool
  initgroups : Bool
  setuid : Bool
  execlp : Bool
deriving DecidableEq

/-- The child's branch of `fork_session`. -/
def sessionChild (mgr : SessionMgr) (entry : SessionEntry) (auth : AuthResult)
    (fds : DescriptorTable FileObject) (sv₀ sv₁ : Nat) (r : ForkTurn) : Option ProcessImage :=
  let fds := fds.close sv₀
  if !r.setgid then none else
  if !r.initgroups then none else
  if !r.setuid then none else
  if !r.execlp then none else
  some {
    ipcFd := sv₁
    width := mgr.defaultWidth
    height := mgr.defaultHeight
    desktopCmd := mgr.desktopCmd
    cert := mgr.certFile
    key := mgr.keyFile
    uid := auth.uid
    gid := auth.gid
    groups := (entry.username, auth.gid)
    home := auth.home
    user := entry.username
    logname := entry.username
    shell := auth.shell
    xdgRuntimeDir := "/run/user/" ++ toString auth.uid.toInt32
    fds := fds.exec }

/-- The daemon: its session registry, its descriptors and its unreaped children. `nextPair`
numbers the socket pairs made so far. -/
structure Daemon where
  mgr : SessionMgr
  fds : DescriptorTable FileObject
  nextPair : Nat
  children : List ChildProcess

def Daemon.start (mgr : SessionMgr) (fds : DescriptorTable FileObject) : Daemon where
  mgr := mgr
  fds := fds
  nextPair := 0
  children := []

def Daemon.socketpair (d : Daemon) (sv₀ sv₁ : Nat) : Daemon :=
  { d with
    fds := d.fds.socketpair sv₀ sv₁ (.endpoint d.nextPair .daemon) (.endpoint d.nextPair .session)
      true
    nextPair := d.nextPair + 1 }

/-- The parent's branch of `fork_session`. -/
def Daemon.adopt (d : Daemon) (slot : Fin maxSessions) (sv₀ sv₁ : Nat) (child : ChildProcess) :
    Daemon :=
  let entry := { d.mgr.sessions slot with
    active := true, pid := child.pid, ipcFd := sv₀, status := .ready }
  { d with
    fds := d.fds.close sv₁
    mgr := { d.mgr.setEntry slot entry with count := d.mgr.count + 1 }
    children := child :: d.children }

def forkSession (d : Daemon) (slot : Fin maxSessions) (auth : AuthResult) (r : ForkTurn) :
    Bool × Daemon :=
  match r.socketpair with
  | none => (false, d)
  | some (sv₀, sv₁) =>
    let d := d.socketpair sv₀ sv₁
    match r.fork with
    | none => (false, { d with fds := (d.fds.close sv₀).close sv₁ })
    | some pid =>
      let image := sessionChild d.mgr (d.mgr.sessions slot) auth d.fds sv₀ sv₁ r
      (true, d.adopt slot sv₀ sv₁ ⟨pid, auth.uid, image, false⟩)

/-- The passwd database: the name that `getpwuid` finds for a uid. -/
abbrev Passwd := UInt32 → Option CString

/-- Distinct uids have distinct names. -/
def Passwd.Distinct (db : Passwd) : Prop :=
  ∀ u v name, db u = some name → db v = some name → u = v

/-- The registry with the name written into a slot. -/
def Daemon.named (d : Daemon) (i : Fin maxSessions) (username : CString) : Daemon :=
  let entry := { d.mgr.sessions i with username := username.snprintf usernameSize }
  { d with mgr := d.mgr.setEntry i entry }

def Daemon.clear (d : Daemon) (i : Fin maxSessions) : Daemon :=
  { d with mgr := d.mgr.setEntry i .zero }

def sessionMgrGetSession (db : Passwd) (d : Daemon) (auth : AuthResult) (r : ForkTurn) :
    Option (Fin maxSessions) × Daemon :=
  match db auth.uid with
  | none => (none, d)
  | some username =>
    match findSession d.mgr username with
    | some i => (some i, d)
    | none =>
      match allocSlot d.mgr with
      | none => (none, d)
      | some i =>
        match forkSession (d.named i username) i auth r with
        | (true, d) => (some i, d)
        | (false, d) => (none, d.clear i)

/-- What `session_mgr_reap` does for one pid that `waitpid` returned. -/
def reapChild (d : Daemon) (pid : Nat) : Daemon :=
  let d := { d with children := d.children.filter (·.pid ≠ pid) }
  match Fin.find? fun i => (d.mgr.sessions i).active && (d.mgr.sessions i).pid = pid with
  | none => d
  | some i =>
    { d with
      fds := d.fds.close (d.mgr.sessions i).ipcFd
      mgr := { d.mgr.setEntry i .zero with count := d.mgr.count - 1 } }

/-- `session_mgr_reap`: `pids` is what `waitpid` returned, in order. -/
def sessionMgrReap (d : Daemon) (pids : List Nat) : Daemon := pids.foldl reapChild d

/-! ### The daemon as a transition system -/

inductive DaemonEvent
  | getSession (auth : AuthResult) (r : ForkTurn)
  | workerExited (pid : Nat)
  | reap (pids : List Nat)
deriving DecidableEq

namespace Daemon

def step (db : Passwd) (d : Daemon) : DaemonEvent → Daemon
  | .getSession auth r => (sessionMgrGetSession db d auth r).2
  | .workerExited pid =>
    { d with
      children := d.children.map fun c => if c.pid = pid then { c with exited := true } else c }
  | .reap pids => sessionMgrReap d pids

def zombies (d : Daemon) : List Nat := (d.children.filter (·.exited)).map (·.pid)

def freeDescriptor (d : Daemon) (fd : Nat) : Bool := (d.fds fd).isNone

/-- When an event can happen: `socketpair` returns two unused numbers, `fork` no pid of an
unreaped child, and `session_mgr_reap` goes on until no child is left to wait for. -/
def admits (d : Daemon) : DaemonEvent → Bool
  | .getSession _ r =>
    (r.socketpair.all fun sv => sv.1 ≠ sv.2 && d.freeDescriptor sv.1 && d.freeDescriptor sv.2) &&
      r.fork.all fun pid => 0 < pid && d.children.all (·.pid ≠ pid)
  | .workerExited pid => d.children.any fun c => c.pid = pid && !c.exited
  | .reap pids => pids.isPerm d.zombies

end Daemon

def daemon (db : Passwd) : System Daemon DaemonEvent := ⟨fun d e => d.admits e = true, .step db⟩

instance (db : Passwd) (d : Daemon) (e : DaemonEvent) : Decidable ((daemon db).enabled d e) :=
  inferInstanceAs (Decidable (d.admits e = true))

/-! ### Outcomes that concrete runs are made of -/

def AuthResult.basic (uid : UInt32) : AuthResult := ⟨uid, 0, .empty, .empty⟩

def ForkTurn.working (sv₀ sv₁ pid : Nat) : ForkTurn :=
  ⟨some (sv₀, sv₁), some pid, true, true, true, true⟩

def firstSlot : Fin maxSessions := 0

def secondSlot : Fin maxSessions := 1

/-- A daemon that has just started. -/
def Daemon.fresh : Daemon := .start (sessionMgrInit .empty .empty .empty 0 0) .empty

end Wlrdp
