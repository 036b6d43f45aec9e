import Wlrdp.RegistrySemantics

namespace Wlrdp
set_option autoImplicit true

/-! ### The account databases -/

/-- `struct passwd`. -/
structure PasswdEntry where
  name : CString
  uid : UInt32
  gid : UInt32
  dir : CString
  shell : CString
deriving DecidableEq

/-- `struct group`. -/
structure GroupEntry where
  gid : UInt32
  members : List CString
deriving DecidableEq

/-- The passwd and group databases, in the order in which they are searched. -/
structure AccountDb where
  passwd : List PasswdEntry
  group : List GroupEntry

def getpwnam (db : AccountDb) (name : CString) : Option PasswdEntry :=
  db.passwd.find? (·.name = name)

def getpwuid (db : AccountDb) (uid : UInt32) : Option PasswdEntry :=
  db.passwd.find? (·.uid = uid)

/-- The groups that `initgroups` gives a process: the one passed and all that list the user. -/
def initgroups (db : AccountDb) (user : CString) (gid : UInt32) : List UInt32 :=
  gid :: (db.group.filter fun g => user ∈ g.members).map (·.gid)

/-- The names that `session_mgr_get_session` looks up. -/
def AccountDb.names (db : AccountDb) : Passwd := fun uid => (getpwuid db uid).map (·.name)

/-- The supplementary groups of a program that was started for a session. -/
def ProcessImage.supplementary (db : AccountDb) (image : ProcessImage) : List UInt32 :=
  initgroups db image.groups.1 image.groups.2

/-! ### Logons -/

/-- `sizeof(result->home)` and `sizeof(result->shell)`. -/
def pathSize : Nat := 256

/-- Which PAM calls of one logon succeed. -/
structure PamTurn where
  start : Bool
  authenticate : Bool
  acctMgmt : Bool
deriving DecidableEq

/-- Authentication and account management succeeded. -/
def PamTurn.ok (r : PamTurn) : Bool := r.start && r.authenticate && r.acctMgmt

def authCheckCredentials (db : AccountDb) (username : CString) (r : PamTurn) :
    Option AuthResult :=
  if !r.start then none else
  if !r.authenticate then none else
  if !r.acctMgmt then none else
  match getpwnam db username with
  | none => none
  | some pw => some {
      uid := pw.uid
      gid := pw.gid
      home := pw.dir.snprintf pathSize
      shell := pw.shell.snprintf pathSize }

/-- `SEC_WINNT_AUTH_IDENTITY`, whose fields may be null. -/
structure Identity where
  user : Option CString
  password : Option CString
deriving DecidableEq

/-- Results of the calls that one logon may make. -/
structure LogonTurn where
  pam : PamTurn
  fork : ForkTurn
deriving DecidableEq

def onPeerLogon (db : AccountDb) (d : Daemon) (identity : Identity) (r : LogonTurn) :
    Bool × Daemon :=
  match identity.user, identity.password with
  | some username, some _ =>
    match authCheckCredentials db username r.pam with
    | none => (false, d)
    | some auth =>
      match sessionMgrGetSession db.names d auth r.fork with
      | (none, d) => (false, d)
      | (some _, d) => (true, d)
  | _, _ => (false, d)

end Wlrdp
