import Wlrdp.DecimalTexts
import Wlrdp.OptionParsing
import Wlrdp.RegistrySemantics

namespace Wlrdp
set_option autoImplicit true

open Getopt (OptionTable LongOption Found Word)

/-! ### Options of the two programs -/

/-- A letter of a `case` label. -/
def letter (c : Char) : UInt8 := c.toUInt8

/-- The string that `optarg` points to. -/
def CString.ofBytes (bytes : List UInt8) : CString :=
  ⟨bytes.takeWhile (· ≠ 0), fun _ hb => by simpa using List.mem_takeWhile_imp hb⟩

def portOption : LongOption := ⟨ascii "port", true, letter 'p'⟩
def widthOption : LongOption := ⟨ascii "width", true, letter 'W'⟩
def heightOption : LongOption := ⟨ascii "height", true, letter 'H'⟩
def desktopCmdOption : LongOption := ⟨ascii "desktop-cmd", true, letter 'd'⟩
def certOption : LongOption := ⟨ascii "cert", true, letter 'c'⟩
def keyOption : LongOption := ⟨ascii "key", true, letter 'k'⟩
def ipcFdOption : LongOption := ⟨ascii "ipc-fd", true, letter 'i'⟩
def helpOption : LongOption := ⟨ascii "help", false, letter 'h'⟩

/-- A table whose short options are the letters of its long ones. -/
def programOptions (long : List LongOption) (posixlyCorrect : Bool) : OptionTable where
  long := long
  short := long.map fun o => (o.val, o.takesArg)
  posixlyCorrect := posixlyCorrect

/-- `long_opts` and the option letters of the daemon. -/
def daemonOptions (posixlyCorrect : Bool) : OptionTable :=
  programOptions
    [portOption, widthOption, heightOption, desktopCmdOption, certOption, keyOption, helpOption]
    posixlyCorrect

/-- `long_opts` and the option letters of the session worker. -/
def sessionOptions (posixlyCorrect : Bool) : OptionTable :=
  programOptions
    [portOption, ipcFdOption, widthOption, heightOption, desktopCmdOption, certOption, keyOption,
      helpOption]
    posixlyCorrect

/-- The fields of `struct daemon_state` and of `struct wlrdp_server` that options set; the daemon
has no `ipcFd`. -/
structure MainOptions where
  port : Int
  width : Int
  height : Int
  desktopCmd : CString
  certFile : Option CString
  keyFile : Option CString
  ipcFd : Int
deriving DecidableEq

def defaultPort : Int := 3389

def foot : CString := .ofBytes (ascii "foot")

def daemonDefaults : MainOptions := ⟨defaultPort, 800, 600, foot, none, none, -1⟩

def sessionDefaults : MainOptions := ⟨defaultPort, 3840, 2160, foot, none, none, -1⟩

/-- The cases of an option with an argument, field by field; the daemon's table has no `i`. -/
def MainOptions.set (o : MainOptions) (val : UInt8) (arg : Word) : MainOptions where
  port := if val = letter 'p' then atoi arg else o.port
  width := if val = letter 'W' then atoi arg else o.width
  height := if val = letter 'H' then atoi arg else o.height
  desktopCmd := if val = letter 'd' then .ofBytes arg else o.desktopCmd
  certFile := if val = letter 'c' then some (.ofBytes arg) else o.certFile
  keyFile := if val = letter 'k' then some (.ofBytes arg) else o.keyFile
  ipcFd := if val = letter 'i' then atoi arg else o.ipcFd

/-- The loop over the options: what they set, or the status with which the program exits. -/
def MainOptions.scan (o : MainOptions) : List Found → Except Nat MainOptions
  | [] => .ok o
  | .bad :: _ => .error 1
  | .option _ none :: _ => .error 0
  | .option val (some arg) :: fs => (o.set val arg).scan fs

def autoCert : CString := .ofBytes (ascii "/tmp/wlrdp-cert.pem")

def autoKey : CString := .ofBytes (ascii "/tmp/wlrdp-key.pem")

/-- The certificate and the key that stand in for the missing ones. -/
def MainOptions.withAutoFiles (o : MainOptions) : MainOptions :=
  { o with certFile := some (o.certFile.getD autoCert), keyFile := some (o.keyFile.getD autoKey) }

/-- What the daemon's `main` goes on with, for the words after the program's name. -/
def daemonMain (posixlyCorrect : Bool) (argv : List Word) : Except Nat MainOptions :=
  match daemonDefaults.scan ((daemonOptions posixlyCorrect).getopt argv) with
  | .error code => .error code
  | .ok o => .ok o.withAutoFiles

/-- What the session worker's `main` goes on with; only a standalone one makes a certificate. -/
def sessionMain (posixlyCorrect : Bool) (argv : List Word) : Except Nat MainOptions :=
  match sessionDefaults.scan ((sessionOptions posixlyCorrect).getopt argv) with
  | .error code => .error code
  | .ok o => .ok (if o.ipcFd < 0 then o.withAutoFiles else o)

/-! ### From the daemon to its workers -/

/-- The registry that the daemon's `main` makes from its options. -/
def MainOptions.sessionMgr (o : MainOptions) : SessionMgr :=
  sessionMgrInit o.desktopCmd (o.certFile.getD autoCert) (o.keyFile.getD autoKey) o.width o.height

/-- `sizeof(ipc_fd_str)`, and of the strings for the size. -/
def numberSize : Nat := 16

/-- `snprintf(buf, sizeof(buf), "%d", x)`. -/
def numberArg (x : Int) : Word := (formatInt x).take (numberSize - 1)

/-- The arguments that `execlp` passes on, behind the program's name. -/
def ProcessImage.argv (image : ProcessImage) : List Word :=
  [ascii "--ipc-fd", numberArg image.ipcFd, ascii "--width", numberArg image.width,
    ascii "--height", numberArg image.height, ascii "--desktop-cmd", image.desktopCmd.bytes,
    ascii "--cert", image.cert.bytes, ascii "--key", image.key.bytes]

end Wlrdp
