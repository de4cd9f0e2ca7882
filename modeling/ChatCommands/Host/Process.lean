import ChatCommands.Fault.Basic
import ChatCommands.Host.FileTree

/-!
Processes: what is asked of the host when one is started, how it behaves, and what is known of it.

A behaviour says all that can be seen of a process from outside: when it writes what, when it exits,
how it answers to being killed, and what the host's process table tells about it.
-/

namespace ChatCommands.Host

/-- The resources that a process may be limited in. -/
inductive Resource
  | core
  | cpu
  | addressSpace
  | fileSize
  deriving DecidableEq, Repr, Inhabited

/-- Every resource. -/
def Resource.all : List Resource := [core, cpu, addressSpace, fileSize]

/-- The name of a resource limit. -/
def Resource.name : Resource → String
  | core => "RLIMIT_CORE"
  | cpu => "RLIMIT_CPU"
  | addressSpace => "RLIMIT_AS"
  | fileSize => "RLIMIT_FSIZE"

/-- A limit: a warning at `soft`, the end at `hard`. -/
structure Limit where
  resource : Resource
  soft : Int
  hard : Int
  deriving DecidableEq, Repr, Inhabited

/-- What a process is started with.  It leads a session of its own. -/
structure Launch where
  command : List Text
  directory : Path
  environment : List (String × Text)
  limits : List Limit
  deriving DecidableEq, Repr, Inhabited

/-- An output stream: its chunks, each with the time that passes before it is written, and the time
from the last chunk to the end of the stream, which may never come. -/
structure Stream where
  chunks : List (Rat × Bytes) := []
  ending : Option Rat := some 0
  deriving DecidableEq, Repr, Inhabited

/-- An input stream: the time that it takes to hand the input over, which may never end, and the
fault in which it ends. -/
structure Intake where
  delay : Option Rat := some 0
  fault : Option Fault := none
  deriving Inhabited

/-- Why a process could not be started. -/
structure StartError where
  number : Option Nat := none
  reason : Text
  deriving DecidableEq, Repr, Inhabited

/-- The wording of a failed start. -/
def StartError.wording (e : StartError) : Text :=
  match e.number with
  | some n => if e.reason.isEmpty then text "[Errno " ++ Text.ofNat n ++ text "] " else e.reason
  | none => e.reason

/-- What the process table tells about a process.  It may refuse to tell. -/
structure TableEntry where
  pid : Nat
  /-- The process can be watched. -/
  watched : Bool := true
  running : Option Bool := some true
  descendants : Option (List Nat) := some []
  /-- The group of the process, if it can be asked for. -/
  group : Except Fault Nat
  /-- What killing the group comes to: whether it ends the process. -/
  groupKill : Except Fault Bool := .ok false
  deriving Inhabited

/-- The behaviour of a process. -/
structure Behaviour where
  startError : Option StartError := none
  /-- The limits that cannot be set. -/
  refusedLimits : List Resource := []
  /-- The files that the process leaves in its directory. -/
  leaves : List Location := []
  stdin : Option Intake := some {}
  stdout : Stream := {}
  stderr : Stream := {}
  /-- The time after which the process exits by itself, if it does. -/
  exitAfter : Option Rat := some 0
  exitCode : Int := 0
  /-- The process has exited before anybody looks. -/
  gone : Bool := false
  /-- The time that the process survives being killed, if it ends at all. -/
  survival : Option Rat := some 0
  killFault : Option Fault := none
  entry : Option TableEntry := none
  deriving Inhabited

/-- What is known of a process. -/
structure Process where
  behaviour : Behaviour
  /-- The signal that is fired when the process exits. -/
  exited : Nat
  /-- When the process exits by itself. -/
  dueAt : Option Rat := none
  /-- When the process dies of being killed. -/
  deathAt : Option Rat := none
  /-- How often it was killed. -/
  kills : Nat := 0
  /-- When it was to be killed it had exited by itself. -/
  foundExited : Bool := false
  /-- What was written to its input. -/
  input : Text := []
  inputClosed : Bool := false
  deriving Inhabited

namespace Process

/-- The exit code of a process that was killed. -/
def killedCode : Int := -9

/-- The process dies of being killed, before it exits by itself. -/
def diesEarly (p : Process) : Bool :=
  match p.deathAt, p.dueAt with
  | none, _ => false
  | some _, none => true
  | some d, some t => d ≤ t

/-- The exit code of a process that has exited. -/
def codeAtEnd (p : Process) : Int := if p.diesEarly then killedCode else p.behaviour.exitCode

end Process

/-- What was done to processes. -/
inductive ProcessCall
  | groupOf (pid : Nat)
  | killGroup (pid : Nat)
  | killDescendant (pid : Nat)
  | kill
  deriving DecidableEq, Repr, Inhabited

end ChatCommands.Host
