import ChatCommands.Host.Errno
import ChatCommands.Json.Parse
import ChatCommands.Registry.Basic
import ChatCommands.Registry.Store
import ChatCommands.Text.Blank
import ChatCommands.Text.Utf8

/-!
Command files: a registry kept by the operator in a JSON file.

A file is an object with prefixes and commands, or just the list of the commands.  It is read again
whenever its modification time has changed; a file that cannot be read leaves what was read before
as it is.
-/

namespace ChatCommands.Registry

open Concurrency Schema

/-- The contents of a command file. -/
structure CommandFile where
  sigils : List (Text × Text) := []
  commands : List Command := []
  deriving Inhabited

namespace CommandFile

/-- The prefixes by tenant. -/
def sigils? : Check (List (Text × Text)) := dict (fun t => .ok t) string

/-- The layout with prefixes and commands. -/
def ofMembers (ms : List (Text × Json)) : Checked CommandFile :=
  CommandFile.mk <$> defaulted ms "prefixes" [] sigils?
    <*> defaulted ms "commands" [] (list Command.check)

/-- Checks a JSON value as a command file, in either layout. -/
def check : Check CommandFile
  | .arr items => (list Command.check (.arr items)).map fun cs => { commands := cs }
  | v => object "CommandFile" ofMembers v

/-- The contents that a text describes. -/
def parse (t : Text) : Except Fault CommandFile :=
  (Json.parse t).bind fun v => (check v).orFault

/-- The store of the commands and prefixes of a file. -/
def toStore (f : CommandFile) : Store := .ofCommands f.commands f.sigils

end CommandFile

/-- What the operating system holds at the path of a command file.  It may withhold the file: it does
not tell when it was modified, or it tells this but does not have it read. -/
inductive OnDisk
  | absent
  | directory (mtime : Int)
  | file (content : Bytes) (mtime : Int)
  | withheld (cause : Host.Errno) (mtime : Option Int)

namespace OnDisk

/-- The time of the last modification. -/
def mtime : OnDisk → Except Host.Errno Int
  | absent => .error .noEntry
  | directory mtime => .ok mtime
  | file _ mtime => .ok mtime
  | withheld _ (some mtime) => .ok mtime
  | withheld cause none => .error cause

/-- The bytes of the file. -/
def read : OnDisk → Except Host.Errno Bytes
  | absent => .error .noEntry
  | directory _ => .error .isADirectory
  | file content _ => .ok content
  | withheld cause _ => .error cause

end OnDisk

/-- The state of a file registry: what was read last, the modification time that went with it, and
how many commands the file listed. -/
structure FileState where
  mtime : Option Int := none
  snapshot : Store := {}
  listed : Nat := 0
  deriving Inhabited

/-- The state once a file with this modification time was read. -/
def CommandFile.loaded (f : CommandFile) (mtime : Int) : FileState :=
  ⟨some mtime, f.toStore, f.commands.length⟩

/-- The contents of a file. -/
def readContent (content : Bytes) : Except Fault CommandFile :=
  match Utf8.decode content with
  | .ok t => CommandFile.parse (Text.unifyLineEnds t)
  | .error m => .error (.of .undecodable m.message)

/-- What is read at a path, if it is not what was read last. -/
def load (path : Text) (st : FileState) (disk : OnDisk) : Except Fault FileState := do
  let mtime ← disk.mtime.mapError (·.fault path)
  if st.mtime = some mtime then return st
  let content ← disk.read.mapError (·.fault path)
  let f ← readContent content
  return f.loaded mtime

/-- The fault of a registry whose file cannot be read. -/
def unreadable (path : Text) (cause : Fault) : Fault where
  kind := .registryUnavailable
  message := text "Cannot read command file: " ++ cause.wording
  context := [(text "path", .str path)]
  issues := cause.issues

/-- Brings the state up to date with the file; a file that cannot be read changes nothing. -/
def refresh (path : Text) (st : FileState) (disk : OnDisk) : Except Fault FileState :=
  (load path st disk).mapError (unreadable path)

/-- A registry that is kept in a command file: the path, the part of the environment that is its state,
and what the operating system holds at the path. -/
structure FileRegistry (ω : Type) where
  path : Text
  state : Part ω FileState
  onDisk : ω → OnDisk

namespace FileRegistry

variable {ω : Type} (r : FileRegistry ω)

/-- The store of the command file, read again if the file has changed. -/
def store : Action ω Store := do
  let before ← r.state.ask id
  let disk ← Action.askEnv r.onDisk
  let now ← Act.ofExcept (refresh r.path before disk)
  r.state.modify fun _ => now
  if before.mtime ≠ now.mtime then
    Action.log .info .store (text "Command file loaded")
      [("path", .str r.path), ("commands", .int now.listed)]
  pure now.snapshot

/-- The commands of a tenant. -/
def commands (tenant : Text) : Action ω (List Command) := return (← r.store).commandsOf tenant

/-- The prefix of a tenant. -/
def sigil (tenant : Text) : Action ω (Option Text) := return (← r.store).sigilOf tenant

/-- The registry as one that knows prefixes. -/
def source : Source ω := ⟨r.commands, some r.sigil⟩

end FileRegistry

end ChatCommands.Registry
