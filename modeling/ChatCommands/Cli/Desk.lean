import ChatCommands.Audit.Store
import ChatCommands.Concurrency.Scheduler
import ChatCommands.Engine.Service
import ChatCommands.Registry.File
import ChatCommands.Sandbox.Standard

/-!
The operator's desk: an engine on this host, for one command line.

Commands come from a command file, audit entries are kept in memory, and replies are only returned.
-/

namespace ChatCommands.Cli

open Concurrency Host

/-- What an engine on this host works with. -/
structure Desk (α : Type) where
  host : Host
  commandFile : Registry.FileState := {}
  audit : Audit.Store := {}
  /-- The answer of the computation, once there is one. -/
  answer : Option α := none

variable {α : Type}

namespace Desk

/-- The host. -/
def hostPart : Part (Desk α) Host := ⟨(·.host), fun h d => { d with host := h }⟩

/-- What is at a path.  Nothing changes a file while a command line is worked on. -/
def onDisk (h : Host) (p : Path) : Registry.OnDisk :=
  match h.files.tree.find true (h.files.locate p) with
  | .ok (.file _ content) => .file content 0
  | .ok _ => .directory 0
  | .error _ => .absent

/-- The registry of a command file. -/
def registry (path : Path) : Registry.FileRegistry (Desk α) where
  path := path.toText
  state := ⟨(·.commandFile), fun st d => { d with commandFile := st }⟩
  onDisk d := onDisk d.host path

/-- The audit sink in memory. -/
def auditSink : Audit.Sink (Desk α) where
  append e := Action.onEnv fun d => ((), { d with audit := d.audit.append e })
  trim tenant keep := do
    let r ← Action.onEnv fun d =>
      let (r, store) := d.audit.trim? tenant keep
      (r, { d with audit := store })
    Act.ofExcept r

/-- The runtimes of this host. -/
def runtimes (env : Environment) (c : Config) : Except Fault (Engine.Runtimes (Desk α)) :=
  (Settings.ofEnvironment env).map fun s => Sandbox.runners hostPart (Sandbox.standard s c)

/-- The engine of this host, with the default limits.  Its clock for cooldowns stands still: a
command line is over sooner than a cooldown. -/
def engine (rs : Engine.Runtimes (Desk α)) (path : Path) : Engine.Setup (Desk α) where
  registry := (registry path).source
  runtimes := rs
  review := fun label code => .ok (({} : Reviewer).examine label code)
  reply := none
  audit := some auditSink
  clock := fun _ => 0

/-- What a computation has come to. -/
structure Completed (α : Type) where
  answer : Except Fault α
  host : Host
  /-- The log, first record first. -/
  journal : List LogRecord

/-- The fault of a computation that never ends. -/
def endless : Fault := .of .runtime (text "The computation does not end.")

/-- Carries a computation out, with a number of slots for runs. -/
def complete (h : Host) (slots : Int) (x : Action (Desk α) α) : Completed α :=
  let main : Action (Desk α) Unit := do
    let a ← x
    Action.onEnv fun d => ((), { d with answer := some a })
  let k := Scheduler.run { env := { host := h }, slots := ⟨slots, []⟩ }
    (Act.toTask (fun _ => .nothing) main)
  let desk := k.shared.env
  let answer := match desk.answer, k.statusOf 0 with
    | some a, _ => .ok a
    | none, .ended (.error (.fault f)) => .error f
    | none, _ => .error endless
  ⟨answer, desk.host, k.shared.journal.reverse⟩

end Desk

/-! ### Snippets -/

/-- The limits of an engine that runs a single snippet. -/
def snippetConfig (timeout : Binary64) : Except Fault Config :=
  (Config.check (.record [("execution_timeout_seconds", .real timeout),
    ("max_concurrent_executions", .int 1)])).orFault

/-- What a snippet may know of its caller. -/
def snippetBindings (message : Text) : Json :=
  let named (more : List (String × Json)) : Json := .record (("id", .str (text "cli")) :: more)
  .record [("message", .record [("id", .null), ("content", .str message)]),
    ("author", named [("roles", .arr [])]), ("channel", named []), ("guild", named []),
    ("command", named [("trigger", .str [])])]

/-- The result of a snippet that the review has refused. -/
def refusedSnippet (v : Verdict) : RunResult :=
  let shown (t : Option Text) : Text := t.getD (text "None")
  { status := .securityRejected
    summary := some (shown v.reason ++ text " (" ++ shown v.category ++ text ")") }

/-- Reviews a snippet, and runs it if it passes; only then the runtimes are set up. -/
def runSnippet {ω : Type} (c : Config) (runtimes : Except Fault (Engine.Runtimes ω)) (code : Text)
    (l : Language) (timeout : Binary64) (message : Text) : Action ω RunResult := do
  let (records, v) := ({ maxBytes := c.maxCodeBytes } : Reviewer).examine (text l.name) code
  Action.logAll records
  if v.ok then
    let rs ← Act.ofExcept runtimes
    Engine.execute rs l code (snippetBindings message) timeout
  else pure (refusedSnippet v)

/-! ### Messages -/

/-- Feeds a message to an engine a number of times. -/
def feed {ω : Type} (e : Engine.Setup ω) (m : Message) (times : Nat) :
    Action ω (List (Option Outcome)) := do
  Engine.startSweeper e
  Act.ensuring ((List.replicate times m).mapM (Engine.handle e)) Engine.stop

end ChatCommands.Cli
