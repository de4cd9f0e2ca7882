import ChatCommands.Json.Access
import ChatCommands.Sandbox.Execution
import ChatCommands.Simulation.Surroundings

/-!
Sessions with the pool of runtimes alone, and sessions with the host: a single execution, the cleaning
up of a single process, and steps with scratch directories.
-/

namespace ChatCommands.Simulation

open Concurrency Host

/-! ### The pool -/

/-- The script of the run number `n`. -/
def numberedScript (n : Nat) : Text := text "run" ++ Text.ofNat n

/-- Makes the run number `n`, and notes its end. -/
def numberedRun (rs : Engine.Runtimes Surroundings) (n : Nat) (l : Language) :
    Action Surroundings RunResult :=
  Act.ensuring (Engine.execute rs l (numberedScript n) (.obj []) (.ofInt 1)) (do
    let now ← Act.now
    Action.onEnv fun s => ((), { s with ended := (n, now) :: s.ended }))

/-- The result that a task has produced. -/
def result? : Product → Option RunResult
  | .result r => some r
  | _ => none

/-- Makes all runs at the same time; the answers are their endings. -/
def poolSession (rs : Engine.Runtimes Surroundings) (ls : List Language) :
    Action Surroundings (List (Ending RunResult)) := do
  let tasks ← ls.zipIdx.mapM fun (l, n) => Act.spawn .result (numberedRun rs n l)
  Act.gather .nothing true tasks
  tasks.mapM fun t => Act.attempt (Act.valueOf result? t)

/-! ### Executions -/

/-- Makes a run that is interrupted after a time, unless it has ended by then. -/
def runInterrupted {ω : Type} (delay : Option Rat) (run : Action ω RunResult) :
    Action ω (Ending RunResult) := do
  let task ← Act.spawn .result run
  let ended ← Act.newSignal
  let _ ← Act.watch .nothing task fun _ => Act.call (.fire ended)
  match delay with
  | none => Act.wait (.cell ended)
  | some d =>
    let due ← Act.newSignal
    let timer ← Act.call (.fireAfter d due)
    let _ ← Act.watch .nothing due fun _ => Act.call (.interrupt task)
    Act.wait (.cell ended)
    Act.call (.dropTimer timer)
  Act.attempt (Act.valueOf result? task)

/-- What can be seen after an execution. -/
structure ExecutionView where
  ending : Ending RunResult
  elapsed : Rat
  /-- The interpreter can be found. -/
  found : Bool
  /-- What is left in the parent of the scratch directories. -/
  leftover : List Text
  launch : Option Launch
  /-- The process and its exit code, if it has exited. -/
  process : Option (Process × Option Int)

/-- Runs a script, and interrupts the run after a time. -/
def executionSession (r : Sandbox.Runtime) (code : Text) (bindings : Json) (timeout : Binary64)
    (interruptAfter : Option Rat) : Action Host ExecutionView := do
  let ending ← runInterrupted interruptAfter (Sandbox.execute .whole r [] code bindings timeout)
  let elapsed ← Act.now
  let found ← Sandbox.probe .whole r
  let host ← Part.whole.ask id
  let process ← match host.processes.head? with
    | some p => do pure (some (p, ← Sandbox.exitCode? .whole 0))
    | none => pure none
  let leftover := match
      host.files.tree.find true (host.files.locate (r.scratchRoot.getD host.temporary)) with
    | .ok n => n.entries.map (·.1)
    | .error _ => []
  pure ⟨ending, elapsed, found, leftover, host.launches.head?, process⟩

/-! ### Processes -/

/-- What can be seen of a process, and what cleaning it up comes to. -/
structure ProcessView where
  watched : Bool
  running : Bool
  descendants : Nat
  ownsGroup : Bool
  /-- What was done while it was cleaned up, first one first. -/
  calls : List ProcessCall
  /-- The answer of the cleaning up; there is none if the process was only killed. -/
  cleaned : Option Bool
  exitCode : Option Int
  elapsed : Rat

/-- Looks at a process, and then cleans it up or only kills it. -/
def processSession (name id : Text) (killOnly : Bool) (limit : Json) : Action Host ProcessView := do
  match ← Sandbox.start .whole default with
  | .error _ => Act.fail .interrupted
  | .ok n =>
    let p ← Part.whole.ask (·.process n)
    let running ← Sandbox.isRunning .whole n
    let below ← Sandbox.descendants .whole n
    let owns ← Sandbox.ownsGroup .whole n
    Part.whole.modify fun s : Host => { s with calls := [] }
    let cleaned ← if killOnly then do
        Sandbox.killTree .whole n
        pure none
      else some <$> Sandbox.cleanupProcess .whole n name id limit (limit.rat?.getD 0)
    return ⟨(Sandbox.watched? p).isSome, running, below.length, owns,
      (← Part.whole.ask (·.calls)).reverse, cleaned, ← Sandbox.exitCode? .whole n, ← Act.now⟩

/-! ### Scratch directories -/

/-- A step with scratch directories. -/
inductive ScratchStep
  /-- Puts a node at a path, with the directories above it. -/
  | put (path : Path) (node : Node)
  | create (root : Path) (name : Text)
  | write (path : Path) (code : Text)
  | removeFile (path : Option Path) (description : Text)
  | removeDirectory (path : Option Path)
  /-- Cleans up after a process that was never started. -/
  | noProcess
  | list

/-- The answer to a step. -/
inductive ScratchAnswer
  | nothing
  | created
  | written (content : Bytes)
  | removed (ok : Bool)
  | listing (paths : List Text)

/-- The state of a session: the files, the scratch directories by name, and the log. -/
structure ScratchState where
  files : FileSystem := {}
  count : Nat := 0
  held : List (Text × Path) := []
  records : List LogRecord := []

namespace ScratchState

/-- The path that a name stands for, with the names that follow. -/
def path (st : ScratchState) (base : Path) : (names : List Text) → Path
  | [] => base
  | first :: rest =>
    match st.held.lookup first with
    | some p => { p with names := p.names ++ rest }
    | none => { base with names := base.names ++ first :: rest }

/-- Puts a node at a path, with the directories above it. -/
def put (fs : FileSystem) (p : Path) (n : Node) : Except Fault FileSystem := do
  let fs ← fs.makeDirectories p.root p.parent.names.reverse
  fs.update p (fs.tree.create (fs.locate p) n)

mutual

/-- The paths of everything below a node; directories and links are marked. -/
def pathsBelow (start : Text) : Node → List Text
  | .directory _ _ es => pathsOfEntries start es
  | _ => []

/-- The paths of entries and of everything below them. -/
def pathsOfEntries (start : Text) : List (Text × Node) → List Text
  | [] => []
  | (name, n) :: rest =>
    let path := start ++ name
    (match n with
      | .directory kept closed es =>
        (path ++ text "/") :: pathsBelow (path ++ text "/") (.directory kept closed es)
      | .link .. => [path ++ text "@"]
      | .file .. => [path]) ++ pathsOfEntries start rest

end

/-- Everything below a path, with the scratch directories under their names. -/
def listing (st : ScratchState) (base : Path) : List Text :=
  match st.files.tree.find true (st.files.locate base) with
  | .error _ => []
  | .ok n =>
    let shown := st.held.foldl (fun ts (name, p) =>
      ts.map (Text.replaceAll p.name (text "<" ++ name ++ text ">"))) (pathsBelow [] n)
    shown.mergeSort Text.le

/-- The state after a removal, and the answer. -/
def removed (st : ScratchState) (r : Sandbox.Removal FileSystem) :
    ScratchState × Except Fault ScratchAnswer :=
  ({ st with files := r.left, records := st.records ++ r.records }, .ok (.removed r.ok))

/-- Takes a step. -/
def take (st : ScratchState) (base : Path) (id : Text) :
    ScratchStep → ScratchState × Except Fault ScratchAnswer
  | .put path node =>
    match put st.files path node with
    | .ok files => ({ st with files }, .ok .nothing)
    | .error f => (st, .error f)
  | .create root name =>
    match Sandbox.createScratch st.files root st.count with
    | .ok (path, count, files) =>
      ({ st with files, count, held := (name, path) :: st.held }, .ok .created)
    | .error f => (st, .error f)
  | .write path code =>
    let (r, files) := Sandbox.writeScript st.files path code
    ({ st with files }, r.map fun () => .written ((Utf8.encode code).getD []))
  | .removeFile (some path) description =>
    st.removed (Sandbox.removeFile st.files id description path)
  | .removeDirectory (some path) => st.removed (Sandbox.removeScratch st.files id path)
  | .removeFile none _ | .removeDirectory none | .noProcess => (st, .ok (.removed true))
  | .list => (st, .ok (.listing (st.listing base)))

end ScratchState

end ChatCommands.Simulation
