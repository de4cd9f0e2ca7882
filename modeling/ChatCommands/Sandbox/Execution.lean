import ChatCommands.Engine.Pool
import ChatCommands.Json.Writer
import ChatCommands.Number.Shortest
import ChatCommands.Sandbox.Diagnosis
import ChatCommands.Sandbox.Supervision

/-!
Executions: running a script in a process of its own.

A run finds the interpreter, makes a scratch directory, writes the script, starts the process, hands
it the bindings, and reads what it writes until it exits or its time is up.  However the run ends,
the process is killed and the scratch directory is removed, in this order.
-/

namespace ChatCommands.Sandbox

open Concurrency Host

variable {ω : Type} (h : Part ω Host)

/-- How much of a script's diagnostics is kept, in bytes. -/
def maxStderrBytes : Int := 16000

/-- What a run holds and must give back. -/
structure Held where
  scratch : Option Path := none
  process : Option Nat := none

/-- A result without output. -/
def failed (status : Status) (summary : Text) : RunResult := { status, summary := some summary }

/-- The language of a runtime as context of a log record. -/
def languageContext (r : Runtime) : String × Json := ("language", .str (text r.language.name))

/-- A run as context of a log record. -/
def runContext (r : Runtime) (id : Text) : List (String × Json) :=
  [languageContext r, ("execution_id", .str id)]

/-- The interpreter can be found. -/
def probe (r : Runtime) : Action ω Bool := h.ask fun s => (s.which r.binary).isSome

/-- Makes the scratch directory of a run. -/
def takeScratch (r : Runtime) : Action ω Path := do
  let made ← h.change fun s =>
    match createScratch s.files (r.scratchRoot.getD s.temporary) s.scratchCount with
    | .ok (path, count, files) => (.ok path, { s with files, scratchCount := count })
    | .error f => (.error f, s)
  Act.ofExcept made

/-- Puts the script into the scratch directory. -/
def placeScript (path : Path) (code : Text) : Action ω Unit := do
  let written ← h.change fun s =>
    let (written, files) := writeScript s.files path code
    (written, { s with files })
  Act.ofExcept written

/-- What the process of a run is started with. -/
def launchOf (r : Runtime) (program : Text) (scratch : Path) (timeout : Binary64) : Launch where
  command := r.wrapper ++ program :: r.arguments (scratch.child r.language.scriptName) timeout
  directory := scratch
  environment := r.environment scratch
  limits := r.limits timeout

/-- Starts the process of a run. -/
def startRun (r : Runtime) (program : Text) (scratch : Path) (timeout : Binary64) :
    Action ω Nat := do
  match ← start h (launchOf r program scratch timeout) with
  | .ok n => pure n
  | .error e =>
    Act.throw (.runtimeUnavailable
      (text "Could not start " ++ r.language.programName ++ text ": " ++ e.wording) program)

/-- Prepares a run: the answer is what it then holds, and whether everything is ready. -/
def prepare (r : Runtime) (program code : Text) (timeout : Binary64) :
    Action ω (Held × Ending (Path × Nat)) := do
  match ← Act.attempt (takeScratch h r) with
  | .error e => pure ({}, .error e)
  | .ok scratch =>
    let started ← Act.attempt (do
      placeScript h (scratch.child r.language.scriptName) code
      startRun h r program scratch timeout)
    match started with
    | .error e => pure ({ scratch := some scratch }, .error e)
    | .ok n => pure ({ scratch := some scratch, process := some n }, .ok (scratch, n))

/-- Cleans up what is held, if it is. -/
def giveBack (held : Option α) (cleanup : α → Action ω Bool) : Action ω Unit := do
  match held with
  | some x =>
    let _ ← cleanup x
  | none => pure ()

/-- Gives back what a run holds. -/
def release (r : Runtime) (held : Held) (id : Text) : Action ω Unit := do
  giveBack held.process fun n => cleanupProcess h n r.language.programName id
  giveBack held.scratch fun path => cleanupScratch h path id

/-- The fault of a preparation, as the result of the run, if it is one that can be foreseen. -/
def unprepared (r : Runtime) (id : Text) (f : Fault) : Action ω RunResult := do
  if f.kind = .runtimeUnavailable || f.kind.isOs then
    Action.log .warning .runtime (text "Runtime unavailable")
      (runContext r id ++ [("error", .str f.wording)])
    pure (failed .runtimeUnavailable
      (if f.kind = .runtimeUnavailable then f.message else text "Scratch space unavailable"))
  else Act.throw f

/-- Talks to the process of a run until it has exited. -/
def converse (r : Runtime) (n : Nat) (bindings : Json) : Action ω (Int × Capture × Capture) := do
  let (out, err) ← communicate h n (bindings.write .spaced) r.maxOutputBytes maxStderrBytes
  waitForExit h n
  return ((← h.ask fun s => (s.process n).codeAtEnd), out, err)

/-- Waits for the end of a run, or for the end of its time. -/
def supervise (r : Runtime) (id : Text) (scratch : Path) (n : Nat) (bindings : Json)
    (timeout : Binary64) : Action ω RunResult := do
  Action.log .debug .runtime (text "Script started") (runContext r id)
  match ← Act.attempt (Act.within (timeout.toRat?) (converse h r n bindings)) with
  | .ok (code, out, err) => pure (diagnose r scratch code out err)
  | .error (.fault f) =>
    if f.kind = .timeout then
      Action.log .info .runtime (text "Script timed out")
        (runContext r id ++ [("timeout", .real timeout)])
      pure (failed .timeout (text "Execution exceeded " ++ timeout.renderGeneral ++ text "s"))
    else Act.throw f
  | .error .interrupted => Act.fail .interrupted

/-- Runs a script. -/
def execute (r : Runtime) (id : Text := []) : Engine.Runner ω := fun code bindings timeout => do
  match ← h.ask (·.which r.binary) with
  | none =>
    Action.log .warning .runtime (text "Interpreter not found")
      [languageContext r, ("binary", .str r.binary)]
    pure (failed .runtimeUnavailable (r.language.programName ++ text " interpreter not found"))
  | some program =>
    let (held, ready) ← prepare h r program code timeout
    let ending ← Act.attempt (
      match ready with
      | .ok (scratch, n) => supervise h r id scratch n bindings timeout
      | .error (.fault f) => unprepared r id f
      | .error .interrupted => Act.fail .interrupted)
    release h r held id
    Act.ofEnding ending

end ChatCommands.Sandbox
