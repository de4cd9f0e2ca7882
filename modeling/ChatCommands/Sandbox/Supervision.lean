import ChatCommands.Host.Basic
import ChatCommands.Sandbox.Scratch
import ChatCommands.World

/-!
The supervision of processes: starting one, talking to it, waiting for it, and killing it with
everything that it has started.

Cleaning up logs every failure and reports it as a truth value; only an interruption gets through.
-/

namespace ChatCommands.Sandbox

open Concurrency Host

variable {ω : Type} (h : Part ω Host)

/-! ### Starting -/

/-- The limits that are in force for a process. -/
def limitsInForce (b : Behaviour) (l : Launch) : Launch :=
  { l with limits := l.limits.filter fun x => !b.refusedLimits.contains x.resource }

/-- Starts a process; the answer is its number. -/
def start (l : Launch) : Action ω (Except StartError Nat) := do
  let b ← h.change fun s =>
    let b := s.behaviour l
    (b, { s with launches := limitsInForce b l :: s.launches })
  match b.startError with
  | some e => pure (.error e)
  | none => do
    let exited ← Act.newSignal
    let now ← Act.now
    if b.gone then Act.call (.fire exited)
    else
      match b.exitAfter with
      | some d =>
        let _ ← Act.call (.fireAfter d exited)
      | none => pure ()
    h.change fun s =>
      let p : Process := { behaviour := b, exited, dueAt := b.exitAfter.map (now + ·) }
      (.ok s.processes.length,
        { s with
          processes := s.processes ++ [p]
          files := leaveFiles s.files l.directory b.leaves })

/-! ### Waiting -/

/-- The exit code of a process, once it has exited. -/
def exitCode? (n : Nat) : Action ω (Option Int) := do
  let p ← h.ask (·.process n)
  return if (← Act.call (.status p.exited)).isDone then some p.codeAtEnd else none

/-- Waits until a process has exited. -/
def waitForExit (n : Nat) : Action ω Unit := do
  let p ← h.ask (·.process n)
  if !(← Act.call (.status p.exited)).isDone then
    let s ← Act.newSignal
    let w ← Act.watch .nothing p.exited fun _ => Act.call (.fire s)
    Act.ensuring (Act.wait (.cell s)) (Act.call (.unwatch p.exited w))

/-! ### Input and output -/

/-- Waits, but not at all for no time. -/
def pass (d : Option Rat) : Action ω Unit := if d = some 0 then pure () else Act.sleep d

/-- Reads a stream to its end. -/
def readStream (limit : Int) (ending : Option Rat) :
    List (Rat × Bytes) → Capture → Action ω Capture
  | [], c => do
    pass ending
    pure c
  | (d, chunk) :: rest, c => do
    pass (some d)
    readStream limit ending rest (c.add limit chunk)

/-- Writes the input of a process and closes it; a process that does not read its input to the end
is none the worse for it. -/
def feed (n : Nat) (input : Text) : Action ω Unit := do
  let p ← h.ask (·.process n)
  match p.behaviour.stdin with
  | none => pure ()
  | some intake =>
    h.modify fun s => s.modifyProcess n fun p => { p with input }
    pass intake.delay
    match intake.fault with
    | some f => if !f.kind.isClosedPipe then Act.throw f
    | none => pure ()
    h.modify fun s => s.modifyProcess n fun p => { p with inputClosed := true }

/-- What a task has captured. -/
def captured? : Product → Option Capture
  | .captured c => some c
  | _ => none

/-- Writes the input of a process and reads what it writes, all at the same time. -/
def communicate (n : Nat) (input : Text) (stdoutLimit stderrLimit : Int) :
    Action ω (Capture × Capture) := do
  let b ← h.ask fun s => (s.process n).behaviour
  let feeding ← Act.spawn (fun _ => .nothing) (feed h n input)
  let out ← Act.spawn .captured (readStream stdoutLimit b.stdout.ending b.stdout.chunks {})
  let err ← Act.spawn .captured (readStream stderrLimit b.stderr.ending b.stderr.chunks {})
  Act.together .nothing [feeding, out, err]
  return (← Act.valueOf captured? out, ← Act.valueOf captured? err)

/-! ### Killing -/

/-- Notes what is done to a process. -/
def note (c : ProcessCall) : Action ω Unit := h.modify fun s => { s with calls := c :: s.calls }

/-- A process table entry that can be watched. -/
def watched? (p : Process) : Option TableEntry :=
  match p.behaviour.entry with
  | some e => if e.watched then some e else none
  | none => none

/-- The process is running, as far as can be told. -/
def isRunning (n : Nat) : Action ω Bool := do
  match watched? (← h.ask (·.process n)) with
  | some e => pure (e.running.getD false)
  | none => return (← exitCode? h n).isNone

/-- The processes that a process has started, as far as can be told. -/
def descendants (n : Nat) : Action ω (List Nat) := do
  match watched? (← h.ask (·.process n)) with
  | some e => pure (e.descendants.getD [])
  | none => pure []

/-- Killing the group of a process can reach no other group: the process has not exited, or no
process of this number leads a group of its own. -/
def ownsGroup (n : Nat) : Action ω Bool := do
  let p ← h.ask (·.process n)
  match ← exitCode? h n, p.behaviour.entry with
  | some _, some e => do
    note h (.groupOf e.pid)
    match e.group with
    | .ok group => pure (group ≠ e.pid)
    | .error f => if f.kind = .processLookup then pure true else Act.throw f
  | _, _ => pure true

/-- A process begins to die. -/
def die (n : Nat) (survival : Option Rat) : Action ω Unit := do
  match survival with
  | none => pure ()
  | some d =>
    let now ← Act.now
    h.modify fun s => s.modifyProcess n fun p =>
      { p with deathAt := some (p.deathAt.getD (now + d)) }
    let p ← h.ask (·.process n)
    if d ≤ 0 then Act.call (.fire p.exited)
    else
      let _ ← Act.call (.fireAfter d p.exited)

/-- Kills the group of a process, if it has one of its own. -/
def killGroup (n : Nat) : Action ω Unit := do
  let p ← h.ask (·.process n)
  match p.behaviour.entry with
  | none => pure ()
  | some e =>
    if ← ownsGroup h n then
      note h (.killGroup e.pid)
      match e.groupKill with
      | .ok ends => if ends && (← exitCode? h n).isNone then die h n (some 0)
      | .error f => if f.kind ≠ .processLookup && f.kind ≠ .permission then Act.throw f

/-- Kills the process itself, unless it has exited. -/
def killItself (n : Nat) : Action ω Unit := do
  if (← exitCode? h n).isNone then
    note h .kill
    h.modify fun s => s.modifyProcess n fun p => { p with kills := p.kills + 1 }
    let p ← h.ask (·.process n)
    match p.behaviour.killFault with
    | some f => if f.kind ≠ .processLookup then Act.throw f
    | none => die h n p.behaviour.survival
  else h.modify fun s => s.modifyProcess n fun p => { p with foundExited := true }

/-- Kills a process, its group, and everything that it has started. -/
def killTree (n : Nat) : Action ω Unit := do
  let below ← descendants h n
  killGroup h n
  below.forM fun pid => note h (.killDescendant pid)
  killItself h n

/-! ### Cleaning up -/

/-- How long a killed process may take to exit. -/
def reapTimeout : Rat := 2

/-- The log record of a process that was not cleaned up. -/
def cleanupFailed (name id : Text) (f : Fault) : Action ω Unit :=
  Action.log .error .cleanup (name ++ text " cleanup error")
    [("context_id", .str id), ("error", .str f.wording), ("error_type", .str (text f.kind.name))]

/-- Kills a process and waits for its exit;
a process that does not exit in time is left to itself. -/
def killAndReap (n : Nat) (name id : Text) (timeout : Json) (limit : Rat) : Action ω Bool := do
  let wasRunning := (← exitCode? h n).isNone
  killTree h n
  if ← Act.waitAtMost .nothing limit (waitForExit h n) then
    if wasRunning then
      Action.log .debug .cleanup (name ++ text " killed")
        [("context_id", .str id), ("returncode", .orNull ((← exitCode? h n).map .int))]
    pure true
  else
    Action.log .error .cleanup (name ++ text " didn't exit after SIGKILL within timeout")
      [("context_id", .str id), ("kill_timeout", timeout)]
    let _ ← Act.spawn (fun _ => .nothing) (waitForExit h n)
    pure false

/-- Cleans a process up.  It is killed in any case:
one that has exited may have left others behind. -/
def cleanupProcess (n : Nat) (name id : Text) (timeout : Json := .int 2)
    (limit : Rat := reapTimeout) : Action ω Bool :=
  (killAndReap h n name id timeout limit).recover fun f => do
    if f.kind = .processLookup then pure true
    else
      cleanupFailed name id f
      pure false

/-- Cleans a scratch directory up. -/
def cleanupScratch (path : Path) (id : Text) : Action ω Bool := do
  let r ← h.change fun s =>
    let r := removeScratch s.files id path
    (r, { s with files := r.left })
  Action.logAll r.records
  pure r.ok

end ChatCommands.Sandbox
