import ChatCommands.Engine.Basic

/-!
The life of an engine: the kill switch, messages in the background, and the sweeper that prunes the
cooldowns now and then.
-/

namespace ChatCommands.Engine

open Concurrency

variable {ω : Type}

/-- Messages are handled from now on. -/
def enable : Action ω Unit := do
  Act.modify fun w => { w with enabled := true }
  Action.log .info .coordinator (text "Command execution enabled")

/-- Messages are ignored from now on; what is running goes on. -/
def disable : Action ω Unit := do
  Act.modify fun w => { w with enabled := false }
  Action.log .warning .coordinator (text "Command execution disabled")

/-- Prunes the cooldowns; the result is the number of removed entries. -/
def prune (e : Setup ω) : Action ω Nat := do
  let (removed, left) ← Act.change fun w =>
    let now := e.clock w.env
    let l := w.limiter.prune e.cooldowns now
    ((w.limiter.staleCount e.cooldowns now, l.table.length),
      { w with limiter := l, deeds := .pruned now :: w.deeds })
  if removed ≠ 0 then
    Action.log .debug .cooldown (text "Cooldown entries evicted")
      [("evicted", .int removed), ("remaining", .int left)]
  pure removed

/-- Logs the fault of a task in the background. -/
def logFailure : CellStatus Product → Action ω Unit
  | .ended (.error (.fault _)) => Action.log .error .processIo (text "Background task failed")
  | _ => pure ()

/-- Handles a message in the background. -/
def dispatch (e : Setup ω) (m : Message) : Action ω Unit := do
  let t ← Act.spawn .outcome (handle e m)
  Act.modify fun w => { w with inFlight := w.inFlight ++ [t] }
  let _ ← Act.watch .nothing t fun _ =>
    Act.modify fun w => { w with inFlight := w.inFlight.erase t }
  let _ ← Act.watch .nothing t logFailure

/-- One round of the sweeper. -/
def sweep (e : Setup ω) : Action ω Unit := do
  Act.sleep e.config.sweepInterval.toRat?
  let _ ← prune e

/-- Starts the sweeper unless there is one. -/
def startSweeper (e : Setup ω) : Action ω Unit := do
  if (← Act.gets (·.sweeper)).isNone then
    let t ← Act.spawnForever .nothing (sweep e)
    Act.modify fun w => { w with sweeper := some t }
    let _ ← Act.watch .nothing t logFailure

/-- Stops the sweeper and waits for it to end. -/
def stopSweeper : Action ω Unit := do
  match ← Act.gets (·.sweeper) with
  | none => pure ()
  | some t =>
    Act.call (.interrupt t)
    match ← Act.attempt (Act.wait (.cell t)) with
    | .error (.fault f) => Act.throw f
    | _ => Act.modify fun w => { w with sweeper := none }

/-- Stops the sweeper and waits for the messages in the background. -/
def stop : Action ω Unit := do
  stopSweeper
  let tasks ← Act.gets (·.inFlight)
  if !tasks.isEmpty then
    Action.log .info .coordinator (text "Waiting for in-flight messages")
      [("count", .int tasks.length)]
    Act.gather .nothing true tasks

end ChatCommands.Engine
