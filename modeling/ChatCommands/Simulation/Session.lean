import ChatCommands.Simulation.Surroundings

/-!
Sessions: an engine in scripted surroundings is led through steps, and the answer to each step is
kept.

A step that fails answers with its fault, and the session goes on with the next one.
-/

namespace ChatCommands.Simulation

open Concurrency

/-- A step of a session. -/
inductive Step
  | message (m : Message)
  | batch (ms : List Message)
  | dispatch (m : Message)
  | start
  | stop
  | enable
  | disable
  /-- Sets the clock of the cooldowns, in milliseconds, and that of the cache with it. -/
  | clock (ms : Rat)
  /-- Sets the clock of the cache, in seconds. -/
  | cacheClock (seconds : Rat)
  | sleep (seconds : Rat)
  | prune
  | commandsOf (tenant : Text)
  | sigilOf (tenant : Text)
  | add (c : Command)
  | remove (tenant id : Text)
  | setSigil (tenant : Text) (sigil : Option Text)
  | setFault (f : Option Fault)
  | setDelay (seconds : Rat)
  | invalidate (tenant : Option Text)

/-- What a step comes to. -/
inductive StepValue
  | nothing
  | outcome (o : Option Outcome)
  | outcomes (os : List (Option Outcome))
  | flag (b : Bool)
  | commands (cs : List Command)
  | sigil (s : Option Text)
  | count (n : Nat)

/-- The answer to a step, with what can be seen of the engine after it. -/
structure StepAnswer where
  value : Except Fault StepValue
  cooldowns : Nat
  active : Nat
  reads : Nat

/-- An outcome that a task has produced. -/
def outcome? : Product → Option (Option Outcome)
  | .outcome o => some o
  | _ => none

/-- Handles messages at the same time. -/
def handleAll (e : Engine.Setup Surroundings) (ms : List Message) :
    Action Surroundings (List (Option Outcome)) := do
  let tasks ← ms.mapM fun m => Act.spawn .outcome (Engine.handle e m)
  Act.gather .nothing false tasks
  tasks.mapM (Act.valueOf outcome?)

/-- Changes the scripted surroundings. -/
def arrange (f : Surroundings → Surroundings) : Action Surroundings StepValue := do
  Action.onEnv fun s => ((), f s)
  pure .nothing

/-- Takes a step. -/
def takeStep (e : Engine.Setup Surroundings) : Step → Action Surroundings StepValue
  | .message m => .outcome <$> Engine.handle e m
  | .batch ms => .outcomes <$> handleAll e ms
  | .dispatch m => do
    Engine.dispatch e m
    pure .nothing
  | .start => do
    Engine.startSweeper e
    pure .nothing
  | .stop => do
    Engine.stop
    pure .nothing
  | .enable => do
    Engine.enable
    pure (.flag true)
  | .disable => do
    Engine.disable
    pure (.flag false)
  | .clock ms => arrange fun s => { s with clockMs := ms, cacheClock := Binary64.snap (ms / 1000) }
  | .cacheClock seconds => arrange fun s => { s with cacheClock := seconds }
  | .sleep seconds => do
    Act.sleep (some seconds)
    pure .nothing
  | .prune => .count <$> Engine.prune e
  | .commandsOf tenant => .commands <$> e.registry.commands tenant
  | .sigilOf tenant =>
    match e.registry.sigil with
    | some ask => .sigil <$> ask tenant
    | none => pure (.sigil none)
  | .add c => arrange fun s => { s with store := s.store.add c }
  | .remove tenant id => do
    let had ← Action.askEnv fun s => s.store.has tenant id
    let _ ← arrange fun s => { s with store := s.store.remove tenant id }
    pure (.flag had)
  | .setSigil tenant sigil => arrange fun s => { s with store := s.store.setSigil tenant sigil }
  | .setFault f => arrange fun s => { s with registryFault := f }
  | .setDelay seconds => arrange fun s => { s with registryDelay := seconds }
  | .invalidate tenant => do
    Registry.invalidate tenant
    pure .nothing

/-- The answer to a step; an interruption has none. -/
def answer (e : Engine.Setup Surroundings) (step : Except Fault Step) :
    Action Surroundings StepAnswer := do
  let ending ← match step with
    | .ok step => Act.attempt (takeStep e step)
    | .error f => pure (.error (.fault f))
  let value ← match ending with
    | .ok v => pure (Except.ok v)
    | .error (.fault f) => pure (Except.error f)
    | .error .interrupted => Act.fail .interrupted
  Act.gets fun w => ⟨value, w.limiter.table.length, w.active, w.env.reads⟩

/-- Takes the steps in order and stops the engine at the end. -/
def session (e : Engine.Setup Surroundings) (steps : List (Except Fault Step)) :
    Action Surroundings (List StepAnswer) := do
  let answers ← steps.mapM (answer e)
  Engine.stop
  pure answers

end ChatCommands.Simulation
