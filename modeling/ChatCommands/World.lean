import ChatCommands.Concurrency.Semaphore
import ChatCommands.Deed
import ChatCommands.Journal.Record
import ChatCommands.Sandbox.Capture

/-!
The state that all tasks of an engine share, and the computations over it.

What is not the engine's own, such as the stores behind it or the host on which scripts run, is the
environment; it is a parameter here.
-/

namespace ChatCommands

open Concurrency

/-- What one of the tasks of an engine produces. -/
inductive Product
  | nothing
  | flag (b : Bool)
  | outcome (o : Option Outcome)
  | result (r : RunResult)
  | captured (c : Sandbox.Capture)
  | report (j : Json)

/-- A value that was read from a registry, and when. -/
structure Cached (α : Type) where
  readAt : Rat
  value : α

/-- The shared state. -/
structure World (ω : Type) where
  /-- What is outside the engine. -/
  env : ω
  /-- The log records written so far, latest first. -/
  journal : List LogRecord := []
  /-- Messages are handled. -/
  enabled : Bool := true
  /-- How many messages were taken in, which numbers the next one. -/
  messages : Nat := 0
  limiter : Cooldown.Limiter := {}
  /-- The slots for runs. -/
  slots : Semaphore := ⟨8, []⟩
  /-- How many runs hold a slot. -/
  active : Nat := 0
  /-- The audit entries that were given up. -/
  auditFailures : Nat := 0
  /-- The audit entries stored for each tenant. -/
  auditAppends : List (Text × Nat) := []
  cachedCommands : List (Text × Cached (List Command)) := []
  cachedSigils : List (Text × Cached (Option Text)) := []
  /-- The tasks of messages that are handled in the background. -/
  inFlight : List Nat := []
  /-- The task that prunes cooldowns. -/
  sweeper : Option Nat := none
  /-- What the engine has done so far, latest first. -/
  deeds : List Deed := []

/-- A computation over the shared state. -/
abbrev Action (ω α : Type) : Type := Act (World ω) Product α

namespace Action

variable {ω α : Type}

/-- Writes a log record. -/
def log (level : Level) (component : Component) (message : Text)
    (context : List (String × Json) := []) : Action ω Unit :=
  .modify fun w => { w with journal := ⟨level, component, message, context⟩ :: w.journal }

/-- Writes log records, the first one first. -/
def logAll (records : List LogRecord) : Action ω Unit :=
  .modify fun w => { w with journal := records.reverse ++ w.journal }

/-- Notes a deed. -/
def note (d : Deed) : Action ω Unit := .modify fun w => { w with deeds := d :: w.deeds }

/-- Changes the environment and returns a value. -/
def onEnv (f : ω → α × ω) : Action ω α :=
  .change fun w => ((f w.env).1, { w with env := (f w.env).2 })

/-- A part of the environment. -/
def askEnv (f : ω → α) : Action ω α := .gets fun w => f w.env

end Action

/-- A part of the environment. -/
structure Part (ω α : Type) where
  get : ω → α
  set : α → ω → ω

namespace Part

variable {ω α β : Type} (p : Part ω α)

/-- The whole environment. -/
def whole : Part ω ω := ⟨id, fun a _ => a⟩

/-- Something about the part. -/
def ask (f : α → β) : Action ω β := Action.askEnv fun w => f (p.get w)

/-- Changes the part and returns a value. -/
def change (f : α → β × α) : Action ω β :=
  Action.onEnv fun w => ((f (p.get w)).1, p.set (f (p.get w)).2 w)

/-- Changes the part. -/
def modify (f : α → α) : Action ω Unit := p.change fun a => ((), f a)

end Part

/-- A call of something outside the engine.  It begins with an effect, then takes a while, and ends
with another effect and an answer.  An interruption in between leaves the second effect out. -/
structure OutsideCall (ω α : Type) where
  start : ω → Option Rat × ω
  finish : ω → Except Fault α × ω

/-- Makes the call; one that takes no time is not interrupted. -/
def OutsideCall.make {ω α : Type} (c : OutsideCall ω α) : Action ω α := do
  let delay ← Action.onEnv c.start
  if delay ≠ some 0 then Act.sleep delay
  let r ← Action.onEnv c.finish
  Act.ofExcept r

end ChatCommands
