import ChatCommands.Simulation.Surroundings

/-!
Sessions with the audit log alone, and with a single delivery.
-/

namespace ChatCommands.Simulation

open Concurrency

/-- A step of a session with the audit log. -/
inductive AuditStep
  | record (e : AuditEntry) (times : Nat)
  /-- Appends to the store, past the log. -/
  | append (e : AuditEntry)
  /-- Trims the store, past the log. -/
  | trim (tenant : Text) (keep : Int)
  | entries (tenant : Option Text)

/-- The answer to a step. -/
inductive AuditAnswer
  | recorded (accepted : List Bool) (failures : Nat)
  | nothing
  | removed (n : Nat)
  | entries (es : List AuditEntry)

/-- Takes a step. -/
def takeAuditStep (s : Audit.Settings) (sink : Option (Audit.Sink Surroundings)) :
    AuditStep → Action Surroundings AuditAnswer
  | .record e times => do
    let accepted ← (List.replicate times e).mapM (Audit.record s sink)
    pure (.recorded accepted (← Act.gets (·.auditFailures)))
  | .append e => do
    Surroundings.appendCall e
    pure .nothing
  | .trim tenant keep => .removed <$> Surroundings.trimCall tenant keep
  | .entries tenant => .entries <$> Action.askEnv fun s =>
    match tenant with
    | some t => s.auditStore.entriesOf t
    | none => s.auditStore.entries

/-- Takes the steps in order; a fault is the answer of its step. -/
def auditSession (s : Audit.Settings) (sink : Option (Audit.Sink Surroundings))
    (steps : List (Except Fault AuditStep)) :
    Action Surroundings (List (Except Fault AuditAnswer)) :=
  steps.mapM fun step => do
    match step with
    | .error f => pure (.error f)
    | .ok step =>
      match ← Act.attempt (takeAuditStep s sink step) with
      | .ok a => pure (.ok a)
      | .error (.fault f) => pure (.error f)
      | .error .interrupted => Act.fail .interrupted

/-- What the calls of one delivery do, in order; the last one is repeated. -/
structure DeliveryScript where
  outcomes : List (Rat × Except Fault Json)
  /-- The instants of the calls so far, latest first. -/
  calls : List Rat := []

/-- One call of a scripted delivery. -/
def scriptedCall : Action DeliveryScript Json := do
  let now ← Act.now
  let (delay, ending) ← Action.onEnv fun s =>
    ((s.outcomes[s.calls.length]?.getD (s.outcomes.getLast?.getD (0, .ok .null))),
      { s with calls := now :: s.calls })
  if delay ≠ 0 then Act.sleep (some delay)
  Act.ofExcept ending

end ChatCommands.Simulation
