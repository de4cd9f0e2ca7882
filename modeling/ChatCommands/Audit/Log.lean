import ChatCommands.Delivery

/-!
The audit log: one entry for each message that matched a command.

An entry is delivered to the sink with a few attempts; one that is given up is counted and logged in
full.  Now and then, after every `trimEvery` stored entries of a tenant, the sink is asked to keep
only the newest.
-/

namespace ChatCommands.Audit

open Concurrency

/-- Where audit entries go. -/
structure Sink (ω : Type) where
  append : AuditEntry → Action ω Unit
  /-- Keeps the newest entries of a tenant and tells how many were removed. -/
  trim : (tenant : Text) → (keep : Int) → Action ω Nat

/-- How the log delivers. -/
structure Settings where
  timeout : Option Rat := some 2
  retention : Int := 10000
  trimEvery : Int := 100

variable {ω : Type}

/-- Adds one to the count of a tenant; the result is the new count. -/
def countAppend (tenant : Text) : List (Text × Nat) → Nat × List (Text × Nat)
  | [] => (1, [(tenant, 1)])
  | (t, n) :: rest =>
    if t = tenant then (n + 1, (t, n + 1) :: rest)
    else
      let (m, rest) := countAppend tenant rest
      (m, (t, n) :: rest)

/-- The error and its kind, as log records give them. -/
def faultContext (f : Fault) : List (String × Json) :=
  [("error", .str f.wording), ("error_type", .str (text f.kind.name))]

/-- Asks the sink to trim the entries of a tenant. -/
def trim (s : Settings) (sink : Sink ω) (tenant : Text) : Action ω Unit := do
  let trimmed : Action ω Unit := do
    let removed ← Delivery.withRetries s.timeout Delivery.defaultAttempts
      (sink.trim tenant s.retention)
    if removed ≠ 0 then
      Action.log .debug .audit (text "Audit trimmed")
        [("tenant_id", .str tenant), ("removed", .int removed)]
  Act.recover trimmed fun f =>
    Action.log .error .audit (text "Audit trim failed")
      (("tenant_id", .str tenant) :: faultContext f)

/-- Gives an entry up. -/
def giveUp (e : AuditEntry) (f : Fault) : Action ω Unit := do
  Act.modify fun w => { w with auditFailures := w.auditFailures + 1 }
  Action.log .error .audit (text "Audit write failed") (("audit", e.toJson) :: faultContext f)

/-- Counts a stored entry, and trims if it is time to. -/
def stored (s : Settings) (sink : Sink ω) (tenant : Text) : Action ω Unit := do
  let n ← Act.change fun w =>
    let (n, appends) := countAppend tenant w.auditAppends
    (n, { w with auditAppends := appends })
  if s.trimEvery = 0 then Act.throw (.of .zeroDivision (text "integer modulo by zero"))
  if (n : Int) % s.trimEvery = 0 then trim s sink tenant

/-- Records an entry; true if the sink has accepted it.  Without a sink it goes to the journal. -/
def record (s : Settings) (sink : Option (Sink ω)) (e : AuditEntry) : Action ω Bool := do
  Action.note (.recorded e)
  match sink with
  | none =>
    Action.log .info .audit (text "Audit") [("audit", e.toJson)]
    pure true
  | some sink =>
    match ← Act.attempt
        (Delivery.withRetries s.timeout Delivery.defaultAttempts (sink.append e)) with
    | .ok () =>
      stored s sink e.tenant
      pure true
    | .error (.fault f) =>
      giveUp e f
      pure false
    | .error .interrupted => Act.fail .interrupted

end ChatCommands.Audit
