import ChatCommands.Message

/-!
What came of a request: the result of a run, the audit entry about it, the answers of the review and
of the cooldown limiter, and the outcome of a whole message.
-/

namespace ChatCommands

open Schema

/-- How an attempt to run a command ended. -/
inductive Status
  | success
  | scriptError
  | securityRejected
  | timeout
  | rateLimited
  | runtimeUnavailable
  deriving DecidableEq, Repr, Inhabited

namespace Status

/-- Every status. -/
def all : List Status :=
  [success, scriptError, securityRejected, timeout, rateLimited, runtimeUnavailable]

/-- The name of a status. -/
def name : Status → String
  | success => "success"
  | scriptError => "script_error"
  | securityRejected => "security_rejected"
  | timeout => "timeout"
  | rateLimited => "rate_limited"
  | runtimeUnavailable => "runtime_unavailable"

/-- The names of all statuses. -/
def names : List String := all.map name

/-- The status of exactly this name. -/
def ofName? (t : Text) : Option Status := all.find? fun s => text s.name == t

/-- Checks a JSON value as a status. -/
def check : Check Status := oneOf names ofName?

end Status

/-- The result of one attempt to run a command. -/
structure RunResult where
  status : Status
  output : Text := []
  truncated : Bool := false
  summary : Option Text := none
  exitCode : Option Int := none
  durationMs : Int := 0
  deriving DecidableEq, Repr, Inhabited

namespace RunResult

/-- The fields of a result. -/
def ofMembers (ms : List (Text × Json)) : Checked RunResult :=
  RunResult.mk <$> required ms "status" Status.check
    <*> defaulted ms "output" [] string
    <*> defaulted ms "truncated" false flag
    <*> defaulted ms "error_summary" none (optional string)
    <*> defaulted ms "exit_code" none (optional integer)
    <*> defaulted ms "duration_ms" 0 (integerIn (some 0) none)

/-- Checks a JSON value as a result. -/
def check : Check RunResult := object "ExecutionResult" ofMembers

/-- A result as a JSON value, with `more` members at the end. -/
def toJson (r : RunResult) (more : List (String × Json) := []) : Json :=
  .record ([("status", .str (text r.status.name)), ("output", .str r.output),
    ("truncated", .bool r.truncated), ("error_summary", .orNull (r.summary.map .str)),
    ("exit_code", .orNull (r.exitCode.map .int)), ("duration_ms", .int r.durationMs)] ++ more)

end RunResult

/-- An entry of the audit log. -/
structure AuditEntry where
  tenant : Text
  command : Text
  author : Text
  status : Status
  summary : Option Text := none
  durationMs : Int := 0
  deriving DecidableEq, Repr, Inhabited

namespace AuditEntry

/-- The fields of an entry; the store's own identifier may be given and must be a string. -/
def ofMembers (ms : List (Text × Json)) : Checked AuditEntry :=
  (fun _ => AuditEntry.mk) <$> defaulted ms "id" [] string
    <*> required ms "tenant_id" string
    <*> required ms "command_id" string
    <*> required ms "author_id" string
    <*> required ms "status" Status.check
    <*> defaulted ms "error_summary" none (optional string)
    <*> defaulted ms "duration_ms" 0 integer

/-- Checks a JSON value as an entry. -/
def check : Check AuditEntry := object "AuditEntry" ofMembers

/-- An entry as a JSON value. -/
def toJson (e : AuditEntry) : Json :=
  .record [("tenant_id", .str e.tenant), ("command_id", .str e.command),
    ("author_id", .str e.author), ("status", .str (text e.status.name)),
    ("error_summary", .orNull (e.summary.map .str)), ("duration_ms", .int e.durationMs)]

end AuditEntry

/-- The answer of the code review. -/
structure Verdict where
  ok : Bool
  reason : Option Text := none
  category : Option Text := none
  deriving DecidableEq, Repr, Inhabited

namespace Verdict

/-- The fields of a verdict. -/
def ofMembers (ms : List (Text × Json)) : Checked Verdict :=
  Verdict.mk <$> required ms "ok" flag
    <*> defaulted ms "reason" none (optional string)
    <*> defaulted ms "category" none (optional string)

/-- Checks a JSON value as a verdict. -/
def check : Check Verdict := object "ValidationResult" ofMembers

/-- A verdict as a JSON value. -/
def toJson (v : Verdict) : Json :=
  .record [("ok", .bool v.ok), ("reason", .orNull (v.reason.map .str)),
    ("category", .orNull (v.category.map .str))]

end Verdict

/-- The answer of the cooldown limiter. -/
structure Decision where
  allowed : Bool
  retryAfterMs : Int := 0
  deriving DecidableEq, Repr, Inhabited

namespace Decision

/-- The fields of a decision. -/
def ofMembers (ms : List (Text × Json)) : Checked Decision :=
  Decision.mk <$> required ms "allowed" flag <*> defaulted ms "retry_after_ms" 0 integer

/-- Checks a JSON value as a decision. -/
def check : Check Decision := object "CooldownDecision" ofMembers

/-- A decision as a JSON value. -/
def toJson (d : Decision) : Json :=
  .record [("allowed", .bool d.allowed), ("retry_after_ms", .int d.retryAfterMs)]

end Decision

/-- What was done about one message. -/
structure Outcome where
  command : Text
  result : RunResult
  reply : Option Text := none
  delivered : Bool := false
  audited : Bool := false
  deriving DecidableEq, Repr, Inhabited

namespace Outcome

/-- The fields of an outcome. -/
def ofMembers (ms : List (Text × Json)) : Checked Outcome :=
  Outcome.mk <$> required ms "command_id" string
    <*> required ms "result" RunResult.check
    <*> defaulted ms "reply" none (optional string)
    <*> defaulted ms "delivered" false flag
    <*> defaulted ms "audited" false flag

/-- Checks a JSON value as an outcome. -/
def check : Check Outcome := object "ExecutionOutcome" ofMembers

/-- An outcome as a JSON value; `more` members end its result. -/
def toJson (o : Outcome) (more : List (String × Json) := []) : Json :=
  .record [("command_id", .str o.command), ("result", o.result.toJson more),
    ("reply", .orNull (o.reply.map .str)), ("delivered", .bool o.delivered),
    ("audited", .bool o.audited)]

end Outcome

end ChatCommands
