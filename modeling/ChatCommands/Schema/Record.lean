import ChatCommands.Config
import ChatCommands.Fault.Basic
import ChatCommands.Run

/-!
Assignment to the fields of checked records.

Most records are fixed once they have been checked.  The others take any value for a field that they
have: an assigned value is not checked.
-/

namespace ChatCommands.Schema

/-- A kind of record: its name, its fields, and whether it is fixed. -/
structure RecordType where
  name : String
  fields : List String
  fixed : Bool

namespace RecordType

/-- The record after an assignment; fields that are not part of its written form may be assigned
too. -/
def assign (r : RecordType) (value : Json) (field : Text) (new : Json) : Except Fault Json :=
  if r.fixed then .error (.invalid [⟨[.name field], .frozen⟩])
  else if !(r.fields.map text).contains field then
    .error (.of .value (text "\"" ++ text r.name ++ text "\" object has no field \"" ++ field ++
      text "\""))
  else
    match value with
    | .obj members =>
      if (Json.member? field members).isSome then .ok (.obj (Json.setMember field new members))
      else .ok value
    | other => .ok other

/-- Commands. -/
def command : RecordType := ⟨"Command", [], true⟩

/-- Messages. -/
def message : RecordType := ⟨"InboundMessage", [], true⟩

/-- Results of runs. -/
def result : RecordType :=
  ⟨"ExecutionResult", ["status", "output", "truncated", "error_summary", "exit_code", "duration_ms",
    "timestamp"], false⟩

/-- Entries of the audit log. -/
def auditEntry : RecordType := ⟨"AuditEntry", [], true⟩

/-- Verdicts of the review. -/
def verdict : RecordType := ⟨"ValidationResult", [], true⟩

/-- Decisions of the cooldown limiter. -/
def decision : RecordType := ⟨"CooldownDecision", [], true⟩

/-- Requests. -/
def request : RecordType := ⟨"ExecutionRequest", [], true⟩

/-- Outcomes of messages. -/
def outcome : RecordType :=
  ⟨"ExecutionOutcome", ["command_id", "result", "reply", "delivered", "audited"], false⟩

end RecordType

end ChatCommands.Schema
