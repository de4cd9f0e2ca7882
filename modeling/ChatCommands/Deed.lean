import ChatCommands.Cooldown.Limiter
import ChatCommands.Json.Basic
import ChatCommands.Message
import ChatCommands.Run

/-!
The deeds of an engine: what it has asked of the limiter, of the runtimes and of the sinks.

Nothing reads the deeds.  They are the history that an engine leaves, whatever its collaborators do.
Where several messages are in work at the same time, the number of a message tells whose deed it is.
-/

namespace ChatCommands

/-- A call of a runtime: the language for which it is registered, and what it is called with. -/
structure RuntimeCall where
  language : Language
  code : Text
  bindings : Json
  timeout : Binary64

/-- A deed of an engine. -/
inductive Deed
  /-- Work on a message was begun; `enabled` is what the kill switch said. -/
  | received (n : Nat) (m : Message) (enabled : Bool)
  /-- The registry has answered for a tenant, the one of the message. -/
  | listed (n : Nat) (tenant : Text) (commands : List Command) (sigil : Option Text)
  /-- A message has fired a command. -/
  | matched (m : Message) (c : Command)
  /-- The limiter was asked for a run; it has granted one if there is a reservation. -/
  | asked (m : Message) (c : Command) (now : Rat) (r : Option Cooldown.Reservation)
  /-- A reservation was turned into a fire. -/
  | committed (r : Cooldown.Reservation)
  /-- A reservation was given back. -/
  | released (r : Cooldown.Reservation)
  /-- The pool was asked to run the command. -/
  | started (m : Message) (c : Command) (r : Option Cooldown.Reservation)
  /-- A runtime was called for the message. -/
  | entered (n : Nat) (call : RuntimeCall)
  /-- The message and its command have come to a result. -/
  | concluded (n : Nat) (m : Message) (c : Command) (result : RunResult) (retryAfterMs : Int)
  /-- The limiter was pruned. -/
  | pruned (now : Rat)
  /-- The audit log was given an entry. -/
  | recorded (e : AuditEntry)
  /-- The delivery of a reply was begun. -/
  | answered (channel content : Text)

end ChatCommands
