import ChatCommands.Fault.Basic
import ChatCommands.Json.Reader

/-!
Reading JSON texts, with a fault in place of an error.
-/

namespace ChatCommands.Json

/-- The fault of a text that is no JSON.
A numeral that is too long is a bad value in a good text. -/
def ReadError.fault (e : ReadError) (t : Text) : Fault :=
  let kind : FaultKind := match e.problem with
    | .longNumeral _ => .value
    | _ => .malformedJson
  .of kind (e.message t)

/-- Reads a whole JSON text. -/
def parse (t : Text) : Except Fault Json := (read t).mapError fun e => e.fault t

end ChatCommands.Json
