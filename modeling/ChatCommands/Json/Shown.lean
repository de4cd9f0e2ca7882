import ChatCommands.Json.Basic
import ChatCommands.Number.Shortest
import ChatCommands.Text.Quoted

/-!
JSON values as diagnostics show them.

`shown` quotes strings and names the constants `None`, `True` and `False`; `plain` leaves a string
that stands alone as it is.
-/

namespace ChatCommands.Json

mutual

/-- A value in the notation of diagnostics. -/
def shown : Json → Text
  | .null => text "None"
  | .bool true => text "True"
  | .bool false => text "False"
  | .int i => Text.ofInt i
  | .real x => x.render
  | .str t => Text.quoted t
  | .arr items => text "[" ++ Text.join (text ", ") (shownItems items) ++ text "]"
  | .obj members => text "\x7b" ++ Text.join (text ", ") (shownMembers members) ++ text "\x7d"

/-- The items of an array in the notation of diagnostics. -/
def shownItems : List Json → List Text
  | [] => []
  | v :: rest => shown v :: shownItems rest

/-- The members of an object in the notation of diagnostics. -/
def shownMembers : List (Text × Json) → List Text
  | [] => []
  | (n, v) :: rest => (Text.quoted n ++ text ": " ++ shown v) :: shownMembers rest

end

/-- A value as a running text shows it: a string is not quoted. -/
def plain : Json → Text
  | .str t => t
  | v => shown v

end ChatCommands.Json
