import ChatCommands.Number.Binary64
import ChatCommands.Text.Basic

/-!
JSON values.

Whole numerals and numerals with a fraction or an exponent are kept apart, and the members of an
object stand in the order in which their names first occurred.
-/

namespace ChatCommands

/-- A JSON value. -/
inductive Json
  | null
  | bool (b : Bool)
  | int (i : Int)
  | real (x : Binary64)
  | str (t : Text)
  | arr (items : List Json)
  | obj (members : List (Text × Json))
  deriving Inhabited

namespace Json

/-- The value of the member `name`. -/
def member? (name : Text) : List (Text × Json) → Option Json
  | [] => none
  | (n, v) :: rest => if n = name then some v else member? name rest

/-- Sets the member `name`: in its place if there is one already, else at the end. -/
def setMember (name : Text) (value : Json) : List (Text × Json) → List (Text × Json)
  | [] => [(name, value)]
  | (n, v) :: rest => if n = name then (n, value) :: rest else (n, v) :: setMember name value rest

/-- The member of an object, if the value is one. -/
def field? (name : String) : Json → Option Json
  | .obj ms => member? (text name) ms
  | _ => none

/-- An object with literal member names. -/
def record (members : List (String × Json)) : Json := .obj (members.map fun (n, v) => (text n, v))

/-- An array of strings. -/
def texts (ts : List Text) : Json := .arr (ts.map .str)

/-- A value or `null`. -/
def orNull (v : Option Json) : Json := v.getD .null

/-- The longest numeral that is read as an integer. -/
def maxDigits : Nat := 4300

/-- The order of members by name. -/
def nameLe (a b : Text × Json) : Bool := Text.le a.1 b.1

end Json

end ChatCommands
