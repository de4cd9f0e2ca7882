import ChatCommands.Json.Basic

/-!
Looking into JSON values.

Every function here is total: what is missing, or of another type than asked for, counts as `null`,
as empty, or as a given default.
-/

namespace ChatCommands.Json

/-- The member of an object, and `null` for anything else. -/
def get (v : Json) (name : String) : Json := (v.field? name).getD .null

/-- The value is `null`. -/
def isNull : Json → Bool
  | .null => true
  | _ => false

/-- The text of a string. -/
def text? : Json → Option Text
  | .str t => some t
  | _ => none

/-- A whole number. -/
def int? : Json → Option Int
  | .int i => some i
  | .real x => if x.isWhole then some x.toRat.num else none
  | _ => none

/-- A number. -/
def rat? : Json → Option Rat
  | .int i => some i
  | .real x => x.toRat?
  | _ => none

/-- A truth value. -/
def flag? : Json → Option Bool
  | .bool b => some b
  | _ => none

/-- The text of a string, or nothing. -/
def asText (v : Json) (default : Text := []) : Text := v.text?.getD default

/-- A number as a floating-point number. -/
def asFloat : Json → Binary64
  | .int i => .ofInt i
  | .real x => x
  | _ => .ofInt 0

/-- The items of an array. -/
def asItems : Json → List Json
  | .arr items => items
  | _ => []

/-- The members of an object. -/
def asMembers : Json → List (Text × Json)
  | .obj ms => ms
  | _ => []

/-- The text of a member. -/
def textAt (v : Json) (name : String) (default : String := "") : Text :=
  (v.get name).asText (text default)

/-- A whole number in a member. -/
def intAt (v : Json) (name : String) (default : Int := 0) : Int := (v.get name).int?.getD default

/-- A whole number in a member, from zero on. -/
def natAt (v : Json) (name : String) (default : Nat := 0) : Nat := (v.intAt name default).toNat

/-- A number in a member. -/
def ratAt (v : Json) (name : String) (default : Rat := 0) : Rat := (v.get name).rat?.getD default

/-- A truth value in a member. -/
def flagAt (v : Json) (name : String) (default : Bool := false) : Bool :=
  (v.get name).flag?.getD default

/-- The items of a member. -/
def itemsAt (v : Json) (name : String) : List Json := (v.get name).asItems

/-- The texts in a member. -/
def textsAt (v : Json) (name : String) : List Text := (v.itemsAt name).map (·.asText)

/-- The members of `given` over those of `base`. -/
def withDefaults (base : List (String × Json)) (given : Json) : Json :=
  .obj (given.asMembers.foldl (fun ms (n, v) => setMember n v ms)
    (base.map fun (n, v) => (text n, v)))

/-- A string. -/
def ofString (t : String) : Json := .str (text t)

end ChatCommands.Json
