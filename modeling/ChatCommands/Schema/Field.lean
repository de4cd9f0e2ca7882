import ChatCommands.Schema.Issue
import ChatCommands.Text.Blank

/-!
Checks for single values and for the fields of records.

Numbers and truth values are also accepted in the spellings that configuration files and forms use:
numerals in strings, words for truth values, whole fractions for integers.  A string is accepted
only as a string.
-/

namespace ChatCommands.Schema

/-- A check of a JSON value. -/
abbrev Check (α : Type) := Json → Checked α

/-! ### Strings -/

/-- Any string. -/
def string : Check Text
  | .str t => .ok t
  | _ => .fail .stringType

/-- Goes on with a text unless it holds a surrogate;
such a text can be kept but not be looked into. -/
def lookInto {α : Type} (t : Text) (check : Text → Checked α) : Checked α :=
  if t.any Text.isSurrogate then .fail .stringUnicode else check t

/-- A string of at least `least` and, if given, at most `most` code points. -/
def stringOf (least : Nat) (most : Option Nat) : Check Text := fun v =>
  (string v).andThen fun t => lookInto t fun t =>
    if t.length < least then .fail (.stringTooShort least)
    else
      match most with
      | some m => if m < t.length then .fail (.stringTooLong m) else .ok t
      | none => .ok t

/-- `null`, or what the other check accepts. -/
def optional {α : Type} (check : Check α) : Check (Option α)
  | .null => .ok none
  | v => (check v).map some

/-! ### Numerals in strings -/

/-- The digits of a run in which a single low line may stand between two digits; the run must begin
and end with a digit, and the rest of the text begins with neither. -/
def digitRun (t : Text) : Text × Text := go [] t
where
  /-- Reads on after the digits `done`, latest first. -/
  go (done : Text) : Text → Text × Text
    | [] => (done.reverse, [])
    | [c] => if Text.isAsciiDigit c then ((c :: done).reverse, []) else (done.reverse, [c])
    | c :: d :: rest =>
      if Text.isAsciiDigit c then go (c :: done) (d :: rest)
      else if c = 95 && Text.isAsciiDigit d && !done.isEmpty then go (d :: done) rest
      else (done.reverse, c :: d :: rest)

/-- A sign in front of a numeral. -/
def signed : Text → Bool × Text
  | 45 :: t => (true, t)
  | 43 :: t => (false, t)
  | t => (false, t)

/-- The integer that a string denotes: a sign, digits, and perhaps a point with zeros only. -/
def parseInt? (t : Text) : Option Int :=
  let (negative, t) := signed (Text.trim t)
  let (ds, rest) := digitRun t
  let zeros : Bool := match rest with
    | [] => true
    | 46 :: z :: zs => (z :: zs).all (· == 48)
    | _ => false
  if ds.isEmpty || !zeros then none
  else
    let n : Int := Text.toNat ds
    some (if negative then -n else n)

/-- The exponent of a numeral: nothing, or a letter, a sign and digits. -/
def parseExponent? : Text → Option Int
  | [] => some 0
  | e :: t =>
    if e = 101 || e = 69 then
      let (negative, t) := signed t
      let (ds, rest) := digitRun t
      if ds.isEmpty || !rest.isEmpty then none
      else
        let n : Int := Text.toNat ds
        some (if negative then -n else n)
    else none

/-- The number that a string denotes: a sign and a decimal numeral, `inf`, `infinity` or `nan`. -/
def parseFloat? (t : Text) : Option Binary64 :=
  let (negative, t) := signed (Text.trim t)
  let name := Text.lowerAscii t
  if name = text "inf" || name = text "infinity" then some (.infinity negative)
  else if name = text "nan" then some .nan
  else
    let (whole, rest) := digitRun t
    let (fraction, rest) := match rest with
      | 46 :: r => digitRun r
      | r => ([], r)
    if whole.isEmpty && fraction.isEmpty then none
    else
      (parseExponent? rest).map fun e =>
        .ofDecimal negative (Text.toNat (whole ++ fraction)) (e - fraction.length)

/-! ### Numbers and truth values -/

/-- An integer. -/
def integer : Check Int
  | .int i => .ok i
  | .bool b => .ok (if b then 1 else 0)
  | .real x =>
    match x.toRat? with
    | none => .fail .finiteNumber
    | some q =>
      if q.den ≠ 1 then .fail .intFromFraction
      else if Nat.pow 2 63 ≤ q.num.natAbs then .fail .intSize
      else .ok q.num
  | .str t => lookInto t fun t =>
    if Json.maxDigits < t.length then .fail .intSize
    else
      match parseInt? t with
      | some i => .ok i
      | none => .fail .intParsing
  | _ => .fail .intType

/-- An integer within bounds; the upper one is tried first. -/
def integerIn (least : Option Int) (most : Option Int) : Check Int := fun v =>
  (integer v).andThen fun i =>
    if most.any (· < i) then .fail (.atMost (.ofInt (most.getD 0)))
    else if least.any (i < ·) then .fail (.atLeast (.ofInt (least.getD 0)))
    else .ok i

/-- A number.  An integer beyond all finite numbers is not one. -/
def number : Check Binary64
  | .int i => if (Binary64.ofInt i).toRat?.isSome then .ok (.ofInt i) else .fail .floatType
  | .bool b => .ok (.ofInt (if b then 1 else 0))
  | .real x => .ok x
  | .str t => lookInto t fun t =>
    match parseFloat? t with
    | some x => .ok x
    | none => .fail .floatParsing
  | _ => .fail .floatType

/-- A number within bounds: at most `most`, at least `least`, above `floor`, tried in this order. -/
def numberIn (most least floor : Option Binary64) : Check Binary64 := fun v =>
  (number v).andThen fun x =>
    match most.filter (fun b => !x.le b), least.filter (fun b => !b.le x),
        floor.filter (fun b => !b.lt x) with
    | some b, _, _ => .fail (.atMost b)
    | none, some b, _ => .fail (.atLeast b)
    | none, none, some b => .fail (.above b)
    | none, none, none => .ok x

/-- The words for truth values. -/
def truthWords : List (String × Bool) :=
  [("0", false), ("off", false), ("f", false), ("false", false), ("n", false), ("no", false),
    ("1", true), ("on", true), ("t", true), ("true", true), ("y", true), ("yes", true)]

/-- The truth value that a whole number stands for; one that does not fit into 64 bits is not even
tried. -/
def flagOfInt (fits : Bool) (i : Int) : Checked Bool :=
  if i = 0 then .ok false
  else if i = 1 then .ok true
  else .fail (if fits then .boolParsing else .boolType)

/-- A truth value. -/
def flag : Check Bool
  | .bool b => .ok b
  | .int i => flagOfInt (-(Nat.pow 2 63 : Int) ≤ i && i < Nat.pow 2 63) i
  | .real x =>
    match x.toRat?.filter fun q => q.den == 1 with
    | some q => flagOfInt (q.num.natAbs < Nat.pow 2 63) q.num
    | none => .fail .boolType
  | .str t => lookInto t fun t =>
    match truthWords.find? fun (w, _) => text w == Text.lowerAscii t with
    | some (_, b) => .ok b
    | none => .fail .boolParsing
  | _ => .fail .boolType

/-! ### Collections and records -/

/-- Checks items in order, each under its index from `n` on. -/
def itemsFrom {α : Type} (check : Check α) (n : Nat) : List Json → Checked (List α)
  | [] => .ok []
  | v :: rest => .seq (.map List.cons ((check v).under (.index n))) (itemsFrom check (n + 1) rest)

/-- A list of items. -/
def list {α : Type} (check : Check α) : Check (List α)
  | .arr items => itemsFrom check 0 items
  | _ => .fail .listType

/-- A set of strings, in ascending order. -/
def textSet : Check (List Text)
  | .arr items => (itemsFrom string 0 items).map Text.sortedSet
  | _ => .fail .setType

/-- Checks the members of an object in order: the name first, then the value. -/
def membersOf {α κ : Type} (key : Text → Checked κ) (check : Check α) :
    List (Text × Json) → Checked (List (κ × α))
  | [] => .ok []
  | (n, v) :: rest =>
    let k := ((key n).under (.name (text "[key]"))).under (.name n)
    let x := (check v).under (.name n)
    .seq (.map List.cons (.seq (.map Prod.mk k) x)) (membersOf key check rest)

/-- A dictionary. -/
def dict {α κ : Type} (key : Text → Checked κ) (check : Check α) : Check (List (κ × α))
  | .obj members => membersOf key check members
  | _ => .fail .dictType

/-- One of several names. -/
def oneOf {α : Type} (names : List String) (find : Text → Option α) : Check α
  | .str t =>
    match find t with
    | some a => .ok a
    | none => .fail (.oneOf names)
  | _ => .fail (.oneOf names)

/-- A record called `record`: an object whose members `build` checks. -/
def object {α : Type} (record : String) (build : List (Text × Json) → Checked α) : Check α
  | .obj members => build members
  | _ => .fail (.recordType record)

/-- A field that must be given. -/
def required {α : Type} (members : List (Text × Json)) (name : String) (check : Check α) :
    Checked α :=
  match Json.member? (text name) members with
  | some v => (check v).under (.name (text name))
  | none => (Checked.fail .missing).under (.name (text name))

/-- A field with a default. -/
def defaulted {α : Type} (members : List (Text × Json)) (name : String) (default : α)
    (check : Check α) : Checked α :=
  match Json.member? (text name) members with
  | some v => (check v).under (.name (text name))
  | none => .ok default

/-- Members under other names are issues of their own. -/
def noOthers (members : List (Text × Json)) (names : List String) : Checked Unit :=
  let known := names.map text
  match members.filter fun (n, _) => !known.contains n with
  | [] => .ok ()
  | others => .issues (others.map fun (n, _) => ⟨[.name n], .unknownField⟩)

end ChatCommands.Schema
