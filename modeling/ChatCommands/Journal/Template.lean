import ChatCommands.Json.Shown
import ChatCommands.Number.Places

/-!
Message templates: texts with places for values.

A place begins with a percent sign, and a letter at its end says how the value is written.  A
template does not fit its values if there are too few or too many of them, or one of another type
than its place asks for; then there is no message.
-/

namespace ChatCommands.Template

/-- How a place asks for its value to be written. -/
structure Place where
  key : Option Text := none
  left : Bool := false
  plus : Bool := false
  blank : Bool := false
  alternate : Bool := false
  zero : Bool := false
  width : Nat := 0
  precision : Option Nat := none
  letter : Nat
  deriving Repr

/-- The values for a template: a list, of which the first ones may be used up, or named values, of
which one may be selected. -/
inductive Values
  | list (rest : List Json)
  | named (members : List (Text × Json)) (selected : Option Json)

namespace Values

/-- The values that a message is given: one object that is not empty gives named values. -/
def ofArguments : List Json → Values
  | [.obj (m :: ms)] => .named (m :: ms) (some (.obj (m :: ms)))
  | args => .list args

/-- The next value. -/
def next : Values → Option (Json × Values)
  | .list (v :: rest) => some (v, .list rest)
  | .named members (some v) => some (v, .named members none)
  | _ => none

/-- Selects a named value. -/
def select (key : Text) : Values → Option Values
  | .named members _ => (Json.member? key members).map fun v => .named members (some v)
  | .list _ => none

/-- Nothing is left over. -/
def areUsed : Values → Bool
  | .list rest => rest.isEmpty
  | .named .. => true

end Values

/-! ### Reading places -/

/-- The key at the start of a place, up to its closing parenthesis;
parentheses in it are in pairs. -/
def readKey (depth : Nat) (done : Text) : Text → Option (Text × Text)
  | [] => none
  | c :: rest =>
    if c = cp ')' then
      match depth with
      | 0 => some (done.reverse, rest)
      | depth + 1 => readKey depth (c :: done) rest
    else readKey (if c = cp '(' then depth + 1 else depth) (c :: done) rest

/-- The flags of a place. -/
def readFlags (p : Place) : Text → Place × Text
  | [] => (p, [])
  | c :: rest =>
    if c = cp '-' then readFlags { p with left := true } rest
    else if c = cp '+' then readFlags { p with plus := true } rest
    else if c = cp ' ' then readFlags { p with blank := true } rest
    else if c = cp '#' then readFlags { p with alternate := true } rest
    else if c = cp '0' then readFlags { p with zero := true } rest
    else (p, c :: rest)

/-- The largest width and the largest precision. -/
def maxSize : Nat := 0x7fffffff

/-- A number in a place, written out or a star for the next value, whatever its size. -/
def readAnySize (vs : Values) (t : Text) : Option (Int × Values × Text) :=
  match t with
  | 42 :: rest =>
    match vs.next with
    | some (.int n, vs) => some (n, vs, rest)
    | some (.bool b, vs) => some (if b then 1 else 0, vs, rest)
    | _ => none
  | _ =>
    let digits := t.takeWhile Text.isAsciiDigit
    some (Text.toNat digits, vs, t.drop digits.length)

/-- A number in a place. -/
def readSize (vs : Values) (t : Text) : Option (Int × Values × Text) :=
  (readAnySize vs t).filter fun r => r.1.natAbs ≤ maxSize

/-- A place, after its percent sign. -/
def readPlace (vs : Values) (t : Text) : Option (Place × Values × Text) := do
  let (key, t) ← match t with
    | 40 :: rest => (readKey 0 [] rest).map fun (k, r) => (some k, r)
    | t => some (none, t)
  let vs ← match key with
    | some k => vs.select k
    | none => some vs
  let (p, t) := readFlags { key, letter := 0 } t
  let (width, vs, t) ← readSize vs t
  let p := { p with width := width.natAbs, left := p.left || width < 0 }
  let (precision, vs, t) ← match t with
    | 46 :: rest => (readSize vs rest).map fun (n, vs, r) => (some n.toNat, vs, r)
    | t => some (none, vs, t)
  let t := if [cp 'h', cp 'l', cp 'L'].contains (t.headD 0) then t.drop 1 else t
  match t with
  | letter :: rest => some ({ p with precision, letter }, vs, rest)
  | [] => none

/-! ### Writing values -/

/-- The text with blanks up to the width of the place. -/
def padText (p : Place) (t : Text) : Text :=
  let blanks := List.replicate (p.width - t.length) 32
  if p.left then t ++ blanks else blanks ++ t

/-- A number with its sign and what stands before its digits, up to the width of the place. -/
def padNumber (p : Place) (negative : Bool) (mark digits : Text) : Text :=
  let sign :=
    if negative then [cp '-'] else if p.plus then [cp '+'] else if p.blank then [cp ' '] else []
  let size := sign.length + mark.length + digits.length
  if p.zero && !p.left then sign ++ mark ++ List.replicate (p.width - size) 48 ++ digits
  else padText p (sign ++ mark ++ digits)

/-- The letters of digits in upper case, if the letter of the place is. -/
def inCaseOf (p : Place) (t : Text) : Text := if p.letter < 97 then Text.upperAscii t else t

/-- A whole number. -/
def writeWhole (p : Place) (base : Nat) (mark : Text) (i : Int) : Text :=
  let digits := Binary64.padZeros (p.precision.getD 0) (Text.digitsRev base i.natAbs).reverse
  padNumber p (i < 0) (inCaseOf p (if p.alternate then mark else [])) (inCaseOf p digits)

/-- A whole number for a place in base ten: a fraction is cut off. -/
def wholeOf : Json → Option Int
  | .int i => some i
  | .bool b => some (if b then 1 else 0)
  | .real x => x.toRat?.map fun _ => x.truncate
  | _ => none

/-- A whole number for a place in another base. -/
def indexOf : Json → Option Int
  | .int i => some i
  | .bool b => some (if b then 1 else 0)
  | _ => none

/-- A number for a place with a fraction. -/
def realOf : Json → Option Binary64
  | .int i => match Binary64.ofInt i with
    | .infinity _ => none
    | x => some x
  | .bool b => some (.ofInt (if b then 1 else 0))
  | .real x => some x
  | _ => none

/-- A number with a fraction. -/
def writeReal (p : Place) (x : Binary64) : Text :=
  let places := p.precision.getD 6
  match x with
  | .nan => padNumber p false [] (inCaseOf p (text "nan"))
  | .infinity negative => padNumber p negative [] (inCaseOf p (text "inf"))
  | .finite negative m e =>
    let q := m * Binary64.pow2 e
    let letter := Text.lowerAsciiPoint p.letter
    padNumber p negative [] (inCaseOf p
      (if letter = cp 'f' then Binary64.fixed places p.alternate q
      else if letter = cp 'e' then Binary64.exponential places p.alternate q
      else Binary64.general places p.alternate q))

/-- The text with every character beyond ASCII escaped. -/
def asciiOnly (t : Text) : Text :=
  t.flatMap fun c =>
    if c < 0x80 then [c]
    else if c < 0x100 then text "\\x" ++ Text.ofHex 2 c
    else if c < 0x10000 then text "\\u" ++ Text.ofHex 4 c
    else text "\\U" ++ Text.ofHex 8 c

/-- A text, cut to the precision of the place. -/
def writeText (p : Place) (t : Text) : Text :=
  padText p (match p.precision with
    | some n => t.take n
    | none => t)

/-- A single character. -/
def writePoint (p : Place) : Json → Option Text
  | .int i => if 0 ≤ i && i < 0x110000 then some (padText p [i.toNat]) else none
  | .bool b => some (padText p [if b then 1 else 0])
  | .str [c] => some (padText p [c])
  | _ => none

/-- A value in its place. -/
def writeValue (p : Place) (v : Json) : Option Text :=
  match Char.ofNat p.letter with
  | 's' => some (writeText p v.plain)
  | 'r' => some (writeText p v.shown)
  | 'a' => some (writeText p (asciiOnly v.shown))
  | 'c' => writePoint p v
  | 'd' | 'i' | 'u' => (wholeOf v).map (writeWhole p 10 [])
  | 'o' => (indexOf v).map (writeWhole p 8 (text "0o"))
  | 'x' | 'X' => (indexOf v).map (writeWhole p 16 (text "0x"))
  | 'e' | 'E' | 'f' | 'F' | 'g' | 'G' => (realOf v).map (writeReal p)
  | _ => none

/-! ### Filling -/

/-- Fills the places of a template. -/
def fillFrom (fuel : Nat) (vs : Values) (t : Text) : Option Text :=
  match fuel, t with
  | _, [] => if vs.areUsed then some [] else none
  | 0, _ => none
  | fuel + 1, 37 :: rest => do
    let (p, vs, rest) ← readPlace vs rest
    if p.letter = 37 then return 37 :: (← fillFrom fuel vs rest)
    else
      let (v, vs) ← vs.next
      return (← writeValue p v) ++ (← fillFrom fuel vs rest)
  | fuel + 1, c :: rest => (fillFrom fuel vs rest).map (c :: ·)

/-- The message of a template with its values; without any values the template is the message. -/
def fill (t : Text) (args : List Json) : Option Text :=
  if args.isEmpty then some t else fillFrom (t.length + 1) (.ofArguments args) t

end ChatCommands.Template
