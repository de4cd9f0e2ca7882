import ChatCommands.Json.Basic

/-!
Reading JSON texts.

The reader goes from left to right and stops at the first problem, which it reports with its place.
Beyond the standard it accepts the names of the three non-finite numbers; of members with one name
the last one counts.
-/

namespace ChatCommands.Json

/-- What can be wrong with a JSON text. -/
inductive Problem
  | byteOrderMark
  | expectingValue
  | expectingName
  | expectingColon
  | expectingComma
  | extraData
  | unterminatedString
  | controlCharacter
  | invalidEscape
  | invalidUnicodeEscape
  | longNumeral (digits : Nat)
  deriving DecidableEq, Repr

/-- A problem and the index of the code point where it shows. -/
structure ReadError where
  problem : Problem
  place : Nat
  deriving DecidableEq, Repr

/-- The rest of a text and the index at which it begins. -/
structure Cursor where
  place : Nat
  rest : Text

namespace Cursor

/-- The cursor `n` code points further on. -/
def advance (s : Cursor) (n : Nat) : Cursor := ⟨s.place + n, s.rest.drop n⟩

/-- White space between tokens. -/
def isSpace (c : Nat) : Bool := c = 32 || c = 9 || c = 10 || c = 13

/-- The cursor after white space. -/
def skipSpace (s : Cursor) : Cursor := s.advance (s.rest.takeWhile isSpace).length

/-- The next code point, if any. -/
def head? (s : Cursor) : Option Nat := s.rest.head?

/-- Fails at this place. -/
def fail {α : Type} (s : Cursor) (p : Problem) : Except ReadError α := .error ⟨p, s.place⟩

end Cursor

/-- The value of a hexadecimal digit. -/
def hexDigit? (c : Nat) : Option Nat :=
  if 48 ≤ c && c ≤ 57 then some (c - 48)
  else if 97 ≤ c && c ≤ 102 then some (c - 87)
  else if 65 ≤ c && c ≤ 70 then some (c - 55)
  else none

/-- The value of four hexadecimal digits. -/
def hex4? : Text → Option Nat
  | [a, b, c, d] => do
    let a ← hexDigit? a
    let b ← hexDigit? b
    let c ← hexDigit? c
    let d ← hexDigit? d
    pure (((a * 16 + b) * 16 + c) * 16 + d)
  | _ => none

/-- The character of an escape of one letter. -/
def simpleEscape? (c : Nat) : Option Nat :=
  if c = 34 || c = 92 || c = 47 then some c
  else if c = 98 then some 8
  else if c = 102 then some 12
  else if c = 110 then some 10
  else if c = 114 then some 13
  else if c = 116 then some 9
  else none

/-- The first surrogate of a pair. -/
def isHighSurrogate (c : Nat) : Bool := 0xD800 ≤ c && c ≤ 0xDBFF

/-- The second surrogate of a pair. -/
def isLowSurrogate (c : Nat) : Bool := 0xDC00 ≤ c && c ≤ 0xDFFF

/-- The escape that begins with the four hexadecimal digits at the cursor, which stands after the
letter `u`: its code point and its length.  A pair of surrogates makes one code point.  The string
must go on after the digits. -/
def unicodeEscape? (s : Cursor) : Except ReadError (Nat × Nat) :=
  if s.rest.length < 5 then .error ⟨.invalidUnicodeEscape, s.place - 1⟩
  else
    match hex4? (s.rest.take 4) with
    | none => .error ⟨.invalidUnicodeEscape, s.place - 1⟩
    | some high =>
      if isHighSurrogate high && 11 ≤ s.rest.length && s.rest[4]? == some 92 &&
          s.rest[5]? == some 117 then
        match hex4? ((s.rest.drop 6).take 4) with
        | none => .error ⟨.invalidUnicodeEscape, s.place + 5⟩
        | some low =>
          if isLowSurrogate low then
            .ok (0x10000 + (high - 0xD800) * 0x400 + (low - 0xDC00), 10)
          else .ok (high, 4)
      else .ok (high, 4)

/-- Reads the rest of a string that began at `start`; `done` holds what was read, latest first. -/
def readString (start : Nat) (fuel : Nat) (done : Text) (s : Cursor) :
    Except ReadError (Text × Cursor) :=
  match fuel with
  | 0 => .error ⟨.unterminatedString, start⟩
  | fuel + 1 =>
    match s.rest with
    | [] => .error ⟨.unterminatedString, start⟩
    | 34 :: _ => .ok (done.reverse, s.advance 1)
    | 92 :: [] => .error ⟨.unterminatedString, start⟩
    | 92 :: 117 :: _ => do
      let (c, n) ← unicodeEscape? (s.advance 2)
      readString start fuel (c :: done) (s.advance (2 + n))
    | 92 :: e :: _ =>
      match simpleEscape? e with
      | some c => readString start fuel (c :: done) (s.advance 2)
      | none => s.fail .invalidEscape
    | c :: _ =>
      if c < 32 then s.fail .controlCharacter
      else readString start fuel (c :: done) (s.advance 1)

/-- Reads a numeral at the cursor.  A fraction needs a digit after its point and an exponent a
digit of its own; what has none is left for the reader to stumble over. -/
def readNumber (s : Cursor) : Except ReadError (Json × Cursor) :=
  let (negative, t) := match s.rest with
    | 45 :: r => (true, r)
    | r => (false, r)
  let whole := match t with
    | 48 :: _ => [48]
    | _ => t.takeWhile Text.isAsciiDigit
  if whole.isEmpty then s.fail .expectingValue
  else
    let t := t.drop whole.length
    let fraction := match t with
      | 46 :: r => r.takeWhile Text.isAsciiDigit
      | _ => []
    let fractionLength := if fraction.isEmpty then 0 else fraction.length + 1
    let t := t.drop fractionLength
    let (exponent, exponentLength) : Option Int × Nat := match t with
      | e :: r =>
        if e = 101 || e = 69 then
          let (sign, signLength, r) := match r with
            | 45 :: r => (true, 1, r)
            | 43 :: r => (false, 1, r)
            | r => (false, 0, r)
          let ds := r.takeWhile Text.isAsciiDigit
          if ds.isEmpty then (none, 0)
          else
            let n : Int := Text.toNat ds
            (some (if sign then -n else n), 1 + signLength + ds.length)
        else (none, 0)
      | [] => (none, 0)
    let length := (if negative then 1 else 0) + whole.length + fractionLength + exponentLength
    let after := s.advance length
    if fraction.isEmpty && exponent.isNone then
      if maxDigits < whole.length then s.fail (.longNumeral whole.length)
      else
        let n : Int := Text.toNat whole
        .ok (.int (if negative then -n else n), after)
    else
      let digits := Text.toNat (whole ++ fraction)
      .ok (.real (.ofDecimal negative digits (exponent.getD 0 - fraction.length)), after)

/-- The names that stand for values. -/
def names : List (Text × Json) :=
  [(text "null", .null), (text "true", .bool true), (text "false", .bool false),
    (text "NaN", .real .nan), (text "Infinity", .real (.infinity false)),
    (text "-Infinity", .real (.infinity true))]

/-- The value whose name stands at the cursor, with the length of the name. -/
def named? (t : Text) : Option (Json × Nat) :=
  (names.find? fun (n, _) => n.isPrefixOf t).map fun (n, v) => (v, n.length)

mutual

/-- Reads a value at the cursor. -/
def readValue (fuel : Nat) (s : Cursor) : Except ReadError (Json × Cursor) :=
  match fuel with
  | 0 => s.fail .expectingValue
  | fuel + 1 =>
    match s.rest with
    | [] => s.fail .expectingValue
    | 34 :: rest => do
      let (t, s') ← readString s.place (rest.length + 1) [] (s.advance 1)
      pure (.str t, s')
    | 123 :: _ =>
      let s' := (s.advance 1).skipSpace
      if s'.head? = some 125 then .ok (.obj [], s'.advance 1) else readMembers fuel [] s'
    | 91 :: _ =>
      let s' := (s.advance 1).skipSpace
      if s'.head? = some 93 then .ok (.arr [], s'.advance 1) else readItems fuel [] s'
    | _ =>
      match named? s.rest with
      | some (v, n) => .ok (v, s.advance n)
      | none => readNumber s

/-- Reads the items of an array from the first one on; `done` holds those read, latest first. -/
def readItems (fuel : Nat) (done : List Json) (s : Cursor) : Except ReadError (Json × Cursor) :=
  match fuel with
  | 0 => s.fail .expectingValue
  | fuel + 1 => do
    let (v, s) ← readValue fuel s
    let s := s.skipSpace
    if s.head? = some 93 then pure (.arr (v :: done).reverse, s.advance 1)
    else if s.head? = some 44 then readItems fuel (v :: done) (s.advance 1).skipSpace
    else s.fail .expectingComma

/-- Reads the members of an object from the first one on. -/
def readMembers (fuel : Nat) (done : List (Text × Json)) (s : Cursor) :
    Except ReadError (Json × Cursor) :=
  match fuel with
  | 0 => s.fail .expectingValue
  | fuel + 1 =>
    match s.rest with
    | 34 :: rest => do
      let (name, s) ← readString s.place (rest.length + 1) [] (s.advance 1)
      let s := s.skipSpace
      if s.head? = some 58 then
        let (v, s) ← readValue fuel (s.advance 1).skipSpace
        let s := s.skipSpace
        let done := setMember name v done
        if s.head? = some 125 then pure (.obj done, s.advance 1)
        else if s.head? = some 44 then readMembers fuel done (s.advance 1).skipSpace
        else s.fail .expectingComma
      else s.fail .expectingColon
    | _ => s.fail .expectingName

end

/-- Reads a whole JSON text. -/
def read (t : Text) : Except ReadError Json :=
  if t.head? = some 0xFEFF then .error ⟨.byteOrderMark, 0⟩
  else do
    let (v, s) ← readValue (2 * t.length + 2) (Cursor.mk 0 t).skipSpace
    let s := s.skipSpace
    if s.rest.isEmpty then pure v else s.fail .extraData

/-- The wording of a problem. -/
def Problem.message : Problem → Text
  | .byteOrderMark => text "Unexpected UTF-8 BOM (decode using utf-8-sig)"
  | .expectingValue => text "Expecting value"
  | .expectingName => text "Expecting property name enclosed in double quotes"
  | .expectingColon => text "Expecting ':' delimiter"
  | .expectingComma => text "Expecting ',' delimiter"
  | .extraData => text "Extra data"
  | .unterminatedString => text "Unterminated string starting at"
  | .controlCharacter => text "Invalid control character at"
  | .invalidEscape => text "Invalid \\escape"
  | .invalidUnicodeEscape => text "Invalid \\uXXXX escape"
  | .longNumeral n =>
    text "Exceeds the limit (" ++ Text.ofNat maxDigits ++
      text " digits) for integer string conversion: value has " ++ Text.ofNat n ++
      text " digits; use sys.set_int_max_str_digits() to increase the limit"

/-- The wording of an error in the text `t`: the problem with its line, column and index.  Only line
feeds end a line. -/
def ReadError.message (e : ReadError) (t : Text) : Text :=
  match e.problem with
  | .longNumeral _ => e.problem.message
  | p =>
    let before := t.take e.place
    let line := before.count 10 + 1
    let column := (before.reverse.takeWhile (· != 10)).length + 1
    p.message ++ text ": line " ++ Text.ofNat line ++ text " column " ++ Text.ofNat column ++
      text " (char " ++ Text.ofNat e.place ++ text ")"

end ChatCommands.Json
