import ChatCommands.Json.Basic
import ChatCommands.Number.Shortest

/-!
JSON texts.

What is written is ASCII: every other character of a string, and every control character, is
escaped, a character above U+FFFF as a surrogate pair.  A layout fixes the separators and, for the
layout over several lines, the indentation.
-/

namespace ChatCommands.Json

/-- The separators of a written text; with an indentation every item has a line of its own. -/
structure Layout where
  comma : Text
  colon : Text
  indent : Option Nat

/-- Items follow a comma and a blank. -/
def Layout.spaced : Layout := ⟨text ", ", text ": ", none⟩

/-- No blanks. -/
def Layout.compact : Layout := ⟨text ",", text ":", none⟩

/-- Items on lines of their own, indented by two blanks a level. -/
def Layout.indented : Layout := ⟨text ",", text ": ", some 2⟩

/-- The escape of a code point below U+10000. -/
def unicodeEscape (c : Nat) : Text := text "\\u" ++ Text.ofHex 4 c

/-- One code point of a string. -/
def escapePoint (c : Nat) : Text :=
  if c = 34 then text "\\\""
  else if c = 92 then text "\\\\"
  else if c = 10 then text "\\n"
  else if c = 13 then text "\\r"
  else if c = 9 then text "\\t"
  else if c = 12 then text "\\f"
  else if c = 8 then text "\\b"
  else if 32 ≤ c && c ≤ 126 then [c]
  else if c < 0x10000 then unicodeEscape c
  else
    let v := c - 0x10000
    unicodeEscape (0xD800 + v / 0x400) ++ unicodeEscape (0xDC00 + v % 0x400)

/-- A string in quotes. -/
def writeString (t : Text) : Text := 34 :: t.flatMap escapePoint ++ [34]

/-- A numeral with a fraction or an exponent, or one of the three names of non-finite numbers. -/
def writeReal : Binary64 → Text
  | .nan => text "NaN"
  | .infinity false => text "Infinity"
  | .infinity true => text "-Infinity"
  | x => x.render

/-- A line break and the indentation of the level, if the layout has them. -/
def Layout.newline (l : Layout) (level : Nat) : Text :=
  match l.indent with
  | none => []
  | some n => 10 :: List.replicate (n * level) 32

/-- The written items between brackets. -/
def bracketed (l : Layout) (level : Nat) (opening closing : Nat) (items : List Text) : Text :=
  match items with
  | [] => [opening, closing]
  | items =>
    opening :: l.newline (level + 1) ++ Text.join (l.comma ++ l.newline (level + 1)) items ++
      l.newline level ++ [closing]

mutual

/-- The text of a value at a level of nesting. -/
def writeAt (l : Layout) (level : Nat) : Json → Text
  | .null => text "null"
  | .bool true => text "true"
  | .bool false => text "false"
  | .int i => Text.ofInt i
  | .real x => writeReal x
  | .str t => writeString t
  | .arr items => bracketed l level 91 93 (writeItems l (level + 1) items)
  | .obj members => bracketed l level 123 125 (writeMembers l (level + 1) members)

/-- The texts of the items of an array. -/
def writeItems (l : Layout) (level : Nat) : List Json → List Text
  | [] => []
  | v :: rest => writeAt l level v :: writeItems l level rest

/-- The texts of the members of an object. -/
def writeMembers (l : Layout) (level : Nat) : List (Text × Json) → List Text
  | [] => []
  | (n, v) :: rest =>
    (writeString n ++ l.colon ++ writeAt l level v) :: writeMembers l level rest

end

/-- The text of a value. -/
def write (l : Layout) (v : Json) : Text := writeAt l 0 v

end ChatCommands.Json
