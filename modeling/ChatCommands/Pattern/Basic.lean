import ChatCommands.Text.Blank
import ChatCommands.Text.Word

/-!
Search patterns over texts.

A pattern reads a stretch of text from one spot to another; `ends` lists the spots at which a
reading from a given spot can stop.  Only a set of code points is ever repeated, so that a
repetition is a walk along the text.  A pattern occurs in a text when some reading starts somewhere
in it.
-/

namespace ChatCommands

/-- A part of a set of code points. -/
inductive PointClass
  | point (c : Nat)
  | range (first last : Nat)
  | blank
  | word
  | digit
  | notNewline
  deriving DecidableEq, Repr

/-- The class holds the code point. -/
def PointClass.has : PointClass → Nat → Bool
  | .point d, c => c == d
  | .range first last, c => first ≤ c && c ≤ last
  | .blank, c => Text.isBlank c
  | .word, c => Text.isWord c
  | .digit, c => Text.isDigit c
  | .notNewline, c => c != 10

/-- A set of code points: the union of its classes. -/
abbrev PointSet := List PointClass

/-- The set holds the code point. -/
def PointSet.has (s : PointSet) (c : Nat) : Bool := s.any (·.has c)

/-- A pattern. -/
inductive Pattern
  | empty
  | one (s : PointSet)
  | many (s : PointSet)
  | lineStart
  | wordEdge
  | seq (a b : Pattern)
  | either (a b : Pattern)
  deriving Repr

/-- A place in a text: the code point before it, and the text after it. -/
structure Spot where
  before : Option Nat
  rest : Text
  deriving DecidableEq, Repr

namespace Spot

/-- A line begins here: at the start of the text and after each line feed. -/
def atLineStart (s : Spot) : Bool := s.before.isNone || s.before == some 10

/-- Exactly one of the neighbours is a word character. -/
def atWordEdge (s : Spot) : Bool := s.before.any Text.isWord != s.rest.head?.any Text.isWord

end Spot

namespace Pattern

/-- The spots along a run of code points of the set, the first spot included. -/
def along (s : PointSet) (before : Option Nat) : Text → List Spot
  | [] => [⟨before, []⟩]
  | c :: rest => ⟨before, c :: rest⟩ :: if s.has c then along s (some c) rest else []

/-- The spots at which a reading from `spot` can stop. -/
def ends : Pattern → Spot → List Spot
  | .empty, spot => [spot]
  | .one s, ⟨_, c :: rest⟩ => if s.has c then [⟨some c, rest⟩] else []
  | .one _, ⟨_, []⟩ => []
  | .many s, ⟨before, rest⟩ => along s before rest
  | .lineStart, spot => if spot.atLineStart then [spot] else []
  | .wordEdge, spot => if spot.atWordEdge then [spot] else []
  | .seq a b, spot => (ends a spot).flatMap (ends b)
  | .either a b, spot => ends a spot ++ ends b spot

/-- The pattern can be read from the spot. -/
def readsAt (p : Pattern) (spot : Spot) : Bool := !(p.ends spot).isEmpty

/-- The pattern can be read from some spot at or after the given one. -/
def occursFrom (p : Pattern) (before : Option Nat) : Text → Bool
  | [] => p.readsAt ⟨before, []⟩
  | c :: rest => p.readsAt ⟨before, c :: rest⟩ || occursFrom p (some c) rest

/-- The pattern occurs in the text. -/
def occursIn (p : Pattern) (t : Text) : Bool := p.occursFrom none t

/-- The pattern that reads a text literally. -/
def literal (t : Text) : Pattern := t.foldr (fun c p => .seq (.one [.point c]) p) .empty

end Pattern

end ChatCommands
