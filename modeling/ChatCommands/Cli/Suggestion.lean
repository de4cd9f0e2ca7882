import ChatCommands.Text.Basic

/-!
Suggestions: which of the known words a mistyped one comes close to.

Two words are as alike as the share of their letters that match.  Letters match in blocks: the
longest block that both words have in common, and in turn the blocks on either side of it.
-/

namespace ChatCommands.Cli

/-- The length of the common start of two words. -/
def commonStart : Text → Text → Nat
  | a :: as, b :: bs => if a = b then commonStart as bs + 1 else 0
  | _, _ => 0

/-- A block that two words have in common: where it starts in either word, and its length. -/
structure Block where
  left : Nat := 0
  right : Nat := 0
  length : Nat := 0
  deriving DecidableEq, Repr

/-- The longest common block, the first one of several. -/
def longestBlock (a b : Text) : Block := inLeft 0 a {}
where
  /-- The better one of a block and those that start at `i` in the left word and within the right
  one. -/
  inRight (i : Nat) (tail : Text) (j : Nat) (best : Block) : Text → Block
    | [] => best
    | c :: cs =>
      let n := commonStart tail (c :: cs)
      inRight i tail (j + 1) (if best.length < n then ⟨i, j, n⟩ else best) cs
  /-- The better one of a block and those that start within the left word. -/
  inLeft (i : Nat) : Text → Block → Block
    | [], best => best
    | c :: cs, best => inLeft (i + 1) cs (inRight i (c :: cs) 0 best b)

/-- How many letters of two words match. -/
def matchingLetters : (fuel : Nat) → Text → Text → Nat
  | 0, _, _ => 0
  | fuel + 1, a, b =>
    let m := longestBlock a b
    if m.length = 0 then 0
    else m.length + matchingLetters fuel (a.take m.left) (b.take m.right) +
      matchingLetters fuel (a.drop (m.left + m.length)) (b.drop (m.right + m.length))

/-- How much two words are alike, from 0 to 1. -/
def likeness (a b : Text) : Rat :=
  if a.length + b.length = 0 then 1
  else (2 * matchingLetters a.length a b : Nat) / (a.length + b.length : Nat)

/-- How much a suggestion is like the mistyped word at least. -/
def leastLikeness : Rat := 3 / 5

/-- The most suggestions. -/
def maxSuggestions : Nat := 3

/-- The known words that come close to a mistyped one: the closest few, in ascending order. -/
def suggestions (known : List Text) (word : Text) : List Text :=
  let close := (known.map fun k => (likeness k word, k)).filter fun p => leastLikeness ≤ p.1
  let closest := close.mergeSort fun p q => q.1 < p.1 || (p.1 = q.1 && Text.le q.2 p.2)
  ((closest.take maxSuggestions).map (·.2)).mergeSort Text.le

/-- The suggestions as they follow a message. -/
def didYouMean (words : List Text) : Text :=
  match words with
  | [] => []
  | [w] => text " Did you mean " ++ w ++ text "?"
  | ws => text " (Possible options: " ++ Text.join (text ", ") ws ++ text ")"

end ChatCommands.Cli
