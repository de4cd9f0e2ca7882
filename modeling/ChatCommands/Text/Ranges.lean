import ChatCommands.Text.Basic

/-!
Sets of code points as ascending lists of closed ranges.
-/

namespace ChatCommands.Text

/-- Ascending, disjoint, closed ranges of code points. -/
abbrev Ranges := List (Nat × Nat)

/-- `c` lies in one of the ranges; the search ends at the first range that starts above `c`. -/
def Ranges.has : Ranges → Nat → Bool
  | [], _ => false
  | (lo, hi) :: rest, c => if c < lo then false else c ≤ hi || has rest c

end ChatCommands.Text
