import ChatCommands.Text.Basic

/-!
The table of cooldowns: what is known of each author and command, least recently touched first.

A table is a list of entries by key in which no key occurs twice.  Order matters, for room is made
by removing the entries at the front; an entry with a run in flight is never removed that way.
-/

namespace ChatCommands.Cooldown

/-- An author and a command. -/
structure Key where
  author : Text
  command : Text
  deriving DecidableEq, Repr, Inhabited

/-- What is known of a key: when it last fired, with which cooldown, the reservation in flight, and
when the entry was last touched.  Times are in milliseconds. -/
structure Entry where
  lastFire : Option Rat := none
  cooldownMs : Int := 0
  pending : Option Nat := none
  touched : Rat := 0
  deriving DecidableEq, Inhabited

/-- No run is in flight. -/
def Entry.isIdle (e : Entry) : Bool := e.pending.isNone

/-- Entries by key, least recently touched first. -/
abbrev Table := List (Key × Entry)

namespace Table

/-- The entry of a key. -/
def get? (t : Table) (k : Key) : Option Entry := t.lookup k

/-- Replaces the entry of a key in its place. -/
def set (t : Table) (k : Key) (e : Entry) : Table :=
  t.map fun p => if p.1 = k then (k, e) else p

/-- Removes the entry of a key. -/
def erase (t : Table) (k : Key) : Table := t.filter fun p => p.1 ≠ k

/-- Removes the first `excess` idle entries other than the one of `keep`;
fewer if there are fewer. -/
def dropIdle (keep : Key) : (excess : Nat) → Table → Table
  | 0, t => t
  | _, [] => []
  | excess + 1, p :: rest =>
    if p.2.isIdle && p.1 ≠ keep then dropIdle keep excess rest
    else p :: dropIdle keep (excess + 1) rest

/-- Adds an entry under a new key at the end, and makes room for it. -/
def insert (maxEntries : Int) (t : Table) (k : Key) (e : Entry) : Table :=
  dropIdle k ((t.length + 1 : Int) - maxEntries).toNat (t ++ [(k, e)])

/-- Puts the entry of a key, known or new, at the end. -/
def touch (maxEntries : Int) (t : Table) (k : Key) (e : Entry) : Table :=
  match t.get? k with
  | some _ => t.erase k ++ [(k, e)]
  | none => t.insert maxEntries k e

end Table

end ChatCommands.Cooldown
