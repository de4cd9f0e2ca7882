import ChatCommands.Cooldown.Table
import ChatCommands.Number.Binary64
import ChatCommands.Run

/-!
The cooldown limiter: at most one run of a command by an author in each cooldown window.

A run is first reserved, which is refused while another run of the same key is in flight or while
the last fire is too recent.  A reservation is then either committed, which records a fire at the
time of the reservation, or released.  Entries that have been idle for long enough are pruned; a key
without an entry has never fired as far as the limiter knows.
-/

namespace ChatCommands.Cooldown

/-- The time from `b` to `a`.  Times are floating-point numbers, and so is their difference; whole
numbers of milliseconds that are too long for that are subtracted exactly. -/
def elapsed (a b : Rat) : Rat :=
  if Binary64.snap a = a ∧ Binary64.snap b = b then Binary64.snap (a - b)
  else if a.den = 1 ∧ b.den = 1 then a - b
  else Binary64.snap (Binary64.snap a - Binary64.snap b)

/-- What a limiter is set up with: the bound on the table, how many cooldown windows an idle entry
is kept, and how times are subtracted. -/
structure Settings where
  maxEntries : Int := 100000
  graceWindows : Int := 3
  gap : Rat → Rat → Rat := elapsed

/-- A permission to run, to be committed or released. -/
structure Reservation where
  key : Key
  cooldownMs : Int
  issued : Rat
  id : Nat
  deriving DecidableEq, Inhabited

/-- A limiter: its table and the number of reservations granted so far,
which numbers the next one. -/
structure Limiter where
  table : Table := []
  granted : Nat := 0
  deriving DecidableEq, Inhabited

namespace Limiter

/-- The integer part of a rational number. -/
def truncate (q : Rat) : Int := q.num.tdiv q.den

/-- The decision about a key with this entry. -/
def decisionOn (s : Settings) (entry : Option Entry) (cooldownMs : Int) (now : Rat) : Decision :=
  match entry with
  | none => ⟨true, 0⟩
  | some e =>
    if cooldownMs ≤ 0 then ⟨true, 0⟩
    else if e.pending.isSome then ⟨false, max cooldownMs 1⟩
    else
      match e.lastFire with
      | none => ⟨true, 0⟩
      | some last =>
        let gone := s.gap now last
        if gone < cooldownMs then ⟨false, truncate (s.gap cooldownMs gone)⟩ else ⟨true, 0⟩

/-- Whether a run would be allowed now. -/
def allow (s : Settings) (l : Limiter) (k : Key) (cooldownMs : Int) (now : Rat) : Decision :=
  decisionOn s (l.table.get? k) cooldownMs now

/-- Records a fire now. -/
def commit (s : Settings) (l : Limiter) (k : Key) (now : Rat) (cooldownMs : Int) : Limiter :=
  { l with table := l.table.touch s.maxEntries k ⟨some now, cooldownMs, none, now⟩ }

/-- Asks for a run.  A command without a cooldown is always granted one and leaves no trace. -/
def reserve (s : Settings) (l : Limiter) (k : Key) (cooldownMs : Int) (now : Rat) :
    Limiter × Decision × Option Reservation :=
  if cooldownMs ≤ 0 then
    ({ l with granted := l.granted + 1 }, ⟨true, 0⟩, some ⟨k, 0, now, l.granted⟩)
  else
    let entry := l.table.get? k
    let decision := decisionOn s entry cooldownMs now
    if decision.allowed then
      let e : Entry := { entry.getD {} with pending := some l.granted, cooldownMs, touched := now }
      (⟨l.table.touch s.maxEntries k e, l.granted + 1⟩, decision,
        some ⟨k, cooldownMs, now, l.granted⟩)
    else (l, decision, none)

/-- Another reservation of the key is in flight. -/
def superseded (l : Limiter) (r : Reservation) : Bool :=
  decide (0 < r.cooldownMs) &&
    (l.table.get? r.key).any fun e => e.pending.any (· ≠ r.id)

/-- Turns a reservation into a fire at the time at which it was issued, unless it is superseded. -/
def commitReservation (s : Settings) (l : Limiter) (r : Reservation) : Limiter :=
  if r.cooldownMs ≤ 0 then l
  else
    let fired : Entry := ⟨some r.issued, r.cooldownMs, none, r.issued⟩
    match l.table.get? r.key with
    | none => { l with table := l.table.insert s.maxEntries r.key fired }
    | some e =>
      if e.pending.any (· ≠ r.id) then l else { l with table := l.table.set r.key fired }

/-- Drops a reservation without recording a fire. -/
def release (l : Limiter) (r : Reservation) : Limiter :=
  match l.table.get? r.key with
  | none => l
  | some e =>
    if e.pending = some r.id then
      match e.lastFire with
      | none => { l with table := l.table.erase r.key }
      | some _ => { l with table := l.table.set r.key { e with pending := none } }
    else l

/-- An idle entry that has outlived its grace. -/
def isStale (s : Settings) (now : Rat) (e : Entry) : Bool :=
  e.isIdle && ((e.cooldownMs * s.graceWindows : Int) : Rat) ≤ s.gap now e.touched

/-- Removes the stale entries. -/
def prune (s : Settings) (l : Limiter) (now : Rat) : Limiter :=
  { l with table := l.table.filter fun p => !isStale s now p.2 }

/-- The number of entries that pruning removes. -/
def staleCount (s : Settings) (l : Limiter) (now : Rat) : Nat :=
  l.table.countP fun p => isStale s now p.2

/-- Forgets everything but the numbering of reservations. -/
def clear (l : Limiter) : Limiter := { l with table := [] }

end Limiter

end ChatCommands.Cooldown
