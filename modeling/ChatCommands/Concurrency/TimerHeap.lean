import ChatCommands.Text.Basic

/-!
A priority queue of timers by due time.

The queue is a binary heap in an array.  Timers of the same due time leave it in an order that
depends on the layout of the heap, so the two ways of moving an item are fixed here: a new item
rises while it is due before its parent; after a removal the last item replaces the first, sinks to
a leaf past the earlier of its children, the right one of two equals, and rises again from there.
-/

namespace ChatCommands.Concurrency

/-- Timers with their due times, as a heap. -/
abbrev TimerHeap := Array (Rat × Nat)

namespace TimerHeap

/-- The due time of the item at an index. -/
def due (h : TimerHeap) (i : Nat) : Rat := (h[i]?.map (·.1)).getD 0

/-- Moves the item at `i` towards the root while it is due before its parent. -/
def rise (h : TimerHeap) (i : Nat) : TimerHeap :=
  if _ : 0 < i then
    let parent := (i - 1) / 2
    if h.due i < h.due parent then rise (h.swapIfInBounds i parent) parent else h
  else h
termination_by i

/-- The child of `i` past which an item sinks, if `i` has children. -/
def sinkChild? (h : TimerHeap) (i : Nat) : Option Nat :=
  let left := 2 * i + 1
  if left < h.size then
    if left + 1 < h.size && !(h.due left < h.due (left + 1)) then some (left + 1) else some left
  else none

/-- Moves the item at `i` down to a leaf; the result has the index of the leaf. -/
def sink (h : TimerHeap) (i : Nat) : (fuel : Nat) → TimerHeap × Nat
  | 0 => (h, i)
  | fuel + 1 =>
    match h.sinkChild? i with
    | some child => sink (h.swapIfInBounds i child) child fuel
    | none => (h, i)

/-- Moves the item at `i` to its place in the heap below `i`. -/
def settle (h : TimerHeap) (i : Nat) : TimerHeap :=
  let (sunk, leaf) := h.sink i h.size
  riseTo i sunk leaf
where
  /-- Moves an item towards the root, but not above the index `top`. -/
  riseTo (top : Nat) (h : TimerHeap) (i : Nat) : TimerHeap :=
    if _ : top < i then
      let parent := (i - 1) / 2
      if h.due i < h.due parent then riseTo top (h.swapIfInBounds i parent) parent else h
    else h
  termination_by i

/-- Adds a timer. -/
def push (h : TimerHeap) (time : Rat) (timer : Nat) : TimerHeap :=
  rise (Array.push h (time, timer)) h.size

/-- The first timer with its due time. -/
def first? (h : TimerHeap) : Option (Rat × Nat) := h[0]?

/-- The heap without its first timer. -/
def removeFirst (h : TimerHeap) : TimerHeap :=
  match h.back? with
  | none => h
  | some last =>
    let rest : TimerHeap := h.pop
    if rest.isEmpty then rest else settle (rest.setIfInBounds 0 last) 0

/-- The heap of timers in any order. -/
def ofArray (items : TimerHeap) : TimerHeap :=
  (List.range (items.size / 2)).reverse.foldl settle items

end TimerHeap

end ChatCommands.Concurrency
