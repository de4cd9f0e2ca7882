import ChatCommands.Concurrency.Task

/-!
Semaphores: a number of slots, and the tasks that wait for one in the order in which they came.

A released slot goes to the first waiting task that has neither been given one nor been interrupted.
-/

namespace ChatCommands.Concurrency

/-- Free slots, and the signals of those who wait. -/
structure Semaphore where
  free : Int
  waiting : List Nat := []
  deriving DecidableEq, Repr, Inhabited

/-- A semaphore with a number of free slots, which must not be negative. -/
def Semaphore.ofSlots? (n : Int) : Except Fault Semaphore :=
  if n < 0 then .error (.of .value (text "Semaphore initial value must be >= 0"))
  else .ok { free := n }

/-- A place in the shared state that holds a semaphore. -/
structure Semaphore.Place (σ : Type) where
  get : σ → Semaphore
  set : Semaphore → σ → σ

namespace Semaphore.Place

variable {σ ν : Type} (p : Semaphore.Place σ)

/-- Changes the semaphore. -/
def modify (f : Semaphore → Semaphore) : Act σ ν Unit := .modify fun s => p.set (f (p.get s)) s

/-- One of the signals has not been interrupted. -/
def anyLive : List Nat → Act σ ν Bool
  | [] => pure false
  | w :: rest => do
    if (← Act.call (.status w)).isInterrupted then anyLive rest else pure true

/-- The first of the signals to which nothing has happened. -/
def firstPending : List Nat → Act σ ν (Option Nat)
  | [] => pure none
  | w :: rest => do
    if (← Act.call (.status w)).isDone then firstPending rest else pure (some w)

/-- Gives a free slot to the first who waits. -/
def wakeNext : Act σ ν Unit := do
  match ← firstPending (← Act.gets fun s => (p.get s).waiting) with
  | some w =>
    p.modify fun s => { s with free := s.free - 1 }
    Act.call (.fire w)
  | none => pure ()

/-- Returns a slot. -/
def release : Act σ ν Unit := do
  p.modify fun s => { s with free := s.free + 1 }
  p.wakeNext

/-- Takes a slot, and waits for one if none is free or others wait already. -/
def acquire : Act σ ν Unit := do
  let s ← Act.gets p.get
  if s.free = 0 || (← anyLive s.waiting) then
    let w ← Act.newSignal
    p.modify fun s => { s with waiting := s.waiting ++ [w] }
    let r ← Act.attempt (Act.wait (.cell w))
    p.modify fun s => { s with waiting := s.waiting.erase w }
    match r with
    | .ok () =>
      if 0 < (← Act.gets p.get).free then p.wakeNext
    | .error e =>
      if !(← Act.call (.status w)).isInterrupted then p.release
      Act.fail e
  else p.modify fun s => { s with free := s.free - 1 }

end Semaphore.Place

end ChatCommands.Concurrency
