import ChatCommands.World

/-!
Delivery with a bounded number of attempts.

An attempt has a time limit of its own.  Only transient faults and timeouts are tried again, after a
pause; the last fault is passed on.
-/

namespace ChatCommands.Delivery

open Concurrency

/-- How often a delivery is attempted. -/
def defaultAttempts : Int := 3

/-- The pause between two attempts, in seconds. -/
def pause : Rat := mkRat 1 2

/-- The record about an attempt that will be repeated. -/
def retryRecord (f : Fault) : LogRecord :=
  ⟨.warning, .audit, text "Retrying <unknown> in 0.5 seconds as it raised " ++ text f.kind.name ++
    text ": " ++ f.wording ++ text ".", []⟩

/-- Attempts with `more` repetitions left. -/
def attempts {ω α : Type} (timeout : Option Rat) (call : Action ω α) : (more : Nat) → Action ω α
  | 0 => Act.within timeout call
  | more + 1 =>
    Act.recover (Act.within timeout call) fun f => do
      if f.kind.isRetryable then
        Action.logAll [retryRecord f]
        Act.sleep (some pause)
        attempts timeout call more
      else Act.throw f

/-- Makes the call with at most `count` attempts, but always once. -/
def withRetries {ω α : Type} (timeout : Option Rat) (count : Int) (call : Action ω α) :
    Action ω α :=
  attempts timeout call (count - 1).toNat

end ChatCommands.Delivery
