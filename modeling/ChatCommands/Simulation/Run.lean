import ChatCommands.Concurrency.Scheduler
import ChatCommands.World

/-!
Running a computation on the virtual clock.
-/

namespace ChatCommands.Simulation

open Concurrency

/-- How a run ended: the value or the fault of the computation, the shared state, and the time. -/
structure Finished (ω : Type) where
  ending : Ending Json
  world : World ω
  clock : Rat

/-- The log records of a run, first one first. -/
def Finished.journal {ω : Type} (f : Finished ω) : List LogRecord := f.world.journal.reverse

/-- The report that a task has produced. -/
def reportOf : CellStatus Product → Ending Json
  | .ended (.ok (.report j)) => .ok j
  | .ended (.error f) => .error f
  | _ => .error .interrupted

/-- Runs a computation up to its end. -/
def run {ω : Type} (w : World ω) (x : Action ω Json) : Finished ω :=
  let k := Scheduler.run w (Act.toTask .report x)
  ⟨reportOf (k.statusOf 0), k.shared, k.clock⟩

end ChatCommands.Simulation
