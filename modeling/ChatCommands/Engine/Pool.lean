import ChatCommands.World

/-!
The pool of runtimes: one for each supported language, with a bound on the runs at one time.

A run takes a slot and gives it back however it ends.  Waiting for a slot is not part of the run.
-/

namespace ChatCommands.Engine

open Concurrency

/-- Runs a script with its bindings under a timeout. -/
abbrev Runner (ω : Type) : Type :=
  (code : Text) → (bindings : Json) → (timeout : Binary64) → Action ω RunResult

/-- The runtimes by language. -/
abbrev Runtimes (ω : Type) : Type := List (Language × Runner ω)

variable {ω : Type}

/-- The slots of the shared state. -/
def slotPlace : Semaphore.Place (World ω) :=
  ⟨(·.slots), fun s w => { w with slots := s }⟩

/-- No runtime is registered for a language. -/
def unsupported (l : Language) : Fault where
  kind := .unsupportedLanguage
  message := text "No runtime registered for " ++ text l.name
  context := [(text "language", .str (text l.name))]

/-- Changes the number of active runs. -/
def changeActive (f : Nat → Nat) : Action ω Unit :=
  Act.modify fun w => { w with active := f w.active }

/-- Runs a script with a slot held. -/
def withSlot (run : Action ω RunResult) : Action ω RunResult := do
  slotPlace.acquire
  changeActive (· + 1)
  let r ← Act.attempt run
  changeActive (· - 1)
  slotPlace.release
  Act.ofEnding r

/-- Runs a script in the runtime of its language once a slot is free. -/
def execute (rs : Runtimes ω) (l : Language) (code : Text) (bindings : Json) (timeout : Binary64) :
    Action ω RunResult :=
  match rs.lookup l with
  | some run => withSlot (run code bindings timeout)
  | none => Act.throw (unsupported l)

end ChatCommands.Engine
