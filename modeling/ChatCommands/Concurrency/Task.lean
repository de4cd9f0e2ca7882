import ChatCommands.Fault.Basic

/-!
Programs of cooperating tasks.

A task works on a state that all tasks share.  It is a tree: each node is one primitive step, and
the answer of the step selects the subtree that comes next.  Between two `wait` nodes a task runs
without interruption, so that only what happens at a `wait` depends on the other tasks.  At a `wait`
a task may be interrupted: the step then answers with the failure `interrupted`.
-/

namespace ChatCommands.Concurrency

/-- Why a computation has no value: a fault, or an interruption from outside. -/
inductive Failure
  | fault (f : Fault)
  | interrupted
  deriving Inhabited

/-- How a computation ends. -/
abbrev Ending (α : Type) := Except Failure α

/-- The status of a cell: a signal, which is fired once, or a task, which ends. -/
inductive CellStatus (ν : Type)
  | pending
  | fired
  | ended (r : Ending ν)
  deriving Inhabited

/-- Something has happened to the cell. -/
def CellStatus.isDone {ν : Type} : CellStatus ν → Bool
  | .pending => false
  | _ => true

/-- The cell was interrupted. -/
def CellStatus.isInterrupted {ν : Type} : CellStatus ν → Bool
  | .ended (.error .interrupted) => true
  | _ => false

/-- The primitive steps that need the scheduler but do not wait. -/
inductive Call (ν : Type)
  /-- The time. -/
  | now
  /-- A new signal that is fired by the `count`-th attempt to fire it.  Interrupting someone who
  waits for it interrupts the tasks `members` instead, if there are any. -/
  | newSignal (count : Nat) (members : List Nat)
  /-- Fires a signal. -/
  | fire (signal : Nat)
  /-- Ends a signal with a failure. -/
  | fail (signal : Nat) (f : Failure)
  /-- The status of a signal or a task. -/
  | status (cell : Nat)
  /-- A timer that fires a signal after a delay. -/
  | fireAfter (delay : Rat) (signal : Nat)
  /-- Drops a timer. -/
  | dropTimer (timer : Nat)
  /-- An alarm that interrupts the calling task after a delay. -/
  | setAlarm (delay : Rat)
  /-- Drops an alarm; true if it has rung and nothing else asked for the interruption. -/
  | dropAlarm (alarm : Nat)
  /-- Interrupts a task. -/
  | interrupt (task : Nat)
  /-- Takes a watch back. -/
  | unwatch (cell watch : Nat)

/-- The type of the answer to a primitive step. -/
def Call.Reply {ν : Type} : Call ν → Type
  | .now => Rat
  | .newSignal .. => Nat
  | .fire _ => Unit
  | .fail .. => Unit
  | .status _ => CellStatus ν
  | .fireAfter .. => Nat
  | .dropTimer _ => Unit
  | .setAlarm _ => Nat
  | .dropAlarm _ => Bool
  | .interrupt _ => Unit
  | .unwatch .. => Unit

/-- What a task may wait for: its next turn, or a cell. -/
inductive Awaited
  | turn
  | cell (c : Nat)
  deriving DecidableEq, Repr

/-- A program over the shared state `σ` that ends with a value of type `ν`. -/
inductive Task (σ ν : Type) : Type
  | finish (r : Ending ν)
  | look (next : σ → Task σ ν)
  | put (s : σ) (next : Task σ ν)
  | call (c : Call ν) (next : c.Reply → Task σ ν)
  /-- Starts a task; if it is to be repeated it starts over whenever it has ended with a value. -/
  | spawn (repeated : Bool) (body : Task σ ν) (next : Nat → Task σ ν)
  /-- Has a program without `wait` run once the cell is done. -/
  | watch (cell : Nat) (reaction : CellStatus ν → Task σ ν) (next : Nat → Task σ ν)
  | wait (what : Awaited) (next : Option Failure → Task σ ν)

/-- A computation of a value of type `α` as part of a task: the task, given what comes after. -/
def Act (σ ν α : Type) : Type := (Ending α → Task σ ν) → Task σ ν

namespace Act

variable {σ ν α β : Type}

/-- The computation that ends at once. -/
def ofEnding (r : Ending α) : Act σ ν α := fun k => k r

/-- One computation after another. -/
def bind (x : Act σ ν α) (f : α → Act σ ν β) : Act σ ν β := fun k =>
  x fun
    | .ok a => f a k
    | .error e => k (.error e)

instance : Monad (Act σ ν) where
  pure a := ofEnding (.ok a)
  bind := bind

/-- Fails. -/
def fail (f : Failure) : Act σ ν α := ofEnding (.error f)

/-- Fails with a fault. -/
def throw (f : Fault) : Act σ ν α := fail (.fault f)

/-- A computation whose fault is a failure. -/
def ofExcept : Except Fault α → Act σ ν α
  | .ok a => pure a
  | .error f => throw f

/-- The ending of a computation, as a value. -/
def attempt (x : Act σ ν α) : Act σ ν (Ending α) := fun k => x fun r => k (.ok r)

/-- The value of a computation, or what `handle` makes of its fault; an interruption passes. -/
def recover (x : Act σ ν α) (handle : Fault → Act σ ν α) : Act σ ν α := fun k =>
  x fun
    | .error (.fault f) => handle f k
    | r => k r

/-- Runs `last` however `x` ends. -/
def ensuring (x : Act σ ν α) (last : Act σ ν Unit) : Act σ ν α := do
  let r ← attempt x
  last
  ofEnding r

/-- A part of the shared state. -/
def gets (f : σ → α) : Act σ ν α := fun k => .look fun s => k (.ok (f s))

/-- Changes the shared state and returns a value. -/
def change (f : σ → α × σ) : Act σ ν α := fun k =>
  .look fun s => .put (f s).2 (k (.ok (f s).1))

/-- Changes the shared state. -/
def modify (f : σ → σ) : Act σ ν Unit := change fun s => ((), f s)

/-- A primitive step. -/
def call (c : Call ν) : Act σ ν c.Reply := fun k => .call c fun r => k (.ok r)

/-- Waits. -/
def wait (what : Awaited) : Act σ ν Unit := fun k =>
  .wait what fun
    | none => k (.ok ())
    | some f => k (.error f)

/-- The computation as a task of its own. -/
def toTask (toValue : α → ν) (x : Act σ ν α) : Task σ ν := x fun r => .finish (r.map toValue)

/-- Starts a computation as a task of its own. -/
def spawn (toValue : α → ν) (x : Act σ ν α) : Act σ ν Nat := fun k =>
  .spawn false (toTask toValue x) fun t => k (.ok t)

/-- Starts a computation that is repeated until it fails. -/
def spawnForever (value : ν) (x : Act σ ν Unit) : Act σ ν Nat := fun k =>
  .spawn true (toTask (fun _ => value) x) fun t => k (.ok t)

/-- Has a computation without waiting run once the cell is done. -/
def watch (value : ν) (cell : Nat) (x : CellStatus ν → Act σ ν Unit) : Act σ ν Nat := fun k =>
  .watch cell (fun s => toTask (fun _ => value) (x s)) fun w => k (.ok w)

/-- The time. -/
def now : Act σ ν Rat := call .now

/-- A new signal. -/
def newSignal : Act σ ν Nat := call (.newSignal 1 [])

/-- Lets the other tasks that are ready take their turn. -/
def yield : Act σ ν Unit := wait .turn

/-- Waits for a time; not at all for a time that is not positive, but for a turn; and forever
without one. -/
def sleep : Option Rat → Act σ ν Unit
  | none => do
    let s ← newSignal
    wait (.cell s)
  | some d =>
    if d ≤ 0 then yield
    else do
      let s ← newSignal
      let t ← call (.fireAfter d s)
      ensuring (wait (.cell s)) (call (.dropTimer t))

/-- Bounds the time of a computation: when the time is up the computation is interrupted, and that
interruption becomes a fault of the kind `timeout`. -/
def within (limit : Option Rat) (x : Act σ ν α) : Act σ ν α :=
  match limit with
  | none => x
  | some d => do
    let a ← call (.setAlarm d)
    let r ← attempt x
    let expired ← call (.dropAlarm a)
    match expired, r with
    | true, .error .interrupted => throw (.of .timeout [])
    | _, r => ofEnding r

/-- The value of a task that has ended; it must be done. -/
def valueOf (ofValue : ν → Option α) (task : Nat) : Act σ ν α := do
  match ← call (.status task) with
  | .ended (.ok v) =>
    match ofValue v with
    | some a => pure a
    | none => fail .interrupted
  | .ended (.error f) => fail f
  | _ => fail .interrupted

/-- Counts the end of a task on a signal.  The failure of a task ends the signal, unless failures are
to be passed over. -/
def countEnd (passOver : Bool) (signal : Nat) : CellStatus ν → Act σ ν Unit
  | .ended (.error f) => if passOver then call (.fire signal) else call (.fail signal f)
  | _ => call (.fire signal)

/-- Waits until all tasks are done.  The first failure ends the wait, unless failures are to be
passed over; being interrupted interrupts the tasks. -/
def gather (value : ν) (passOver : Bool) (tasks : List Nat) : Act σ ν Unit := do
  let s ← call (.newSignal tasks.length tasks)
  tasks.forM fun t => do
    let _ ← watch value t (countEnd passOver s)
  if !tasks.isEmpty then wait (.cell s)

/-- The number of tasks that have ended in a fault. -/
def faultCount : List Nat → Act σ ν Nat
  | [] => pure 0
  | t :: rest => do
    let here := match ← call (.status t) with
      | .ended (.error (.fault _)) => 1
      | _ => 0
    return here + (← faultCount rest)

/-- The fault of a group of tasks of which some have ended in a fault. -/
def groupFault (count : Nat) : Fault :=
  .of .group (text "unhandled errors in a TaskGroup (" ++ Text.ofNat count ++
    text (if count = 1 then " sub-exception)" else " sub-exceptions)"))

/-- Something has happened to the cell. -/
def isDone (cell : Nat) : Act σ ν Bool := do return (← call (.status cell)).isDone

/-- Fires the first of the signals to which nothing has happened, or ends it with a failure. -/
def settleFirst (f : Option Failure) : List Nat → Act σ ν Unit
  | [] => pure ()
  | s :: rest => do
    if ← isDone s then settleFirst f rest
    else
      match f with
      | none => call (.fire s)
      | some f => call (.fail s f)

/-- A group of tasks of which one waits for all. -/
structure Group where
  tasks : List Nat
  /-- Fired when the end of every task has been noticed. -/
  allEnded : Nat
  /-- Fired when the tasks are interrupted, which happens once. -/
  givenUp : Nat
  /-- What the waiting task waits for: the first of these until it is interrupted, then the next
  one. -/
  waits : List Nat

namespace Group

/-- Interrupts all tasks, unless that was done; the answer tells whether it is done now. -/
def giveUp (g : Group) : Act σ ν Bool := do
  if ← isDone g.givenUp then pure false
  else
    call (.fire g.givenUp)
    g.tasks.forM fun t => call (.interrupt t)
    pure true

/-- Notices the end of a task.  A fault interrupts the others and the one who waits. -/
def notice (g : Group) (s : CellStatus ν) : Act σ ν Unit := do
  call (.fire g.allEnded)
  if ← isDone g.allEnded then settleFirst none g.waits
  match s with
  | .ended (.error (.fault _)) =>
    if ← g.giveUp then settleFirst (some .interrupted) g.waits
  | _ => pure ()

/-- Waits until the end of every task has been noticed; being interrupted interrupts the tasks.  The
answer tells whether that has happened. -/
def awaitAll (g : Group) : (waits : List Nat) → Act σ ν Bool
  | [] => pure true
  | w :: rest => do
    if ← isDone g.allEnded then pure false
    else
      match ← attempt (wait (.cell w)) with
      | .ok () => awaitAll g rest
      | .error _ =>
        let mine ← g.giveUp
        return (← awaitAll g rest) || mine

end Group

/-- How often someone who waits for a group can be interrupted before the group is left alone. -/
def groupPatience : Nat := 16

/-- Waits until all tasks have ended.  The first fault of one interrupts the others, and so does
being interrupted; the faults come together as one. -/
def together (value : ν) (tasks : List Nat) : Act σ ν Unit := do
  let g : Group :=
    { tasks
      allEnded := ← call (.newSignal tasks.length [])
      givenUp := ← newSignal
      waits := ← (List.range groupPatience).mapM fun _ => newSignal }
  tasks.forM fun t => do
    let _ ← watch value t g.notice
  let interrupted ← g.awaitAll g.waits
  let faults ← faultCount tasks
  if 0 < faults then throw (groupFault faults)
  else if interrupted then fail .interrupted

/-- Interrupts a task and waits for its end. -/
def interruptAndWait (value : ν) (task : Nat) : Act σ ν Unit := do
  let s ← newSignal
  let w ← watch value task fun _ => call (.fire s)
  call (.interrupt task)
  ensuring (wait (.cell s)) (call (.unwatch task w))

/-- Whether a task that has ended came to its end by itself; its fault is one here too. -/
def endedItself (task : Nat) : Act σ ν Bool := do
  match ← call (.status task) with
  | .ended (.error .interrupted) => pure false
  | .ended (.error f) => fail f
  | _ => pure true

/-- Waits for a computation, which runs as a task of its own, but not longer than `limit`; the
answer tells whether it came to its end.  A computation that has come to its end by the time of an
interruption wins. -/
def waitAtMost (value : ν) (limit : Rat) (x : Act σ ν Unit) : Act σ ν Bool := do
  let task ← spawn (fun _ => value) x
  if limit ≤ 0 then
    interruptAndWait value task
    endedItself task
  else
    let s ← newSignal
    let timer ← call (.fireAfter limit s)
    let w ← watch value task fun _ => call (.fire s)
    ensuring (do
      let r ← attempt (wait (.cell s))
      if ← isDone task then endedItself task
      else
        call (.unwatch task w)
        interruptAndWait value task
        match r with
        | .ok () => endedItself task
        | .error e => fail e) (call (.dropTimer timer))

end Act

end ChatCommands.Concurrency
