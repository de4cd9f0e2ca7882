import ChatCommands.Concurrency.Task
import ChatCommands.Concurrency.TimerHeap
import ChatCommands.Number.Binary64

/-!
The scheduler: runs tasks on a virtual clock.

Jobs that are ready are run in the order in which they became ready.  A round takes the jobs that
are ready at its start; what they make ready belongs to the next round.  Between rounds the timers
that are due join the ready jobs, and when nothing is ready the clock moves on to the first timer.
So a run is determined by the tasks alone.
-/

namespace ChatCommands.Concurrency

/-- What is to be done when a cell is done: a task goes on, or a program without `wait` is run. -/
inductive Watcher (σ ν : Type)
  | resume (task : Nat)
  | run (program : CellStatus ν → Task σ ν)

/-- What is known of a task that has not ended. -/
structure TaskState (σ ν : Type) where
  /-- What the task does next. -/
  next : Option Failure → Task σ ν
  /-- The cell that it waits for. -/
  waitingFor : Option Nat := none
  /-- An interruption is due at the next turn of the task. -/
  interruptDue : Bool := false
  /-- The interruptions asked for that nobody has answered for. -/
  requests : Nat := 0
  /-- What the task starts over with when it ends with a value. -/
  again : Option (Task σ ν) := none

/-- A signal or a task. -/
structure Cell (σ ν : Type) where
  status : CellStatus ν := .pending
  watchers : List (Nat × Watcher σ ν) := []
  /-- How often a signal has still to be fired. -/
  count : Nat := 1
  /-- The tasks that are interrupted in place of a signal. -/
  members : List Nat := []
  /-- The members were interrupted. -/
  membersInterrupted : Bool := false
  /-- The state of a task. -/
  task : Option (TaskState σ ν) := none

/-- What a timer does when it is due. -/
inductive TimerAction
  | fire (signal : Nat)
  | ring (alarm : Nat)

/-- A timer. -/
structure Timer where
  action : TimerAction
  dropped : Bool := false
  /-- The timer is in the queue of timers. -/
  queued : Bool := true

/-- An alarm of a task: how many interruptions had been asked for when it was set. -/
structure Alarm where
  task : Nat
  requests : Nat
  timer : Nat
  rung : Bool := false

/-- Something that is ready to be done. -/
inductive Job (σ ν : Type)
  | turn (task : Nat) (wokenBy : Option Nat)
  | run (cell : Nat) (program : CellStatus ν → Task σ ν)
  | timer (t : Nat)

/-- The state of the scheduler. -/
structure Scheduler (σ ν : Type) where
  shared : σ
  clock : Rat := 0
  ready : Array (Job σ ν) := #[]
  cells : Array (Cell σ ν) := #[]
  timers : Array Timer := #[]
  queue : TimerHeap := #[]
  /-- How many timers were dropped while in the queue, less those that were then removed from its
  front, since the queue was last cleared of them. -/
  droppedQueued : Nat := 0
  alarms : Array Alarm := #[]
  /-- The number of watches so far, which numbers the next one. -/
  watches : Nat := 0

namespace Scheduler

variable {σ ν : Type}

/-- Changes a cell. -/
def modifyCell (k : Scheduler σ ν) (c : Nat) (f : Cell σ ν → Cell σ ν) : Scheduler σ ν :=
  { k with cells := k.cells.modify c f }

/-- Changes the state of a task. -/
def modifyTask (k : Scheduler σ ν) (t : Nat) (f : TaskState σ ν → TaskState σ ν) : Scheduler σ ν :=
  k.modifyCell t fun c => { c with task := c.task.map f }

/-- The state of a task. -/
def task? (k : Scheduler σ ν) (t : Nat) : Option (TaskState σ ν) := k.cells[t]?.bind (·.task)

/-- The status of a cell. -/
def statusOf (k : Scheduler σ ν) (c : Nat) : CellStatus ν :=
  match k.cells[c]? with
  | some cell => cell.status
  | none => .fired

/-- The job of a watcher. -/
def jobOf (c : Nat) : Watcher σ ν → Job σ ν
  | .resume t => .turn t (some c)
  | .run p => .run c p

/-- A cell is done: its watchers become ready, in the order in which they came. -/
def settle (k : Scheduler σ ν) (c : Nat) (s : CellStatus ν) : Scheduler σ ν :=
  match k.cells[c]? with
  | some cell =>
    if cell.status.isDone then k
    else
      { k.modifyCell c fun cell => { cell with status := s, watchers := [], task := none } with
        ready := cell.watchers.foldl (fun r w => r.push (jobOf c w.2)) k.ready }
  | none => k

/-- Fires a signal once. -/
def fire (k : Scheduler σ ν) (c : Nat) : Scheduler σ ν :=
  match k.cells[c]? with
  | some cell =>
    if 1 < cell.count then k.modifyCell c fun cell => { cell with count := cell.count - 1 }
    else if cell.membersInterrupted then k.settle c (.ended (.error .interrupted))
    else k.settle c .fired
  | none => k

/-- Adds a watcher to a cell; a cell that is done makes it ready at once. -/
def addWatcher (k : Scheduler σ ν) (c : Nat) (w : Watcher σ ν) : Scheduler σ ν :=
  let id := k.watches
  let k := { k with watches := id + 1 }
  if (k.statusOf c).isDone then { k with ready := k.ready.push (jobOf c w) }
  else k.modifyCell c fun cell => { cell with watchers := cell.watchers ++ [(id, w)] }

/-- Adds a cell. -/
def addCell (k : Scheduler σ ν) (cell : Cell σ ν) : Nat × Scheduler σ ν :=
  (k.cells.size, { k with cells := k.cells.push cell })

/-- Adds a task; it gets its first turn in the next round. -/
def addTask (k : Scheduler σ ν) (repeated : Bool) (body : Task σ ν) : Nat × Scheduler σ ν :=
  let first : Option Failure → Task σ ν
    | none => body
    | some f => .finish (.error f)
  let (t, k) := k.addCell
    { task := some { next := first, again := if repeated then some body else none } }
  (t, { k with ready := k.ready.push (.turn t none) })

/-- Adds a timer that is due after a delay. -/
def addTimer (k : Scheduler σ ν) (delay : Rat) (action : TimerAction) : Nat × Scheduler σ ν :=
  let id := k.timers.size
  (id, { k with
    timers := k.timers.push { action }
    queue := k.queue.push (Binary64.snap (k.clock + delay)) id })

/-- Drops a timer. -/
def dropTimer (k : Scheduler σ ν) (t : Nat) : Scheduler σ ν :=
  match k.timers[t]? with
  | some timer =>
    if timer.dropped then k
    else
      { k with
        timers := k.timers.modify t fun timer => { timer with dropped := true }
        droppedQueued := if timer.queued then k.droppedQueued + 1 else k.droppedQueued }
  | none => k

/-- Asks a task to be interrupted.  A task that waits for a signal is woken; one that waits for
another task passes the interruption on; any other task is interrupted at its next turn.  The fuel
bounds the length of a chain of waiting tasks.  The truth value tells whether the cell was still
pending. -/
def interruptCell (fuel : Nat) (k : Scheduler σ ν) (c : Nat) : Bool × Scheduler σ ν :=
  match fuel, k.cells[c]? with
  | 0, _ | _, none => (false, k)
  | fuel + 1, some cell =>
    if cell.status.isDone then (false, k)
    else
      match cell.task with
      | some task =>
        let k := k.modifyTask c fun s => { s with requests := s.requests + 1 }
        let (passed, k) := match task.waitingFor with
          | some w => interruptCell fuel k w
          | none => (false, k)
        (true, if passed then k else k.modifyTask c fun s => { s with interruptDue := true })
      | none =>
        if cell.members.isEmpty then (true, k.settle c (.ended (.error .interrupted)))
        else
          let (any, k) := cell.members.foldl (fun (any, k) m =>
            let (one, k) := interruptCell fuel k m
            (any || one, k)) (false, k)
          (any, k.modifyCell c fun cell =>
            { cell with membersInterrupted := cell.membersInterrupted || any })

/-- Asks a task to be interrupted. -/
def interrupt (k : Scheduler σ ν) (t : Nat) : Scheduler σ ν :=
  (interruptCell (k.cells.size + 1) k t).2

/-- Sets an alarm for a task. -/
def setAlarm (k : Scheduler σ ν) (me : Nat) (delay : Rat) : Nat × Scheduler σ ν :=
  let id := k.alarms.size
  let requests := ((k.task? me).map (·.requests)).getD 0
  let (timer, k) :=
    if Binary64.snap (k.clock + delay) ≤ k.clock then
      let t := k.timers.size
      (t, { k with timers := k.timers.push { action := .ring id, queued := false }
                   ready := k.ready.push (.timer t) })
    else k.addTimer delay (.ring id)
  (id, { k with alarms := k.alarms.push { task := me, requests, timer } })

/-- Drops an alarm of a task. -/
def dropAlarm (k : Scheduler σ ν) (me a : Nat) : Bool × Scheduler σ ν :=
  match k.alarms[a]? with
  | some alarm =>
    if alarm.rung then
      let k := k.modifyTask me fun s => { s with requests := s.requests - 1 }
      (((k.task? me).map (·.requests)).getD 0 ≤ alarm.requests, k)
    else (false, k.dropTimer alarm.timer)
  | none => (false, k)

/-- Answers a primitive step of the task `me`. -/
def perform (k : Scheduler σ ν) (me : Nat) : (c : Call ν) → c.Reply × Scheduler σ ν
  | .now => (k.clock, k)
  | .newSignal count members =>
    k.addCell { count, members, status := if count = 0 then .fired else .pending }
  | .fire s => ((), k.fire s)
  | .fail s f => ((), k.settle s (.ended (.error f)))
  | .status c => (k.statusOf c, k)
  | .fireAfter delay s => k.addTimer delay (.fire s)
  | .dropTimer t => ((), k.dropTimer t)
  | .setAlarm delay => k.setAlarm me delay
  | .dropAlarm a => k.dropAlarm me a
  | .interrupt t => ((), k.interrupt t)
  | .unwatch c w =>
    ((), k.modifyCell c fun cell =>
      { cell with watchers := cell.watchers.filter fun x => x.1 != w })

/-- The task `me` waits for its next turn. -/
def awaitTurn (k : Scheduler σ ν) (me : Nat) (next : Option Failure → Task σ ν) : Scheduler σ ν :=
  let k := k.modifyTask me fun s => { s with next, waitingFor := none }
  { k with ready := k.ready.push (.turn me none) }

/-- The task `me` waits for a pending cell; an interruption that is due meets the cell at once. -/
def awaitCell (k : Scheduler σ ν) (me c : Nat) (next : Option Failure → Task σ ν) : Scheduler σ ν :=
  let due := ((k.task? me).map (·.interruptDue)).getD false
  let k := k.modifyTask me fun s => { s with next, waitingFor := some c }
  let k := k.addWatcher c (.resume me)
  if due then
    let (passed, k) := interruptCell (k.cells.size + 1) k c
    if passed then k.modifyTask me fun s => { s with interruptDue := false } else k
  else k

/-- What someone who waits for a cell that is done goes on with. -/
def failureOf : CellStatus ν → Option Failure
  | .ended (.error f) => some f
  | _ => none

/-- The task `me` has come to its end.  The program with which it is to start over, if it is, is the
result. -/
def finish (k : Scheduler σ ν) (me : Nat) (r : Ending ν) : Option (Task σ ν) × Scheduler σ ν :=
  match k.task? me with
  | some s =>
    if s.interruptDue then (none, k.settle me (.ended (.error .interrupted)))
    else
      match r, s.again with
      | .ok _, some body => (some body, k)
      | r, _ => (none, k.settle me (.ended r))
  | none => (none, k)

/-- Runs a program of the task `me` up to its next wait or its end. -/
def exec (me : Nat) : Task σ ν → Scheduler σ ν → Option (Task σ ν) × Scheduler σ ν
  | .finish r, k => k.finish me r
  | .look next, k => exec me (next k.shared) k
  | .put s next, k => exec me next { k with shared := s }
  | .call c next, k =>
    let (reply, k) := k.perform me c
    exec me (next reply) k
  | .spawn repeated body next, k =>
    let (t, k) := k.addTask repeated body
    exec me (next t) k
  | .watch c program next, k =>
    let w := k.watches
    exec me (next w) (k.addWatcher c (.run program))
  | .wait .turn next, k => (none, k.awaitTurn me next)
  | .wait (.cell c) next, k =>
    if (k.statusOf c).isDone then exec me (next (failureOf (k.statusOf c))) k
    else (none, k.awaitCell me c next)

/-- Gives the task `t` a turn. -/
def turn (k : Scheduler σ ν) (t : Nat) (wokenBy : Option Nat) : Scheduler σ ν :=
  match k.task? t with
  | some s =>
    let answer : Option Failure :=
      if s.interruptDue then some .interrupted else wokenBy.bind fun c => failureOf (k.statusOf c)
    let k := k.modifyTask t fun s => { s with waitingFor := none, interruptDue := false }
    match exec t (s.next answer) k with
    | (none, k) => k
    | (some body, k) =>
      match exec t body k with
      | (none, k) => k
      | (some body, k) => k.awaitTurn t fun
        | none => body
        | some f => .finish (.error f)
  | none => k

/-- Does what a timer is for. -/
def ring (k : Scheduler σ ν) (t : Nat) : Scheduler σ ν :=
  match k.timers[t]? with
  | some timer =>
    if timer.dropped then k
    else
      match timer.action with
      | .fire s => k.fire s
      | .ring a =>
        match k.alarms[a]? with
        | some alarm =>
          { k.interrupt alarm.task with
            alarms := k.alarms.modify a fun alarm => { alarm with rung := true } }
        | none => k
  | none => k

/-- Does a job. -/
def doJob (k : Scheduler σ ν) : Job σ ν → Scheduler σ ν
  | .turn t wokenBy => k.turn t wokenBy
  | .run c program => (exec k.cells.size (program (k.statusOf c)) k).2
  | .timer t => k.ring t

/-- Whether a timer is dropped. -/
def isDropped (k : Scheduler σ ν) (t : Nat) : Bool := (k.timers[t]?.map (·.dropped)).getD true

/-- Marks a timer as no longer queued. -/
def unqueue (k : Scheduler σ ν) (t : Nat) : Scheduler σ ν :=
  { k with timers := k.timers.modify t fun timer => { timer with queued := false } }

/-- Removes the dropped timers at the front of the queue. -/
def skipDropped : (fuel : Nat) → Scheduler σ ν → Scheduler σ ν
  | 0, k => k
  | fuel + 1, k =>
    match k.queue.first? with
    | some (_, t) =>
      if k.isDropped t then
        skipDropped fuel { k.unqueue t with
          queue := k.queue.removeFirst, droppedQueued := k.droppedQueued - 1 }
      else k
    | none => k

/-- Removes dropped timers: all of them when they are the greater part of a long queue, else those
at the front. -/
def tidy (k : Scheduler σ ν) : Scheduler σ ν :=
  if 100 < k.queue.size && k.queue.size < 2 * k.droppedQueued then
    let gone := k.queue.filter fun x => k.isDropped x.2
    let kept := k.queue.filter fun x => !k.isDropped x.2
    { gone.foldl (fun k x => k.unqueue x.2) k with
      queue := TimerHeap.ofArray kept, droppedQueued := 0 }
  else skipDropped k.queue.size k

/-- The resolution of the clock: timers that are due this much later are due as well. -/
def resolution : Rat := (Binary64.ofDecimal false 1 (-9)).toRat

/-- Makes the timers ready that are due by now, or before `limit`. -/
def release (limit : Rat) : (fuel : Nat) → Scheduler σ ν → Scheduler σ ν
  | 0, k => k
  | fuel + 1, k =>
    match k.queue.first? with
    | some (time, t) =>
      if time ≤ k.clock || time < limit then
        release limit fuel { k.unqueue t with
          queue := k.queue.removeFirst, ready := k.ready.push (.timer t) }
      else k
    | none => k

/-- Moves the clock on to the first timer if nothing is ready. -/
def advance (k : Scheduler σ ν) : Scheduler σ ν :=
  match k.ready.isEmpty, k.queue.first? with
  | true, some (time, _) => { k with clock := if k.clock ≤ time then time else k.clock }
  | _, _ => k

/-- Gets the jobs of the next round ready. -/
def collect (k : Scheduler σ ν) : Scheduler σ ν :=
  let k := k.tidy.advance
  release (Binary64.snap (k.clock + resolution)) k.queue.size k

/-- Does the jobs that are ready. -/
def doReady (k : Scheduler σ ν) : Scheduler σ ν :=
  k.ready.foldl doJob { k with ready := #[] }

/-- One round; there is none if nothing is ready and no timer is set. -/
def round? (k : Scheduler σ ν) : Option (Scheduler σ ν) :=
  let k := k.collect
  if k.ready.isEmpty then none else some k.doReady

/-- Rounds until the task `t` has ended, nothing is left to do, or the fuel is used up. -/
def runUntil (t : Nat) : (fuel : Nat) → Scheduler σ ν → Scheduler σ ν
  | 0, k => k
  | fuel + 1, k =>
    if (k.statusOf t).isDone then k
    else
      match k.round? with
      | some k => runUntil t fuel k
      | none => k

/-- The most rounds of a run. -/
def maxRounds : Nat := 100000000

/-- Runs a task with everything that it starts, up to its end. -/
def run (shared : σ) (main : Task σ ν) : Scheduler σ ν :=
  let (t, k) := ({ shared } : Scheduler σ ν).addTask false main
  runUntil t maxRounds k

end Scheduler

end ChatCommands.Concurrency
