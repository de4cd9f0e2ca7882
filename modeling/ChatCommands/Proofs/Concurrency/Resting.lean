import ChatCommands.Proofs.Concurrency.Collection
import ChatCommands.Proofs.Concurrency.Pace
import ChatCommands.Proofs.Concurrency.Wakers

/-!
Tasks at rest, as a scheduler holds them.

A task that rests has lain down in this round or before it, or it was roused: its time has come and
its turn is called for; or its alarm has struck.  In each case it is known which of its timers are
still in the queue, which are called for in this round, and with what answer the task would go on.
What other tasks do leaves all of this as it is.
-/

namespace ChatCommands.Concurrency.Scheduler

variable {σ ν : Type} {P : Pact σ ν} {k k' : Scheduler σ ν} {rest rest' : List (Job σ ν)}
  {t requests : Nat} {place place' : Nat → Rat → Prop}

/-- Where a task stands: what it rests for and by what it is woken, what it has in hand of alarms,
since when, and how often it rests at most from then on. -/
structure Stance where
  repose : Repose := .turn
  signal : Nat := 0
  timer : Nat := 0
  hand : Hand := .clean
  since : Rat := 0
  rests : Nat := 0

variable {s : Stance} {ts : TaskState σ ν}

/-- The cell for which a task waits. -/
def Stance.waitsFor (s : Stance) : Option Nat :=
  match s.repose with
  | .turn => none
  | .until _ | .forever => some s.signal

/-- How a task goes on: it first drops the timer that was to wake it. -/
def Stance.resume (s : Stance) (next : Option Failure → Task σ ν) : Option Failure → Task σ ν :=
  match s.repose with
  | .until _ => fun answer => .call (.dropTimer s.timer) fun _ => next answer
  | .turn | .forever => next

/-! ### Timers and alarms of a task -/

/-- The timer was set in this round. -/
def Soon (k : Scheduler σ ν) (timer : Nat) (due : Rat) : Prop :=
  (due, timer) ∈ k.queue ∨ .timer timer ∈ k.ready ∧ due = k.clock

/-- The timer is not yet due. -/
def Later (k : Scheduler σ ν) (timer : Nat) (due : Rat) : Prop :=
  (due, timer) ∈ k.queue ∧ ¬ Due k.clock due

/-- The timer was set before this round: it is called for in this round, or is not yet due. -/
def Stays (rest : List (Job σ ν)) (k : Scheduler σ ν) (timer : Nat) (due : Rat) : Prop :=
  k.Later timer due ∨ .timer timer ∈ rest ∧ Due k.clock due ∧ k.clock ≤ due

/-- The alarm that a task has in hand is as it should be, and its timer is found where `place`
says. -/
def Grip (k : Scheduler σ ν) (t requests : Nat) (place : Nat → Rat → Prop) : Hand → Prop
  | .clean | .spent => requests = 0
  | .armed a limit => requests = 0 ∧ ∃ timer, k.alarms[a]? = some ⟨t, 0, timer, false⟩ ∧
    k.duty? timer = some (.ring a, false) ∧ place timer limit
  | .struck a _ => requests = 1 ∧ ∃ timer, k.alarms[a]? = some ⟨t, 0, timer, true⟩

/-- A signal that is fired by the first attempt, with this status. -/
structure Signal (cell : Cell σ ν) (status : CellStatus ν) : Prop where
  plain : Plain cell
  task : cell.task = none
  status : cell.status = status

/-- The cell of a task that nobody waits for and that does not start over. -/
structure TaskCell (cell : Cell σ ν) (ts : TaskState σ ν) : Prop where
  status : cell.status = .pending
  watchers : cell.watchers = []
  task : cell.task = some ts
  again : ts.again = none

/-! ### The phases of a rest -/

/-- What brings the clock forward to the end of the rest of a task that is alone. -/
def Exact (s : Stance) (clock : Rat) : Prop :=
  ∀ due, s.repose = .until due → match s.hand with
    | .armed _ limit => clock = min due limit
    | .clean | .spent | .struck .. => clock = s.since ∨ clock = due

/-- The task waits for a signal, and its timers are found where `place` says. -/
structure Asleep (k : Scheduler σ ν) (t : Nat) (s : Stance) (ts : TaskState σ ν)
    (place : Nat → Rat → Prop) : Prop where
  waiting : ts.waitingFor = some s.signal
  idle : ts.interruptDue = false
  signal : ∃ cell w, k.cells[s.signal]? = some cell ∧ Signal cell .pending ∧
    cell.watchers = [(w, .resume t)]
  repose : s.repose ≠ .turn
  nap : ∀ due, s.repose = .until due →
    k.duty? s.timer = some (.fire s.signal, false) ∧ place s.timer due
  grip : Grip k t ts.requests place s.hand

/-- The time at which the task is to go on has come. -/
def OnTime (alone : Prop) (s : Stance) (clock : Rat) : Prop :=
  match s.repose with
  | .turn => clock = s.since
  | .until due => Due clock due ∧ clock ≤ due ∧ (alone → Exact s clock)
  | .forever => False

/-- The time of the task has come, and its turn is called for. -/
structure Roused (P : Pact σ ν) (rest : List (Job σ ν)) (k : Scheduler σ ν) (t : Nat) (s : Stance)
    (ts : TaskState σ ν) : Prop where
  waiting : ts.waitingFor = s.waitsFor
  idle : ts.interruptDue = false
  signal : ∀ c, s.waitsFor = some c → ∃ cell, k.cells[c]? = some cell ∧ Signal cell .fired
  onTime : OnTime P.alone s k.clock
  called : (t, s.waitsFor) ∈ wakes k.ready.toList ∧ Grip k t ts.requests (Stays rest k) s.hand ∨
    (t, s.waitsFor) ∈ wakes rest ∧ Grip k t ts.requests k.Later s.hand

/-- The alarm of the task has rung, and its turn is called for. -/
structure Struck (P : Pact σ ν) (rest : List (Job σ ν)) (k : Scheduler σ ν) (t : Nat) (s : Stance)
    (ts : TaskState σ ν) : Prop where
  rung : ∃ a limit timer, s.hand = .armed a limit ∧ k.alarms[a]? = some ⟨t, 0, timer, true⟩ ∧
    Wakes P.alone s.since s.hand s.repose (some .interrupted) (.struck a limit) k.clock
  requests : ts.requests = 1
  signal : ∃ cell, k.cells[s.signal]? = some cell ∧ (Signal cell .fired ∧ ts.interruptDue = true ∨
    Signal cell (.ended (.error .interrupted)))
  called : (t, s.waitsFor) ∈ wakes (rest ++ k.ready.toList)

/-- How far the rest of a task has come. -/
inductive Phase (P : Pact σ ν) (rest : List (Job σ ν)) (k : Scheduler σ ν) (t : Nat) (s : Stance)
    (ts : TaskState σ ν) : Prop
  | new (h : Asleep k t s ts k.Soon) (hclock : k.clock = s.since)
  | old (h : Asleep k t s ts (Stays rest k)) (hexact : P.alone → Exact s k.clock)
  | roused (h : Roused P rest k t s ts)
  | struck (h : Struck P rest k t s ts)

/-- The program with which a task goes on keeps the pact. -/
def Prepared (P : Pact σ ν) (t : Nat) (s : Stance) (shared : σ)
    (program : Option Failure → Task σ ν) : Prop :=
  ∃ next n, program = s.resume next ∧ s.rests = n + 1 ∧ ∀ answer j', P.holds j'.shared →
    P.meanwhile t shared j'.shared →
    Wakes P.alone s.since s.hand s.repose answer j'.hand j'.clock → (next answer).Paced P t n j'

/-- The task rests as it stands. -/
structure RestsAs (P : Pact σ ν) (rest : List (Job σ ν)) (k : Scheduler σ ν) (t : Nat) (s : Stance)
    (cell : Cell σ ν) (ts : TaskState σ ν) : Prop where
  found : k.cells[t]? = some cell
  task : TaskCell cell ts
  mayRest : s.hand.MayRest s.repose
  timer : ∀ due, s.repose = .until due →
    ∃ dropped, k.duty? s.timer = some (.fire s.signal, dropped)
  prepared : Prepared P t s k.shared ts.next
  phase : Phase P rest k t s ts

/-- The task rests. -/
def Resting (P : Pact σ ν) (rest : List (Job σ ν)) (k : Scheduler σ ν) (t : Nat) (s : Stance) :
    Prop :=
  ∃ cell ts, RestsAs P rest k t s cell ts

/-- The task has come to its end. -/
structure Over (P : Pact σ ν) (k : Scheduler σ ν) (t : Nat) (s : Stance) : Prop where
  ended : ∃ cell r, k.cells[t]? = some cell ∧ cell.task = none ∧ cell.status = .ended r ∧
    P.done t r k.shared
  repose : s.repose = .turn
  hand : s.hand.Unarmed
  rests : s.rests = 0

/-! ### What others do -/

/-- The timer that does this is of use to the task. -/
def Concerns (k : Scheduler σ ν) (t : Nat) : TimerAction → Prop
  | .fire c => ∃ cell w, k.cells[c]? = some cell ∧ Signal cell .pending ∧
    cell.watchers = [(w, .resume t)]
  | .ring a => ∃ alarm, k.alarms[a]? = some alarm ∧ alarm.task = t

/-- What the scheduler has of the task is left alone. -/
structure LeavesBe (P : Pact σ ν) (t : Nat) (rest rest' : List (Job σ ν)) (k k' : Scheduler σ ν) :
    Prop where
  task : ∀ cell, k.cells[t]? = some cell → k'.cells[t]? = some cell
  signal : ∀ (c : Nat) cell, k.cells[c]? = some cell → cell.task = none →
    (cell.status.isDone = true ∨ ∃ w, cell.watchers = [(w, .resume t)]) → k'.cells[c]? = some cell
  timer : ∀ timer action, k.duty? timer = some (action, false) → Concerns k t action →
    k'.duty? timer = some (action, false) ∧ (.timer timer ∈ rest → .timer timer ∈ rest')
  action : ∀ timer action dropped, k.duty? timer = some (action, dropped) →
    ∃ dropped', k'.duty? timer = some (action, dropped')
  alarm : ∀ (a : Nat) alarm, k.alarms[a]? = some alarm → alarm.task = t →
    k'.alarms[a]? = some alarm
  queue : ∀ x ∈ k.queue, x ∈ k'.queue
  ready : ∀ j ∈ k.ready, j ∈ k'.ready
  woken : ∀ c, (t, c) ∈ wakes rest → (t, c) ∈ wakes rest'
  clock : k'.clock = k.clock
  meanwhile : P.meanwhile t k.shared k'.shared

theorem Grip.imp {place place' : Nat → Rat → Prop} {hand : Hand} (h : Grip k t requests place hand)
    (halarm : ∀ (a : Nat) alarm, k.alarms[a]? = some alarm → alarm.task = t →
      k'.alarms[a]? = some alarm)
    (hplace : ∀ a timer due, k.duty? timer = some (.ring a, false) → Concerns k t (.ring a) →
      place timer due → k'.duty? timer = some (.ring a, false) ∧ place' timer due) :
    Grip k' t requests place' hand := by
  cases hand with
  | clean | spent => exact h
  | armed a limit =>
    obtain ⟨hnone, timer, ha, hduty, hfound⟩ := h
    exact ⟨hnone, timer, halarm a _ ha rfl, hplace a timer limit hduty ⟨_, ha, rfl⟩ hfound⟩
  | struck a limit =>
    obtain ⟨hone, timer, ha⟩ := h
    exact ⟨hone, timer, halarm a _ ha rfl⟩

theorem mem_wakes {jobs : List (Job σ ν)} {w : Nat × Option Nat} :
    w ∈ wakes jobs ↔ .turn w.1 w.2 ∈ jobs := by
  unfold wakes
  rw [List.mem_filterMap]
  constructor
  · rintro ⟨j, hj, heq⟩
    cases j with
    | turn t c => cases heq; exact hj
    | run c program => cases heq
    | timer timer => cases heq
  · exact fun h => ⟨_, h, rfl⟩

namespace LeavesBe

variable {rest'' : List (Job σ ν)} {k'' : Scheduler σ ν}

theorem soon (h : LeavesBe P t rest rest' k k') {timer : Nat} {due : Rat} (hs : k.Soon timer due) :
    k'.Soon timer due :=
  hs.imp (h.queue _) fun hs => ⟨h.ready _ hs.1, hs.2.trans h.clock.symm⟩

theorem later (h : LeavesBe P t rest rest' k k') {timer : Nat} {due : Rat} (hl : k.Later timer due) :
    k'.Later timer due :=
  ⟨h.queue _ hl.1, h.clock ▸ hl.2⟩

theorem stays (h : LeavesBe P t rest rest' k k') {timer : Nat} {due : Rat}
    (hrest : .timer timer ∈ rest → .timer timer ∈ rest') (hs : Stays rest k timer due) :
    Stays rest' k' timer due :=
  hs.imp h.later fun hs => ⟨hrest hs.1, h.clock ▸ hs.2.1, h.clock.symm ▸ hs.2.2⟩

theorem wakes_ready (h : LeavesBe P t rest rest' k k') {w : Nat × Option Nat}
    (hw : w ∈ wakes k.ready.toList) : w ∈ wakes k'.ready.toList :=
  mem_wakes.mpr (Array.mem_toList_iff.mpr (h.ready _ (Array.mem_toList_iff.mp (mem_wakes.mp hw))))

theorem asleep (h : LeavesBe P t rest rest' k k') (ha : Asleep k t s ts place)
    (hplace : ∀ timer due, (.timer timer ∈ rest → .timer timer ∈ rest') → place timer due →
      place' timer due) : Asleep k' t s ts place' := by
  obtain ⟨cell, w, hcell, hsignal, hwatchers⟩ := ha.signal
  refine ⟨ha.waiting, ha.idle, ⟨cell, w, ?_, hsignal, hwatchers⟩, ha.repose, fun due hdue => ?_,
    ha.grip.imp h.alarm fun a timer due hduty hof hfound => ?_⟩
  · exact h.signal _ _ hcell hsignal.task (.inr ⟨w, hwatchers⟩)
  · obtain ⟨hduty, hfound⟩ := ha.nap due hdue
    obtain ⟨hduty', hrest⟩ := h.timer _ _ hduty ⟨cell, w, hcell, hsignal, hwatchers⟩
    exact ⟨hduty', hplace _ _ hrest hfound⟩
  · obtain ⟨hduty', hrest⟩ := h.timer _ _ hduty hof
    exact ⟨hduty', hplace _ _ hrest hfound⟩

theorem grip (h : LeavesBe P t rest rest' k k') {hand : Hand} (hg : Grip k t requests place hand)
    (hplace : ∀ timer due, (.timer timer ∈ rest → .timer timer ∈ rest') → place timer due →
      place' timer due) : Grip k' t requests place' hand := by
  refine hg.imp h.alarm fun a timer due hduty hof hfound => ?_
  obtain ⟨hduty', hrest⟩ := h.timer _ _ hduty hof
  exact ⟨hduty', hplace _ _ hrest hfound⟩

theorem phase (h : LeavesBe P t rest rest' k k') (hp : Phase P rest k t s ts) :
    Phase P rest' k' t s ts := by
  have hdone : ∀ c cell (status : CellStatus ν), k.cells[c]? = some cell → Signal cell status →
      status.isDone = true → k'.cells[c]? = some cell := fun c cell status hc hs hd =>
    h.signal c cell hc hs.task (.inl (hs.status ▸ hd))
  cases hp with
  | new ha hclock =>
    exact .new (h.asleep ha fun _ _ _ => h.soon) (h.clock.trans hclock)
  | old ha hexact => exact .old (h.asleep ha fun _ _ => h.stays) (h.clock.symm ▸ hexact)
  | roused hr =>
    refine .roused ⟨hr.waiting, hr.idle, fun c hc => ?_, h.clock.symm ▸ hr.onTime, ?_⟩
    · obtain ⟨cell, hcell, hsignal⟩ := hr.signal c hc
      exact ⟨cell, hdone c cell _ hcell hsignal rfl, hsignal⟩
    · exact hr.called.imp
        (fun hc => ⟨h.wakes_ready hc.1, h.grip hc.2 fun _ _ => h.stays⟩)
        fun hc => ⟨h.woken _ hc.1, h.grip hc.2 fun _ _ _ => h.later⟩
  | struck hs =>
    obtain ⟨a, limit, timer, hhand, ha, hwakes⟩ := hs.rung
    obtain ⟨cell, hcell, hsignal⟩ := hs.signal
    refine .struck ⟨⟨a, limit, timer, hhand, h.alarm a _ ha rfl, h.clock.symm ▸ hwakes⟩,
      hs.requests, ⟨cell, ?_, hsignal⟩, ?_⟩
    · exact hsignal.elim (fun hsignal => hdone _ _ _ hcell hsignal.1 rfl)
        fun hsignal => hdone _ _ _ hcell hsignal rfl
    · have hcalled := hs.called
      rw [wakes_append, List.mem_append] at hcalled ⊢
      exact hcalled.imp (h.woken _) h.wakes_ready

theorem refl (hP : P.Lawful) (t : Nat) (rest : List (Job σ ν)) (k : Scheduler σ ν) :
    LeavesBe P t rest rest k k where
  task _ h := h
  signal _ _ h _ _ := h
  timer _ _ hi _ := ⟨hi, id⟩
  action _ _ dropped hi := ⟨dropped, hi⟩
  alarm _ _ ha _ := ha
  queue _ hx := hx
  ready _ hj := hj
  woken _ := id
  clock := rfl
  meanwhile := hP.refl t _

theorem concerns (h : LeavesBe P t rest rest' k k') {action : TimerAction}
    (hc : Concerns k t action) : Concerns k' t action := by
  cases action with
  | fire c =>
    obtain ⟨cell, w, hcell, hsignal, hwatchers⟩ := hc
    exact ⟨cell, w, h.signal c cell hcell hsignal.task (.inr ⟨w, hwatchers⟩), hsignal, hwatchers⟩
  | ring a =>
    obtain ⟨alarm, ha, htask⟩ := hc
    exact ⟨alarm, h.alarm a alarm ha htask, htask⟩

theorem trans (hP : P.Lawful) (h : LeavesBe P t rest rest' k k') (h' : LeavesBe P t rest' rest'' k' k'') :
    LeavesBe P t rest rest'' k k'' where
  task cell hcell := h'.task cell (h.task cell hcell)
  signal c cell hcell htask hof := h'.signal c cell (h.signal c cell hcell htask hof) htask hof
  timer i action hi hof := by
    obtain ⟨hi', hrest⟩ := h.timer i action hi hof
    obtain ⟨hi'', hrest'⟩ := h'.timer i action hi' (h.concerns hof)
    exact ⟨hi'', fun hin => hrest' (hrest hin)⟩
  action i action dropped hi := by
    obtain ⟨dropped', hi'⟩ := h.action i action dropped hi
    exact h'.action i action dropped' hi'
  alarm a alarm ha htask := h'.alarm a alarm (h.alarm a alarm ha htask) htask
  queue x hx := h'.queue x (h.queue x hx)
  ready j hj := h'.ready j (h.ready j hj)
  woken c hc := h'.woken c (h.woken c hc)
  clock := h'.clock.trans h.clock
  meanwhile := hP.trans h.meanwhile h'.meanwhile

end LeavesBe

/-- **A task rests on** whatever others do that spares it. -/
theorem Resting.spared (hP : P.Lawful) (h : Resting P rest k t s)
    (hs : LeavesBe P t rest rest' k k') : Resting P rest' k' t s := by
  obtain ⟨cell, ts, h⟩ := h
  refine ⟨cell, ts, hs.task cell h.found, h.task, h.mayRest, fun due hdue => ?_, ?_, hs.phase h.phase⟩
  · obtain ⟨dropped, hduty⟩ := h.timer due hdue
    exact hs.action _ _ _ hduty
  · obtain ⟨next, n, hnext, hrests, hgo⟩ := h.prepared
    exact ⟨next, n, hnext, hrests, fun answer j' hholds hm => hgo answer j' hholds
      (hP.trans hs.meanwhile hm)⟩

theorem Over.spared (hP : P.Lawful) (h : Over P k t s) (hs : LeavesBe P t rest rest' k k') :
    Over P k' t s := by
  obtain ⟨cell, r, hcell, htask, hended, hdone⟩ := h.ended
  exact { h with ended := ⟨cell, r, hs.task cell hcell, htask, hended, hP.done hs.meanwhile hdone⟩ }

end ChatCommands.Concurrency.Scheduler
