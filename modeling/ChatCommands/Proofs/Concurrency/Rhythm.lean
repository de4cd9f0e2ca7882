import ChatCommands.Proofs.Concurrency.Resting

/-!
Schedulers whose tasks wait for nothing but the time.

All tasks of the scheduler are of one crew, and each of them rests, is over, or is the busy one.  Each
timer that is still to be called for and is not dropped is of use to one of them.  The steps of the
busy task leave this as it is.
-/

namespace ChatCommands.Concurrency.Scheduler

variable {σ ν : Type} {P : Pact σ ν} {k k' : Scheduler σ ν} {rest rest' : List (Job σ ν)}
  {crew : List Nat} {st : Nat → Stance} {busy : Option Nat} {me t : Nat}

/-! ### The queue of timers and the clock -/

/-- The timer that a job calls for. -/
def timerOf? : Job σ ν → Option Nat
  | .timer t => some t
  | .turn .. | .run .. => none

/-- The timers that jobs call for. -/
def timersOf (jobs : List (Job σ ν)) : List Nat := jobs.filterMap timerOf?

/-- The timers that are called for, or will be. -/
def calls (rest : List (Job σ ν)) (k : Scheduler σ ν) : List Nat :=
  timersOf (rest ++ k.ready.toList) ++ k.queue.toList.map Prod.snd

@[simp] theorem timersOf_append (js js' : List (Job σ ν)) :
    timersOf (js ++ js') = timersOf js ++ timersOf js' :=
  List.filterMap_append

theorem mem_timersOf {jobs : List (Job σ ν)} {timer : Nat} :
    timer ∈ timersOf jobs ↔ .timer timer ∈ jobs := by
  unfold timersOf
  rw [List.mem_filterMap]
  constructor
  · rintro ⟨j, hj, heq⟩
    cases j with
    | timer t => cases heq; exact hj
    | turn t c => cases heq
    | run c program => cases heq
  · exact fun h => ⟨_, h, rfl⟩

/-- The queue is in order and ahead of the clock, and each timer is called for at most once. -/
structure Clockwork (rest : List (Job σ ν)) (k : Scheduler σ ν) : Prop where
  order : TimerHeap.InOrder k.queue
  clock : Binary64.snap k.clock = k.clock
  ahead : ∀ x ∈ k.queue, k.clock ≤ x.1 ∧ Binary64.snap x.1 = x.1
  known : ∀ timer ∈ calls rest k, timer < k.timers.size
  once : (calls rest k).Nodup

theorem Clockwork.same (h : Clockwork rest k) (hclock : k'.clock = k.clock)
    (hqueue : k'.queue = k.queue) (hsize : k.timers.size ≤ k'.timers.size)
    (hjobs : (timersOf (rest' ++ k'.ready.toList)).Sublist (timersOf (rest ++ k.ready.toList))) :
    Clockwork rest' k' := by
  have hcalls : (calls rest' k').Sublist (calls rest k) := by
    unfold calls
    rw [hqueue]
    exact hjobs.append_right _
  exact ⟨hqueue ▸ h.order, hclock ▸ h.clock, by rw [hqueue, hclock]; exact h.ahead,
    fun timer ht => Nat.lt_of_lt_of_le (h.known timer (hcalls.subset ht)) hsize, h.once.sublist hcalls⟩

/-- One more timer is called for. -/
theorem Clockwork.call (h : Clockwork rest k) {timer : Timer} (horder : TimerHeap.InOrder k'.queue)
    (hclock : k'.clock = k.clock)
    (hahead : ∀ x ∈ k'.queue, k.clock ≤ x.1 ∧ Binary64.snap x.1 = x.1)
    (htimers : k'.timers = k.timers.push timer)
    (hcalls : (calls rest k').Perm (calls rest k ++ [k.timers.size])) : Clockwork rest k' := by
  have hnew : k.timers.size ∉ calls rest k := fun hin => Nat.lt_irrefl _ (h.known _ hin)
  refine ⟨horder, hclock ▸ h.clock, hclock ▸ hahead, fun t ht => ?_, ?_⟩
  · rw [htimers, Array.size_push]
    rcases List.mem_append.mp (hcalls.mem_iff.mp ht) with ht | ht
    · exact Nat.lt_succ_of_lt (h.known t ht)
    · exact List.mem_singleton.mp ht ▸ Nat.lt_succ_self _
  · refine hcalls.nodup_iff.mpr (List.nodup_append.mpr ⟨h.once, List.nodup_singleton _, ?_⟩)
    intro t ht t' ht' heq
    exact hnew (List.mem_singleton.mp ht' ▸ heq ▸ ht)

theorem calls_addTimer (rest : List (Job σ ν)) (k : Scheduler σ ν) (d : Rat)
    (action : TimerAction) :
    (calls rest (k.addTimer d action).2).Perm (calls rest k ++ [k.timers.size]) := by
  have hqueue := (TimerHeap.perm_push k.queue (Binary64.snap (k.clock + d)) k.timers.size).map
    Prod.snd
  rw [List.map_append] at hqueue
  unfold calls
  rw [List.append_assoc]
  exact hqueue.append_left _

theorem Clockwork.addTimer (h : Clockwork rest k) {d : Rat}
    (hd : k.clock ≤ Binary64.snap (k.clock + d)) (action : TimerAction) :
    Clockwork rest (k.addTimer d action).2 := by
  refine h.call (h.order.push _ _) rfl (fun x hx => ?_) rfl (calls_addTimer ..)
  rcases TimerHeap.mem_push.mp hx with hx | rfl
  · exact h.ahead x hx
  · exact ⟨hd, Binary64.snap_snap _⟩

/-- A timer that is set for later is due after the clock's time. -/
theorem Clockwork.dueAfter_eq (h : Clockwork rest k) {d : Rat} (hd : 0 < d) :
    dueAfter k.clock d = Binary64.snap (k.clock + d) ∧ k.clock ≤ Binary64.snap (k.clock + d) := by
  have hle : k.clock ≤ Binary64.snap (k.clock + d) := by
    have hmono := Binary64.snap_mono (le_add_of_nonneg_right (a := k.clock) hd.le)
    rwa [h.clock] at hmono
  exact ⟨max_eq_right hle, hle⟩

/-! ### The crew -/

/-- The timer, which does this, is of use to the task as it stands. -/
def Owns (k : Scheduler σ ν) (t : Nat) (s : Stance) (timer : Nat) : TimerAction → Prop
  | .fire c => s.timer = timer ∧ s.signal = c ∧ ∃ due, s.repose = .until due
  | .ring a => (∃ limit, s.hand = .armed a limit) ∧ k.alarms[a]? = some ⟨t, 0, timer, false⟩

theorem Owns.congr {s : Stance} {timer : Nat} {action : TimerAction} (h : Owns k t s timer action)
    (halarms : ∀ (a : Nat) alarm, k.alarms[a]? = some alarm → k'.alarms[a]? = some alarm) :
    Owns k' t s timer action := by
  cases action with
  | fire c => exact h
  | ring a => exact ⟨h.1, halarms a _ h.2⟩

/-- The job is for a task of the crew, or calls for a timer. -/
def OfCrew (crew : List Nat) : Job σ ν → Prop
  | .turn t _ => t ∈ crew
  | .run .. => False
  | .timer _ => True

/-- What holds in addition if there is at most one task: the timers that are called for in the next
round were not dropped, unless the task has just dropped one. -/
structure Lone (crew : List Nat) (st : Nat → Stance) (rest : List (Job σ ν)) (k : Scheduler σ ν) :
    Prop where
  sole : ∀ t ∈ crew, ∀ t' ∈ crew, t = t'
  cleared : wakes rest ≠ [] → timersOf k.ready.toList = []
  kept : (∃ t ∈ crew, (st t).hand = .spent) ∨
    ∀ timer ∈ timersOf k.ready.toList, ∃ action, k.duty? timer = some (action, false)

/-- All tasks are of the crew and stand as `st` says. -/
structure Rhythm (P : Pact σ ν) (crew : List Nat) (st : Nat → Stance) (busy : Option Nat)
    (rest : List (Job σ ν)) (k : Scheduler σ ν) : Prop where
  orderly : Orderly (fun t => (st t).waitsFor) busy rest k
  clockwork : Clockwork rest k
  jobs : ∀ j ∈ rest ++ k.ready.toList, OfCrew crew j
  stands : ∀ t ∈ crew, busy ≠ some t → Resting P rest k t (st t) ∨ Over P k t (st t)
  fresh : ∀ n, n ∉ crew → P.fresh n k.shared
  owned : ∀ timer ∈ calls rest k, ∀ action, k.duty? timer = some (action, false) →
    ∃ t ∈ crew, Owns k t (st t) timer action
  lone : P.alone → Lone crew st rest k

/-- If no task has its turn, all tasks rest or are over. -/
theorem Rhythm.stand {P : Pact σ ν} {crew : List Nat} {st : Nat → Stance} {rest : List (Job σ ν)}
    {k : Scheduler σ ν} (h : Rhythm P crew st none rest k) {t : Nat} (ht : t ∈ crew) :
    Resting P rest k t (st t) ∨ Over P k t (st t) :=
  h.stands t ht (Option.some_ne_none t).symm

/-- The task `me` has its turn, and stands with nothing but its hand. -/
structure AtWork (k : Scheduler σ ν) (crew : List Nat) (me : Nat) (s : Stance) : Prop where
  mine : me ∈ crew
  cell : ∃ cell ts, k.cells[me]? = some cell ∧ TaskCell cell ts ∧ ts.interruptDue = false ∧
    Grip k me ts.requests k.Soon s.hand
  repose : s.repose = .turn

/-! ### Steps of the busy task -/

/-- The busy task stands otherwise, and what was there of others is still there. -/
structure Steps (P : Pact σ ν) (crew : List Nat) (st st' : Nat → Stance) (me : Nat)
    (rest : List (Job σ ν)) (k k' : Scheduler σ ν) : Prop where
  stances : ∀ t, t ≠ me → st' t = st t
  clockwork : Clockwork rest k → Clockwork rest k'
  jobs : ∀ j ∈ k'.ready, j ∈ k.ready ∨ OfCrew crew j
  spares : ∀ t, t ≠ me → LeavesBe P t rest rest k k'
  owned : ∀ timer ∈ calls rest k', ∀ action, k'.duty? timer = some (action, false) →
    Owns k' me (st' me) timer action ∨
      timer ∈ calls rest k ∧ k.duty? timer = some (action, false) ∧ ¬ Owns k me (st me) timer action
  lone : P.alone → Lone crew st rest k → Lone crew st' rest k'

theorem Rhythm.step (hP : P.Lawful) (h : Rhythm P crew st (some me) rest k) (hme : me ∈ crew)
    {st' : Nat → Stance} (hs : Steps P crew st st' me rest k k')
    (horderly : Orderly (fun t => (st' t).waitsFor) busy rest k')
    (hrest : busy ≠ some me → Resting P rest k' me (st' me) ∨ Over P k' me (st' me)) :
    Rhythm P crew st' busy rest k' := by
  refine ⟨horderly, hs.clockwork h.clockwork, fun j hj => ?_, fun t ht hbusy => ?_, fun n hn => ?_,
    fun timer ht action hduty => ?_, fun halone => hs.lone halone (h.lone halone)⟩
  · rcases List.mem_append.mp hj with hj | hj
    · exact h.jobs j (List.mem_append_left _ hj)
    · exact (hs.jobs j (Array.mem_toList_iff.mp hj)).elim
        (fun hj => h.jobs j (List.mem_append_right _ (Array.mem_toList_iff.mpr hj))) id
  · by_cases heq : t = me
    · subst heq
      exact hrest hbusy
    · rw [hs.stances t heq]
      have hsp := hs.spares t heq
      exact (h.stands t ht fun h => heq (Option.some.inj h).symm).imp (·.spared hP hsp) (·.spared hP hsp)
  · exact hP.fresh (hs.spares n fun h => hn (h ▸ hme)).meanwhile (h.fresh n hn)
  · rcases hs.owned timer ht action hduty with howns | ⟨hcalled, hduty', hnot⟩
    · exact ⟨me, hme, howns⟩
    · obtain ⟨t, ht, howns⟩ := h.owned timer hcalled action hduty'
      have heq : t ≠ me := by
        rintro rfl
        exact hnot howns
      refine ⟨t, ht, ?_⟩
      rw [hs.stances t heq]
      cases action with
      | fire c => exact howns
      | ring a => exact ⟨howns.1, (hs.spares t heq).alarm a _ howns.2 rfl⟩

/-- Who has the turn and takes another alarm in hand stands as before otherwise. -/
def hold (st : Nat → Stance) (me : Nat) (hand : Hand) : Nat → Stance :=
  Function.update st me { st me with hand }

theorem hold_self (st : Nat → Stance) (me : Nat) (hand : Hand) :
    hold st me hand me = { st me with hand } :=
  Function.update_self ..

theorem hold_of_ne (st : Nat → Stance) {me : Nat} (hand : Hand) {t : Nat} (ht : t ≠ me) :
    hold st me hand t = st t :=
  Function.update_of_ne ht ..

theorem waitsFor_hold (st : Nat → Stance) (me : Nat) (hand : Hand) :
    (fun t => (hold st me hand t).waitsFor) = fun t => (st t).waitsFor := by
  funext t
  by_cases ht : t = me
  · subst ht
    rw [hold_self]
    rfl
  · rw [hold_of_ne st hand ht]

/-- Nothing is taken from anyone, and the shared state is the same. -/
theorem leavesBe_of_grows (hP : P.Lawful) (t : Nat) (rest : List (Job σ ν))
    (hshared : k'.shared = k.shared)
    (hcells : ∀ (c : Nat) cell, k.cells[c]? = some cell → c ≠ me → k'.cells[c]? = some cell)
    (hme : ∃ cell, k.cells[me]? = some cell ∧ cell.task ≠ none) (ht : t ≠ me)
    (hduty : ∀ timer x, k.duty? timer = some x → k'.duty? timer = some x)
    (halarms : ∀ (a : Nat) alarm, k.alarms[a]? = some alarm → k'.alarms[a]? = some alarm)
    (hqueue : ∀ x ∈ k.queue, x ∈ k'.queue) (hready : ∀ j ∈ k.ready, j ∈ k'.ready)
    (hclock : k'.clock = k.clock) : LeavesBe P t rest rest k k' where
  task cell hcell := hcells t cell hcell ht
  signal c cell hcell htask _ := hcells c cell hcell fun heq => by
    obtain ⟨cell', hcell', hsome⟩ := hme
    subst heq
    cases hcell.symm.trans hcell'
    exact hsome htask
  timer timer action h _ := ⟨hduty timer _ h, id⟩
  action timer action dropped h := ⟨dropped, hduty timer _ h⟩
  alarm a alarm ha _ := halarms a alarm ha
  queue := hqueue
  ready := hready
  woken _ := id
  clock := hclock
  meanwhile := hshared ▸ hP.refl t _

theorem AtWork.isTask {s : Stance} (hw : AtWork k crew me s) :
    ∃ cell, k.cells[me]? = some cell ∧ cell.task ≠ none := by
  obtain ⟨cell, ts, hcell, htask, -⟩ := hw.cell
  exact ⟨cell, hcell, by rw [htask.task]; nofun⟩

theorem AtWork.task? {s : Stance} (hw : AtWork k crew me s) :
    ∃ ts, k.task? me = some ts ∧ Grip k me ts.requests k.Soon s.hand := by
  obtain ⟨cell, ts, hcell, htask, -, hgrip⟩ := hw.cell
  exact ⟨ts, by rw [Scheduler.task?, hcell, Option.bind_some, htask.task], hgrip⟩

/-- Who has its turn owns no timer but that of its alarm. -/
theorem AtWork.owns {s : Stance} (hw : AtWork k crew me s) {timer : Nat} {action : TimerAction}
    (h : Owns k me s timer action) : ∃ a limit, action = .ring a ∧ s.hand = .armed a limit ∧
      k.alarms[a]? = some ⟨me, 0, timer, false⟩ := by
  cases action with
  | fire c =>
    obtain ⟨-, -, due, hdue⟩ := h
    rw [hw.repose] at hdue
    cases hdue
  | ring a =>
    obtain ⟨⟨limit, hhand⟩, ha⟩ := h
    exact ⟨a, limit, rfl, hhand, ha⟩

theorem Lone.hold {st : Nat → Stance} {hand : Hand} (h : Lone crew st rest k) (hme : me ∈ crew)
    (hhand : (st me).hand = .spent → hand = .spent) : Lone crew (hold st me hand) rest k := by
  refine { h with kept := h.kept.imp_left fun ⟨t, ht, hspent⟩ => ⟨me, hme, ?_⟩ }
  rw [h.sole t ht me hme] at hspent
  rw [hold_self]
  exact hhand hspent

/-- **The busy task changes the shared state.** -/
theorem Rhythm.put (hP : P.Lawful) (h : Rhythm P crew st (some me) rest k)
    (hw : AtWork k crew me (st me)) {s : σ}
    (hothers : ∀ o, o ≠ me → P.meanwhile o k.shared s) :
    Rhythm P crew st (some me) rest { k with shared := s } ∧
      AtWork { k with shared := s } crew me (st me) := by
  have hspares : ∀ t, t ≠ me → LeavesBe P t rest rest k { k with shared := s } := fun t ht =>
    { leavesBe_of_grows hP t rest rfl (fun _ _ h _ => h) hw.isTask ht (fun _ _ h => h) (fun _ _ h => h)
        (fun _ h => h) (fun _ h => h) rfl with meanwhile := hothers t ht }
  refine ⟨h.step hP hw.mine ⟨fun _ _ => rfl, fun hc => hc.same rfl rfl (le_refl _) (.refl _),
    fun _ => .inl, hspares, fun timer ht action hduty => ?_, fun _ hl => ⟨hl.sole, hl.cleared, hl.kept⟩⟩
    ⟨h.orderly.quiet, h.orderly.watched, h.orderly.once, h.orderly.woken, h.orderly.single⟩
    fun hne => absurd rfl hne, hw.mine, hw.cell, hw.repose⟩
  by_cases howns : Owns k me (st me) timer action
  · exact .inl (howns.congr fun _ _ h => h)
  · exact .inr ⟨ht, hduty, howns⟩

theorem duty?_push {timer : Timer} (htimers : k'.timers = k.timers.push timer) (t : Nat) :
    k'.duty? t = if t = k.timers.size then some (timer.action, timer.dropped) else k.duty? t := by
  unfold duty?
  rw [htimers, Array.getElem?_push]
  split <;> rfl

theorem Orderly.of_same {waits : Nat → Option Nat} (h : Orderly waits busy rest k)
    (hcells : k'.cells = k.cells) (hready : wakes k'.ready.toList = wakes k.ready.toList) :
    Orderly waits busy rest k' := by
  have hlive : ∀ t, k'.Live t ↔ k.Live t := fun t => by rw [live_iff, live_iff, hcells]
  have hstatus : ∀ c, k'.statusOf c = k.statusOf c := fun c => by rw [statusOf, statusOf, hcells]
  have hwakes : wakes (rest ++ k'.ready.toList) = wakes (rest ++ k.ready.toList) := by
    rw [wakes_append, wakes_append, hready]
  refine ⟨fun c cell hc => h.quiet c cell (hcells ▸ hc), fun c cell hc t ht => ?_,
    fun c cell hc => h.once c cell (hcells ▸ hc), fun w hw => ?_, fun t ht => ?_⟩
  · obtain ⟨hlt, hbusy, hwaits⟩ := h.watched c cell (hcells ▸ hc) t ht
    exact ⟨hcells ▸ hlt, hbusy, fun hl => hwaits ((hlive t).mp hl)⟩
  · obtain ⟨hlt, hbusy, hwaits⟩ := h.woken w (hwakes ▸ hw)
    refine ⟨hcells ▸ hlt, hbusy, fun hl => ?_⟩
    obtain ⟨heq, hdone⟩ := hwaits ((hlive _).mp hl)
    exact ⟨heq, fun c hc => ⟨hcells ▸ (hdone c hc).1, (hstatus c).symm ▸ (hdone c hc).2⟩⟩
  · exact hwakes ▸ h.single t ((hlive t).mp ht)

/-- A timer is set for a task, in the queue or as a job that is ready. -/
structure NewTimer (rest : List (Job σ ν)) (action : TimerAction) (due : Rat)
    (k k' : Scheduler σ ν) : Prop where
  shared : k'.shared = k.shared
  cells : k'.cells = k.cells
  clock : k'.clock = k.clock
  timers : ∃ timer : Timer, timer.action = action ∧ timer.dropped = false ∧
    k'.timers = k.timers.push timer
  clockwork : Clockwork rest k'
  queue : ∀ x ∈ k.queue, x ∈ k'.queue
  ready : k'.ready = k.ready ∨ k'.ready = k.ready.push (.timer k.timers.size)
  soon : k'.Soon k.timers.size due
  calls : (calls rest k').Perm (calls rest k ++ [k.timers.size])

theorem NewTimer.duty {action : TimerAction} {due : Rat} (h : NewTimer rest action due k k')
    (timer : Nat) :
    k'.duty? timer = if timer = k.timers.size then some (action, false) else k.duty? timer := by
  obtain ⟨t, haction, hdropped, htimers⟩ := h.timers
  rw [duty?_push htimers, haction, hdropped]

theorem duty?_lt {timer : Nat} {x : TimerAction × Bool} (h : k.duty? timer = some x) :
    timer < k.timers.size := by
  unfold duty? at h
  obtain ⟨t, ht, -⟩ := Option.map_eq_some_iff.mp h
  exact (Array.getElem?_eq_some_iff.mp ht).1

theorem NewTimer.old {action : TimerAction} {due : Rat} (h : NewTimer rest action due k k')
    {timer : Nat} {x : TimerAction × Bool} (hx : k.duty? timer = some x) :
    k'.duty? timer = some x := by
  rw [h.duty, if_neg (Nat.ne_of_lt (duty?_lt hx)), hx]

theorem NewTimer.mem_ready {action : TimerAction} {due : Rat} (h : NewTimer rest action due k k')
    {j : Job σ ν} (hj : j ∈ k.ready) : j ∈ k'.ready := by
  rcases h.ready with heq | heq
  · exact heq ▸ hj
  · exact heq ▸ Array.mem_push_of_mem _ hj

theorem NewTimer.wakes {action : TimerAction} {due : Rat} (h : NewTimer rest action due k k') :
    Scheduler.wakes k'.ready.toList = Scheduler.wakes k.ready.toList := by
  rcases h.ready with heq | heq
  · rw [heq]
  · rw [heq, Array.toList_push, wakes_append]
    exact List.append_nil _

theorem newTimer_addTimer (h : Clockwork rest k) {d : Rat}
    (hd : k.clock ≤ Binary64.snap (k.clock + d)) (action : TimerAction) :
    NewTimer rest action (dueAfter k.clock d) k (k.addTimer d action).2 where
  shared := rfl
  cells := rfl
  clock := rfl
  timers := ⟨{ action }, rfl, rfl, rfl⟩
  clockwork := h.addTimer hd action
  queue _ hx := TimerHeap.mem_push.mpr (.inl hx)
  ready := .inl rfl
  soon := .inl (TimerHeap.mem_push.mpr (.inr (by rw [dueAfter, max_eq_right hd])))
  calls := calls_addTimer ..

/-- A timer whose time has come when it is set is ready at once. -/
theorem newTimer_push (h : Clockwork rest k) {d : Rat} {action : TimerAction}
    (hd : Binary64.snap (k.clock + d) ≤ k.clock) (alarms : Array Alarm) :
    NewTimer rest action (dueAfter k.clock d) k { k with
      timers := k.timers.push { action, queued := false }
      ready := k.ready.push (.timer k.timers.size), alarms } := by
  have hcalls : (Scheduler.calls rest { k with
      timers := k.timers.push { action, queued := false }
      ready := k.ready.push (.timer k.timers.size), alarms }).Perm
        (Scheduler.calls rest k ++ [k.timers.size]) := by
    have hpush : timersOf (rest ++ (k.ready.push (.timer k.timers.size)).toList) =
        timersOf (rest ++ k.ready.toList) ++ [k.timers.size] := by
      rw [Array.toList_push, ← List.append_assoc, timersOf_append]
      rfl
    unfold Scheduler.calls
    rw [hpush, List.append_assoc, List.append_assoc]
    exact List.perm_append_comm.append_left _
  refine ⟨rfl, rfl, rfl, ⟨_, rfl, rfl, rfl⟩, h.call h.order rfl h.ahead rfl hcalls, fun _ hx => hx,
    .inr rfl, .inr ⟨Array.mem_push_self, ?_⟩, hcalls⟩
  rw [dueAfter, max_eq_left hd]

theorem NewTimer.withAlarms {action : TimerAction} {due : Rat}
    (h : NewTimer rest action due k k') (alarms : Array Alarm) :
    NewTimer rest action due k { k' with alarms } :=
  have hc := h.clockwork
  ⟨h.shared, h.cells, h.clock, h.timers, ⟨hc.order, hc.clock, hc.ahead, hc.known, hc.once⟩, h.queue,
    h.ready, h.soon, h.calls⟩

/-- An alarm of the busy task is one more timer and one more alarm. -/
theorem newTimer_setAlarm (h : Clockwork rest k) (hw : AtWork k crew me (st me))
    (hhand : (st me).hand.Unarmed) (d : Rat) :
    (k.setAlarm me d).1 = k.alarms.size ∧
      NewTimer rest (.ring k.alarms.size) (dueAfter k.clock d) k (k.setAlarm me d).2 ∧
      (k.setAlarm me d).2.alarms = k.alarms.push ⟨me, 0, k.timers.size, false⟩ := by
  obtain ⟨ts, hts, hgrip⟩ := hw.task?
  have hnone : ts.requests = 0 := by
    cases hh : (st me).hand with
    | clean | spent => rw [hh] at hgrip; exact hgrip
    | armed | struck => rw [hh] at hhand; exact hhand.elim
  unfold Scheduler.setAlarm
  simp only [hts, Option.map_some, Option.getD_some, hnone]
  split
  · rename_i hnow
    exact ⟨trivial, newTimer_push h hnow _, rfl⟩
  · rename_i hlater
    exact ⟨trivial, (newTimer_addTimer h (not_le.mp hlater).le _).withAlarms _, rfl⟩

theorem AtWork.grows {s s' : Stance} (hw : AtWork k crew me s) (hcells : k'.cells = k.cells)
    (hrepose : s'.repose = .turn)
    (hgrip : ∀ requests, Grip k me requests k.Soon s.hand → Grip k' me requests k'.Soon s'.hand) :
    AtWork k' crew me s' := by
  obtain ⟨cell, ts, hcell, htask, hidle, hg⟩ := hw.cell
  exact ⟨hw.mine, ⟨cell, ts, hcells ▸ hcell, htask, hidle, hgrip _ hg⟩, hrepose⟩

/-- **The busy task sets an alarm.** -/
theorem Rhythm.setAlarm (hP : P.Lawful) (h : Rhythm P crew st (some me) rest k)
    (hw : AtWork k crew me (st me)) (hhand : (st me).hand.Unarmed)
    (halone : P.alone → (st me).hand = .clean) (d : Rat) :
    Rhythm P crew (hold st me (.armed k.alarms.size (dueAfter k.clock d))) (some me) rest
        (k.setAlarm me d).2 ∧
      AtWork (k.setAlarm me d).2 crew me
        (hold st me (.armed k.alarms.size (dueAfter k.clock d)) me) := by
  obtain ⟨-, hnew, halarms⟩ := newTimer_setAlarm h.clockwork hw hhand d
  generalize (k.setAlarm me d).2 = k' at hnew halarms
  have hkept : ∀ (a : Nat) alarm, k.alarms[a]? = some alarm → k'.alarms[a]? = some alarm := by
    intro a alarm ha
    rw [halarms, Array.getElem?_push, if_neg (Nat.ne_of_lt (Array.getElem?_eq_some_iff.mp ha).1)]
    exact ha
  have hself : k'.alarms[k.alarms.size]? = some ⟨me, 0, k.timers.size, false⟩ :=
    halarms ▸ Array.getElem?_push_size
  have hspares : ∀ t, t ≠ me → LeavesBe P t rest rest k k' := fun t ht =>
    leavesBe_of_grows hP t rest hnew.shared (fun _ _ h _ => hnew.cells ▸ h) hw.isTask ht
      (fun _ _ => hnew.old) hkept hnew.queue (fun _ => hnew.mem_ready) hnew.clock
  constructor
  · refine h.step hP hw.mine ⟨fun t ht => hold_of_ne st _ ht, fun _ => hnew.clockwork,
      fun j hj => ?_, hspares, fun timer ht action hduty => ?_, fun hal hl => ?_⟩ ?_
      fun hne => absurd rfl hne
    · rcases hnew.ready with heq | heq
      · exact .inl (heq ▸ hj)
      · rw [heq, Array.mem_push] at hj
        rcases hj with hj | rfl
        · exact .inl hj
        · exact .inr trivial
    · rw [hnew.duty] at hduty
      split at hduty
      · rename_i heq
        cases hduty
        rw [hold_self, heq]
        exact .inl ⟨⟨_, rfl⟩, hself⟩
      · rename_i hne
        refine .inr ⟨?_, hduty, fun howns => ?_⟩
        · exact (List.mem_append.mp (hnew.calls.mem_iff.mp ht)).resolve_right fun hin =>
            hne (List.mem_singleton.mp hin)
        · obtain ⟨a, limit, -, harmed, -⟩ := hw.owns howns
          rw [harmed] at hhand
          exact hhand
    · -- the task that is alone has dropped no alarm in this turn
      have hclean := halone hal
      have hkept := hl.kept.resolve_left fun ⟨t, ht, hspent⟩ => by
        rw [hl.sole t ht me hw.mine, hclean] at hspent
        cases hspent
      refine ⟨hl.sole, fun hrest => ?_, .inr fun timer ht => ?_⟩
      · -- nobody else is woken in this round
        refine absurd ?_ hrest
        refine List.eq_nil_iff_forall_not_mem.mpr fun w hw' => ?_
        have hjob := h.jobs _ (List.mem_append_left _ (mem_wakes.mp hw'))
        refine h.orderly.not_woken (List.mem_map.mpr ⟨w, ?_, hl.sole _ hjob _ hw.mine⟩)
        rw [wakes_append]
        exact List.mem_append_left _ hw'
      · rw [hnew.duty]
        split
        · exact ⟨_, rfl⟩
        · rename_i hne
          refine hkept timer ?_
          rcases hnew.ready with heq | heq
          · exact heq ▸ ht
          · rw [mem_timersOf, Array.mem_toList_iff, heq, Array.mem_push] at ht
            refine mem_timersOf.mpr (Array.mem_toList_iff.mpr (ht.resolve_right fun heq => hne ?_))
            cases heq
            rfl
    · rw [waitsFor_hold]
      exact h.orderly.of_same hnew.cells hnew.wakes
  · refine hw.grows hnew.cells (by rw [hold_self]; exact hw.repose) fun requests hgrip => ?_
    rw [hold_self]
    refine ⟨?_, k.timers.size, hself, by rw [hnew.duty, if_pos rfl], hnew.soon⟩
    cases hh : (st me).hand with
    | clean | spent => rw [hh] at hgrip; exact hgrip
    | armed | struck => rw [hh] at hhand; exact hhand.elim

end ChatCommands.Concurrency.Scheduler
