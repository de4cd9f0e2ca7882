import ChatCommands.Proofs.Concurrency.Turning

/-!
Timers of tasks that wait for nothing but the time.

A timer that is called for rouses the task that has set it, or strikes it as its alarm, or has come to
be of no use.  Main statement: `Rhythm.ring`.
-/

namespace ChatCommands.Concurrency.Scheduler

variable {σ ν : Type} {P : Pact σ ν} {k k' : Scheduler σ ν} {rest : List (Job σ ν)}
  {crew : List Nat} {st : Nat → Stance} {t timer : Nat}

theorem calls_timer (timer : Nat) (rest : List (Job σ ν)) (k : Scheduler σ ν) :
    calls (.timer timer :: rest) k = timer :: calls rest k :=
  rfl

/-- A timer that is called for now is not called for again. -/
theorem Clockwork.head (h : Clockwork (.timer timer :: rest) k) :
    .timer timer ∉ rest ∧ .timer timer ∉ k.ready ∧ ∀ due, (due, timer) ∉ k.queue := by
  have hnot : timer ∉ calls rest k := (List.nodup_cons.mp (calls_timer timer rest k ▸ h.once)).1
  refine ⟨fun hin => hnot ?_, fun hin => hnot ?_, fun due hin => hnot ?_⟩
  · exact List.mem_append_left _ (mem_timersOf.mpr (List.mem_append_left _ hin))
  · exact List.mem_append_left _ (mem_timersOf.mpr
      (List.mem_append_right _ (Array.mem_toList_iff.mpr hin)))
  · exact List.mem_append_right _ (List.mem_map.mpr ⟨_, Array.mem_toList_iff.mpr hin, rfl⟩)

theorem Clockwork.tail (h : Clockwork (.timer timer :: rest) k) : Clockwork rest k :=
  h.same rfl rfl (le_refl _) (List.sublist_cons_self ..)

theorem Clockwork.not_soon (h : Clockwork (.timer timer :: rest) k) {due : Rat} :
    ¬ k.Soon timer due :=
  fun hs => hs.elim (h.head.2.2 due) fun hs => h.head.2.1 hs.1

theorem Clockwork.not_later (h : Clockwork (.timer timer :: rest) k) {due : Rat} :
    ¬ k.Later timer due :=
  fun hl => h.head.2.2 due hl.1

/-- A timer has done what it is for. -/
structure Rung (P : Pact σ ν) (crew : List Nat) (st : Nat → Stance) (rest : List (Job σ ν))
    (k k' : Scheduler σ ν) : Prop where
  shared : k'.shared = k.shared
  calls : calls rest k' = Scheduler.calls rest k
  rhythm : Rhythm P crew st none rest k'

/-- A timer that is of no use to anyone. -/
theorem Rhythm.skipTimer (hP : P.Lawful) (h : Rhythm P crew st none (.timer timer :: rest) k)
    (hnot : ∀ action, k.duty? timer = some (action, false) → ∀ t, ¬ Concerns k t action) :
    Rung P crew st rest k k := by
  refine ⟨rfl, rfl, h.orderly.skip, h.clockwork.tail,
    fun j hj => h.jobs j (List.mem_cons_of_mem _ hj), fun t ht _ => ?_, h.fresh,
    fun i hi => h.owned i (List.mem_cons_of_mem _ hi),
    fun hal => ⟨(h.lone hal).sole, (h.lone hal).cleared, (h.lone hal).kept⟩⟩
  have hskip : LeavesBe P t (.timer timer :: rest) rest k k :=
    leavesBe_skip hP nofun fun i action heq hi hof => by cases heq; exact hnot action hi t hof
  exact (h.stand ht).imp (·.spared hP hskip) (·.spared hP hskip)

/-- A timer has done something for the task `t`, and for nobody else. -/
structure Touches (k k' : Scheduler σ ν) (t timer : Nat) : Prop where
  shared : k'.shared = k.shared
  clock : k'.clock = k.clock
  queue : k'.queue = k.queue
  timers : k'.timers = k.timers
  cells : ∀ (j : Nat) cell, k.cells[j]? = some cell → j ≠ t →
    (Signal cell .pending → ∀ w, cell.watchers ≠ [(w, .resume t)]) → k'.cells[j]? = some cell
  alarms : ∀ (a : Nat) alarm, k.alarms[a]? = some alarm →
    k'.alarms[a]? = some alarm ∨ alarm.task = t ∧ alarm.timer = timer
  ready : ∃ c, k'.ready = k.ready ∨ k'.ready = k.ready.push (.turn t c)
  order : ∀ waits busy rest, Orderly waits busy rest k → Orderly waits busy rest k'

theorem Touches.spares (hP : P.Lawful) (ht : Touches k k' t timer) {t' : Nat} {s : Stance}
    (hne : t' ≠ t) (hmine : ∀ action, k.duty? timer = some (action, false) →
      ¬ Concerns k t' action)
    (htask : ∃ cell, k.cells[t]? = some cell ∧ cell.task ≠ none)
    (hstands : Resting P (.timer timer :: rest) k t' s ∨ Over P k t' s) :
    LeavesBe P t' (.timer timer :: rest) rest k k' := by
  have hcell : ∃ cell, k.cells[t']? = some cell ∧ ¬ Signal cell .pending := by
    rcases hstands with ⟨cell, ts, hr⟩ | ho
    · exact ⟨cell, hr.found, fun hs => nomatch hr.task.task.symm.trans hs.task⟩
    · obtain ⟨cell, r, hc, -, hended, -⟩ := ho.ended
      exact ⟨cell, hc, fun hs => nomatch hended.symm.trans hs.status⟩
  have hskip : LeavesBe P t' (.timer timer :: rest) rest k k :=
    leavesBe_skip hP nofun fun i action heq hi => by cases heq; exact hmine action hi
  refine hskip.trans hP ⟨fun cell hc => ?_, fun c cell hc hnone hof => ?_, fun i action hi _ => ⟨?_, id⟩,
    fun i action dropped hi => ⟨dropped, ?_⟩, fun a alarm ha hof => ?_, fun x hx => ht.queue ▸ hx,
    fun j hj => ?_, fun _ => id, ht.clock, ht.shared ▸ hP.refl _ _⟩
  · obtain ⟨cell', hc', hsignal⟩ := hcell
    cases hc.symm.trans hc'
    exact ht.cells _ cell hc hne fun hs => absurd hs hsignal
  · refine ht.cells c cell hc ?_ fun hs w hw => ?_
    · rintro rfl
      obtain ⟨cell', hc', hsome⟩ := htask
      cases hc.symm.trans hc'
      exact hsome hnone
    · rcases hof with hdone | ⟨w', hw'⟩
      · rw [hs.status] at hdone
        cases hdone
      · cases hw.symm.trans hw'
        exact hne rfl
  · rw [duty?, ht.timers]
    exact hi
  · rw [duty?, ht.timers]
    exact hi
  · exact (ht.alarms a alarm ha).resolve_right fun h => hne (hof.symm.trans h.1)
  · obtain ⟨c, heq | heq⟩ := ht.ready
    · exact heq ▸ hj
    · exact heq ▸ Array.mem_push_of_mem _ hj

theorem Touches.timersOf_ready (ht : Touches k k' t timer) :
    timersOf k'.ready.toList = timersOf k.ready.toList := by
  obtain ⟨c, heq | heq⟩ := ht.ready
  · rw [heq]
  · rw [heq, Array.toList_push, timersOf_append]
    exact List.append_nil _

/-- **A timer does what it is for.** -/
theorem Rhythm.touch (hP : P.Lawful) (h : Rhythm P crew st none (.timer timer :: rest) k)
    (htouch : Touches k k' t timer) (ht : t ∈ crew)
    (htask : ∃ cell, k.cells[t]? = some cell ∧ cell.task ≠ none)
    (hmine : ∀ action, k.duty? timer = some (action, false) → ∀ t', t' ≠ t →
      ¬ Concerns k t' action) (hrests : Resting P rest k' t (st t)) :
    Rung P crew st rest k k' := by
  have hcalls : calls rest k' = calls rest k := by
    rw [calls, calls, timersOf_append, timersOf_append, htouch.timersOf_ready, htouch.queue]
  refine ⟨htouch.shared, hcalls, (htouch.order _ _ _ h.orderly).skip, ?_, fun j hj => ?_, fun t' ht' _ => ?_, fun n hn => ?_,
    fun i hi action hduty => ?_, fun hal => ?_⟩
  · refine h.clockwork.tail.same htouch.clock htouch.queue (by rw [htouch.timers]) ?_
    rw [timersOf_append, timersOf_append, htouch.timersOf_ready]
  · rcases List.mem_append.mp hj with hj | hj
    · exact h.jobs j (List.mem_append_left _ (List.mem_cons_of_mem _ hj))
    · obtain ⟨c, heq | heq⟩ := htouch.ready
      · exact h.jobs j (List.mem_append_right _ (heq ▸ hj))
      · rw [heq, Array.mem_toList_iff] at hj
        rcases Array.mem_push.mp hj with hj | rfl
        · exact h.jobs j (List.mem_append_right _ (Array.mem_toList_iff.mpr hj))
        · exact ht
  · by_cases heq : t' = t
    · exact .inl (heq ▸ hrests)
    · have hs := htouch.spares hP heq (fun action hd => hmine action hd t' heq) htask
        (h.stand ht')
      exact (h.stand ht').imp (·.spared hP hs) (·.spared hP hs)
  · rw [htouch.shared]
    exact h.fresh n hn
  · rw [hcalls] at hi
    rw [duty?, htouch.timers] at hduty
    have hne : i ≠ timer := by
      rintro rfl
      exact (List.nodup_cons.mp h.clockwork.once).1 hi
    obtain ⟨t', ht', howns⟩ := h.owned i (List.mem_cons_of_mem _ hi) action hduty
    refine ⟨t', ht', ?_⟩
    cases action with
    | fire c => exact howns
    | ring a =>
      exact ⟨howns.1, (htouch.alarms a _ howns.2).resolve_right fun ha => hne ha.2⟩
  · have hl := h.lone hal
    refine ⟨hl.sole, fun hw => ?_, ?_⟩
    · rw [htouch.timersOf_ready]
      exact hl.cleared hw
    · rw [htouch.timersOf_ready]
      refine hl.kept.imp_right fun hkept i hi => ?_
      obtain ⟨action, hd⟩ := hkept i hi
      exact ⟨action, by rw [duty?, htouch.timers]; exact hd⟩

/-! ### Timers that rouse -/

theorem fire_done {c : Nat} {cell : Cell σ ν} {status : CellStatus ν} (hc : k.cells[c]? = some cell)
    (hs : Signal cell status) (hdone : status.isDone = true) : k.fire c = k := by
  unfold fire
  rw [hc]
  simp only [if_neg (Nat.not_lt.mpr hs.plain.count), hs.plain.membersInterrupted,
    Bool.false_eq_true, if_false]
  unfold settle
  rw [hc]
  exact if_pos (hs.status ▸ hdone)

/-- The cell of a signal to which something has happened. -/
theorem settle_signal {c w : Nat} {cell : Cell σ ν} (hc : k.cells[c]? = some cell)
    (hs : Signal cell .pending) (hw : cell.watchers = [(w, .resume t)]) (status : CellStatus ν) :
    ∃ cell', Signal cell' status ∧ (k.settle c status).cells[c]? = some cell' ∧
      (∀ i : Nat, i ≠ c → (k.settle c status).cells[i]? = k.cells[i]?) ∧
      (k.settle c status).ready = k.ready.push (.turn t (some c)) ∧
      (k.settle c status).shared = k.shared ∧ (k.settle c status).clock = k.clock ∧
      (k.settle c status).queue = k.queue ∧ (k.settle c status).timers = k.timers ∧
      (k.settle c status).alarms = k.alarms := by
  have heq : k.settle c status = { k.modifyCell c fun cell =>
      { cell with status := status, watchers := [], task := none } with
        ready := k.ready.push (.turn t (some c)) } := by
    unfold settle
    rw [hc]
    simp only [hs.status, CellStatus.isDone, Bool.false_eq_true, if_false, hw, List.foldl_cons,
      List.foldl_nil]
    rfl
  rw [heq]
  refine ⟨{ cell with status := status, watchers := [], task := none },
    ⟨⟨hs.plain.count, hs.plain.members, hs.plain.membersInterrupted⟩, rfl, rfl⟩, ?_, fun i hi => ?_,
    rfl, rfl, rfl, rfl, rfl, rfl⟩
  · refine (k.getElem?_modifyCell c c _).trans ?_
    rw [if_pos rfl, hc]
    rfl
  · exact (k.getElem?_modifyCell c i _).trans (if_neg (Ne.symm hi))

theorem Stays.head {rest : List (Job σ ν)} {i : Nat} {due : Rat}
    (h : Stays (.timer timer :: rest) k i due) (hne : i ≠ timer) : Stays rest k i due := by
  refine h.imp_right fun ⟨hin, hd⟩ => ⟨?_, hd⟩
  rcases List.mem_cons.mp hin with heq | hin
  · cases heq
    exact absurd rfl hne
  · exact hin

/-- What does not touch alarms or timers leaves a hand as it is. -/
theorem Grip.same {requests : Nat} {place place' : Nat → Rat → Prop} {hand : Hand}
    (h : Grip k t requests place hand) (halarms : k'.alarms = k.alarms)
    (htimers : k'.timers = k.timers)
    (hplace : ∀ a timer due, k.duty? timer = some (.ring a, false) → place timer due →
      place' timer due) : Grip k' t requests place' hand :=
  h.imp (fun a alarm ha _ => halarms ▸ ha) fun a i due hi _ hp =>
    ⟨by rw [duty?, htimers]; exact hi, hplace a i due hi hp⟩

theorem Stays.of_same {rest : List (Job σ ν)} {i : Nat} {due : Rat} (h : Stays rest k i due)
    (hclock : k'.clock = k.clock) (hqueue : k'.queue = k.queue) : Stays rest k' i due := by
  unfold Stays Later at h ⊢
  rwa [hclock, hqueue]

/-- **A task is roused** by the timer that it has set. -/
theorem Rhythm.rouse (hP : P.Lawful) {c : Nat}
    (h : Rhythm P crew st none (.timer timer :: rest) k)
    (hduty : k.duty? timer = some (.fire c, false)) :
    Rung P crew st rest k (k.fire c) := by
  obtain ⟨t, ht, htimer, hsignal, due, hdue⟩ := h.owned timer List.mem_cons_self _ hduty
  have hnone : ∀ {cell : Cell σ ν} {status : CellStatus ν}, k.cells[c]? = some cell →
      Signal cell status → status.isDone = true → Rung P crew st rest k (k.fire c) := by
    intro cell status hc hs hdone
    rw [fire_done hc hs hdone]
    refine h.skipTimer hP fun action ha t' hof => ?_
    cases hduty.symm.trans ha
    obtain ⟨cell', w, hc', hs', -⟩ := hof
    cases hc.symm.trans hc'
    rw [← hs.status, hs'.status] at hdone
    cases hdone
  rcases h.stand ht with ⟨cell, ts, hr⟩ | hover
  · cases hr.phase with
    | new ha =>
      exact absurd (htimer ▸ (ha.nap due hdue).2) h.clockwork.not_soon
    | old ha hexact =>
      obtain ⟨sc, w, hc, hpending, hwatch⟩ := ha.signal
      rw [hsignal] at hc
      obtain ⟨-, hplace⟩ := ha.nap due hdue
      rw [htimer] at hplace
      obtain ⟨-, hdueNow, hle⟩ := hplace.resolve_left h.clockwork.not_later
      have hfire : k.fire c = k.settle c .fired := by
        unfold fire
        rw [hc]
        simp only [if_neg (Nat.not_lt.mpr hpending.plain.count), hpending.plain.membersInterrupted,
          Bool.false_eq_true, if_false]
      have horder := keepsOrder_fire k c
      rw [hfire] at horder ⊢
      obtain ⟨sc', hfired, hc', hcells, hready, hshared, hclock, hqueue, htimers, halarms⟩ :=
        settle_signal hc hpending hwatch .fired
      have hwaits : (st t).waitsFor = some c := by
        rw [Stance.waitsFor, hdue]
        exact congrArg some hsignal
      have htc : t ≠ c := by
        rintro rfl
        cases hc.symm.trans hr.found
        cases hr.task.task.symm.trans hpending.task
      refine h.touch hP (t := t) ⟨hshared, hclock, hqueue, htimers, fun j cell' hj hjt hjc => ?_,
        fun a alarm ha => .inl (halarms ▸ ha), ⟨some c, .inr hready⟩, horder.order⟩ ht
        ⟨cell, hr.found, by rw [hr.task.task]; exact Option.some_ne_none ts⟩ (fun action ha' t' hne hof => ?_) ?_
      · rw [hcells j fun heq => ?_]
        · exact hj
        · subst heq
          cases hj.symm.trans hc
          exact hjc hpending w hwatch
      · cases hduty.symm.trans ha'
        obtain ⟨cell', w', hc'', -, hw'⟩ := hof
        cases hc.symm.trans hc''
        cases hwatch.symm.trans hw'
        exact hne rfl
      · refine ⟨cell, ts, (hcells t htc).trans hr.found, hr.task, hr.mayRest, fun due hdue => ?_, ?_,
          .roused ⟨ha.waiting.trans (by rw [hwaits, hsignal]), ha.idle, fun c'' hc'' => ?_, ?_, .inl ⟨?_, ?_⟩⟩⟩
        · rw [duty?, htimers]
          exact hr.timer due hdue
        · rw [hshared]
          exact hr.prepared
        · rw [hwaits] at hc''
          cases hc''
          exact ⟨sc', hc', hfired⟩
        · rw [OnTime, hdue, hclock]
          exact ⟨hdueNow, hle, hexact⟩
        · rw [hwaits, hready]
          exact mem_wakes.mpr (Array.mem_toList_iff.mpr Array.mem_push_self)
        · refine ha.grip.same halarms htimers fun a i due hi hp => (hp.head ?_).of_same hclock hqueue
          rintro rfl
          cases hduty.symm.trans hi
    | roused hroused =>
      obtain ⟨sc, hc, hs⟩ := hroused.signal c (by rw [Stance.waitsFor, hdue]; exact congrArg some hsignal)
      exact hnone hc hs rfl
    | struck hstruck =>
      obtain ⟨sc, hc, hs⟩ := hstruck.signal
      rw [hsignal] at hc
      exact hs.elim (fun hs => hnone hc hs.1 rfl) fun hs => hnone hc hs rfl
  · rw [hover.repose] at hdue
    cases hdue

/-! ### Alarms that strike -/

theorem interruptCell_signal (fuel : Nat) {c : Nat} {cell : Cell σ ν} {status : CellStatus ν}
    (hc : k.cells[c]? = some cell) (hs : Signal cell status) :
    interruptCell (fuel + 1) k c = if status.isDone then (false, k)
      else (true, k.settle c (.ended (.error .interrupted))) := by
  unfold interruptCell
  rw [hc]
  simp only [hs.status, hs.task, hs.plain.members, List.isEmpty_nil, if_true]

/-- One more interruption is asked for. -/
def ask (k : Scheduler σ ν) (t : Nat) : Scheduler σ ν :=
  k.modifyTask t fun s => { s with requests := s.requests + 1 }

theorem interruptCell_task (fuel : Nat) {c : Nat} {cell : Cell σ ν} {ts : TaskState σ ν}
    (hcell : k.cells[t]? = some cell) (htask : TaskCell cell ts)
    (hwaiting : ts.waitingFor = some c) :
    (interruptCell (fuel + 1) k t).2 = if (interruptCell fuel (k.ask t) c).1
      then (interruptCell fuel (k.ask t) c).2
      else (interruptCell fuel (k.ask t) c).2.modifyTask t fun s => { s with interruptDue := true } := by
  conv_lhs => unfold interruptCell
  rw [hcell]
  simp only [htask.status, CellStatus.isDone, Bool.false_eq_true, if_false, htask.task, hwaiting]
  rfl

/-- Who waits for a signal is interrupted there, or at its next turn if the signal is fired. -/
theorem interrupt_eq {c : Nat} {cell sc : Cell σ ν} {ts : TaskState σ ν} {status : CellStatus ν}
    (hcell : k.cells[t]? = some cell) (htask : TaskCell cell ts) (hwaiting : ts.waitingFor = some c)
    (hc : k.cells[c]? = some sc) (hs : Signal sc status) :
    (k.ask t).cells[c]? = some sc ∧ c ≠ t ∧ k.interrupt t = if status.isDone
      then (k.ask t).modifyTask t fun s => { s with interruptDue := true }
      else (k.ask t).settle c (.ended (.error .interrupted)) := by
  have hne : c ≠ t := by
    rintro rfl
    cases hc.symm.trans hcell
    exact nomatch htask.task.symm.trans hs.task
  have hc' : (k.ask t).cells[c]? = some sc := (k.getElem?_modifyTask _ hne).trans hc
  obtain ⟨size, hsize⟩ : ∃ size, k.cells.size = size + 1 :=
    ⟨_, (Nat.succ_pred_eq_of_pos (Nat.zero_lt_of_lt (Array.getElem?_eq_some_iff.mp hcell).1)).symm⟩
  refine ⟨hc', hne, ?_⟩
  unfold interrupt
  rw [interruptCell_task _ hcell htask hwaiting, hsize, interruptCell_signal size hc' hs]
  cases status.isDone <;> rfl

theorem Stays.le {rest : List (Job σ ν)} {i : Nat} {due : Rat} (h : Stays rest k i due)
    {rest' : List (Job σ ν)} (hc : Clockwork rest' k) : k.clock ≤ due :=
  h.elim (fun hl => (hc.ahead _ hl.1).1) fun hn => hn.2.2

/-- The alarm has rung. -/
def rung (k : Scheduler σ ν) (a : Nat) : Scheduler σ ν :=
  { k with alarms := k.alarms.modify a fun alarm => { alarm with rung := true } }

theorem getElem?_rung (k : Scheduler σ ν) (a i : Nat) : (k.rung a).alarms[i]? =
    if a = i then k.alarms[i]?.map fun alarm => { alarm with rung := true } else k.alarms[i]? :=
  Array.getElem?_modify

theorem RestsAs.waitsFor {s : Stance} {cell : Cell σ ν} {ts : TaskState σ ν}
    (hr : RestsAs P rest k t s cell ts) {a : Nat} {limit : Rat} (hhand : s.hand = .armed a limit) :
    s.waitsFor = some s.signal := by
  have hmay := hr.mayRest
  unfold Stance.waitsFor
  cases hrepose : s.repose with
  | turn =>
    rw [hhand, hrepose] at hmay
    exact hmay.elim
  | «until» _ | forever => rfl

/-- A task that sleeps is struck. -/
theorem RestsAs.strikeAsleep {s : Stance} {cell : Cell σ ν} {ts : TaskState σ ν} {a : Nat}
    {limit : Rat} (hr : RestsAs P (.timer timer :: rest) k t s cell ts)
    (hasleep : Asleep k t s ts (Stays (.timer timer :: rest) k)) (hexact : P.alone → Exact s k.clock)
    (hc : Clockwork (.timer timer :: rest) k) (hhand : s.hand = .armed a limit)
    (hdue : Due k.clock limit) (hle : k.clock ≤ limit) (hnone : ts.requests = 0) :
    Touches k (k.interrupt t) t timer ∧
      (((k.interrupt t).rung a).alarms[a]? = some ⟨t, 0, timer, true⟩ →
        Resting P rest ((k.interrupt t).rung a) t s) := by
  obtain ⟨sc, w, hsc, hpending, hwatch⟩ := hasleep.signal
  obtain ⟨hsc', hne, heq⟩ := interrupt_eq hr.found hr.task hasleep.waiting hsc hpending
  have horder := k.keepsOrder_interrupt t
  rw [if_neg (by simp [CellStatus.isDone])] at heq
  obtain ⟨sc', hended, hcc, hcells, hready, hshared, hclock, hqueue, htimers, halarms⟩ :=
    settle_signal hsc' hpending hwatch (.ended (.error .interrupted))
  obtain ⟨cell', hcell', htask'⟩ := k.modifyTask_cell hr.found hr.task
    (f := fun s => { s with requests := s.requests + 1 }) rfl
  rw [← heq] at hcc hcells hready hshared hclock hqueue htimers halarms
  refine ⟨⟨hshared, hclock, hqueue, htimers, fun j cj hj hjt hjc => ?_,
    fun i alarm hi => .inl (halarms ▸ hi), ⟨_, .inr hready⟩, horder.order⟩, fun hrung => ?_⟩
  · refine (hcells j fun heq => ?_).trans ((k.getElem?_modifyTask _ hjt).trans hj)
    subst heq
    cases hj.symm.trans hsc
    exact hjc hpending w hwatch
  · refine ⟨cell', _, (hcells t (Ne.symm hne)).trans hcell', htask', hr.mayRest, fun due hd => ?_, ?_,
      .struck ⟨⟨a, limit, timer, hhand, hrung, ?_⟩, congrArg (· + 1) hnone,
        ⟨sc', hcc, .inr hended⟩, ?_⟩⟩
    · obtain ⟨dropped, hfire⟩ := hr.timer due hd
      refine ⟨dropped, ?_⟩
      change (k.interrupt t).duty? _ = _
      rw [duty?, htimers]
      exact hfire
    · change Prepared P t s (k.interrupt t).shared ts.next
      rw [hshared]
      exact hr.prepared
    · change Wakes _ _ _ _ _ _ (k.interrupt t).clock
      rw [hclock, hhand]
      change Wakes _ _ _ _ _ _ k.clock
      cases hrepose : s.repose with
      | turn => exact absurd hrepose hasleep.repose
      | forever => exact .ended hdue hle
      | «until» due =>
        refine .cut hdue hle ((hasleep.nap due hrepose).2.le hc) fun hal => ?_
        have hex := hexact hal due hrepose
        rwa [hhand] at hex
    · rw [wakes_append, hr.waitsFor hhand]
      refine List.mem_append_right _ (mem_wakes.mpr (Array.mem_toList_iff.mpr ?_))
      change _ ∈ (k.interrupt t).ready
      rw [hready]
      exact Array.mem_push_self

/-- A task whose time has come is struck before it has had its turn. -/
theorem RestsAs.strikeRoused {s : Stance} {cell : Cell σ ν} {ts : TaskState σ ν} {a : Nat}
    {limit : Rat} (hr : RestsAs P (.timer timer :: rest) k t s cell ts)
    (hroused : Roused P (.timer timer :: rest) k t s ts)
    (hcalled : (t, s.waitsFor) ∈ wakes k.ready.toList) (hhand : s.hand = .armed a limit)
    (hdue : Due k.clock limit) (hle : k.clock ≤ limit) (hnone : ts.requests = 0) :
    Touches k (k.interrupt t) t timer ∧
      (((k.interrupt t).rung a).alarms[a]? = some ⟨t, 0, timer, true⟩ →
        Resting P rest ((k.interrupt t).rung a) t s) := by
  have hwaits := hr.waitsFor hhand
  obtain ⟨sc, hsc, hfired⟩ := hroused.signal _ hwaits
  obtain ⟨hsc', hne, heq⟩ := interrupt_eq hr.found hr.task (hroused.waiting.trans hwaits) hsc hfired
  have horder := k.keepsOrder_interrupt t
  rw [if_pos (by rfl)] at heq
  obtain ⟨cell', hcell', htask'⟩ := k.modifyTask_cell hr.found hr.task
    (f := fun s => { s with requests := s.requests + 1 }) rfl
  obtain ⟨cell'', hcell'', htask''⟩ := (k.ask t).modifyTask_cell hcell' htask'
    (f := fun s => { s with interruptDue := true }) rfl
  rw [← heq] at hcell''
  have hcells : ∀ j : Nat, j ≠ t → (k.interrupt t).cells[j]? = k.cells[j]? := by
    intro j hj
    rw [heq]
    exact ((k.ask t).getElem?_modifyTask _ hj).trans (k.getElem?_modifyTask _ hj)
  have hkept : (k.interrupt t).shared = k.shared ∧ (k.interrupt t).clock = k.clock ∧
      (k.interrupt t).queue = k.queue ∧ (k.interrupt t).timers = k.timers ∧
      (k.interrupt t).alarms = k.alarms ∧ (k.interrupt t).ready = k.ready := by
    rw [heq]
    exact ⟨rfl, rfl, rfl, rfl, rfl, rfl⟩
  obtain ⟨hshared, hclock, hqueue, htimers, halarms, hready⟩ := hkept
  refine ⟨⟨hshared, hclock, hqueue, htimers, fun j cj hj hjt _ => (hcells j hjt).trans hj,
    fun i alarm hi => .inl (halarms ▸ hi), ⟨none, .inl hready⟩, horder.order⟩, fun hrung => ?_⟩
  refine ⟨cell'', _, hcell'', htask'', hr.mayRest, fun due hd => ?_, ?_,
    .struck ⟨⟨a, limit, timer, hhand, hrung, ?_⟩, congrArg (· + 1) hnone,
      ⟨sc, (hcells _ hne).trans hsc, .inl ⟨hfired, rfl⟩⟩, ?_⟩⟩
  · obtain ⟨dropped, hfire⟩ := hr.timer due hd
    refine ⟨dropped, ?_⟩
    change (k.interrupt t).duty? _ = _
    rw [duty?, htimers]
    exact hfire
  · change Prepared P t s (k.interrupt t).shared ts.next
    rw [hshared]
    exact hr.prepared
  · change Wakes _ _ _ _ _ _ (k.interrupt t).clock
    have htime := hroused.onTime
    have hmay := hr.mayRest
    unfold OnTime at htime
    rw [hhand] at hmay ⊢
    rw [hclock]
    cases hrepose : s.repose with
    | turn => rw [hrepose] at hmay; exact hmay.elim
    | forever => rw [hrepose] at htime; exact htime.elim
    | «until» due =>
      rw [hrepose] at htime
      refine .cut hdue hle htime.2.1 fun hal => ?_
      have hex := htime.2.2 hal due hrepose
      rwa [hhand] at hex
  · rw [wakes_append]
    refine List.mem_append_right _ ?_
    change _ ∈ wakes (k.interrupt t).ready.toList
    rw [hready]
    exact hcalled

/-- **A task is struck** by its alarm. -/
theorem Rhythm.strike (hP : P.Lawful) {a : Nat}
    (h : Rhythm P crew st none (.timer timer :: rest) k)
    (hduty : k.duty? timer = some (.ring a, false)) :
    ∃ alarm, k.alarms[a]? = some alarm ∧ (k.interrupt alarm.task).alarms = k.alarms ∧
      Rung P crew st rest k ((k.interrupt alarm.task).rung a) := by
  obtain ⟨t, ht, ⟨limit, hhand⟩, ha⟩ := h.owned timer List.mem_cons_self _ hduty
  have hsame : (k.interrupt t).alarms = k.alarms := (k.leavesTimers_interrupt t).alarms
  refine ⟨_, ha, hsame, ?_⟩
  have halarms : ∀ i : Nat, ((k.interrupt t).rung a).alarms[i]? = if a = i then
      k.alarms[i]?.map fun alarm => { alarm with rung := true } else k.alarms[i]? := by
    intro i
    rw [getElem?_rung, hsame]
  rcases h.stand ht with ⟨cell, ts, hr⟩ | hover
  · -- it is enough to say how the task rests on
    have hfinish : Touches k (k.interrupt t) t timer →
        (((k.interrupt t).rung a).alarms[a]? = some ⟨t, 0, timer, true⟩ →
          Resting P rest ((k.interrupt t).rung a) t (st t)) →
        Rung P crew st rest k ((k.interrupt t).rung a) := by
      intro htouch hrests
      refine h.touch hP (t := t) ⟨htouch.shared, htouch.clock, htouch.queue, htouch.timers,
        htouch.cells, fun i alarm hi => ?_, htouch.ready, fun waits busy rest ho => ?_⟩ ht
        ⟨cell, hr.found, by rw [hr.task.task]; exact Option.some_ne_none ts⟩ (fun action ha' t' hne hof => ?_) (hrests ?_)
      · rw [halarms]
        split
        · rename_i heq
          subst heq
          cases ha.symm.trans hi
          exact .inr ⟨rfl, rfl⟩
        · exact .inl hi
      · exact (htouch.order _ _ _ ho).of_same rfl rfl
      · cases hduty.symm.trans ha'
        obtain ⟨alarm, hi, htask⟩ := hof
        cases ha.symm.trans hi
        exact hne htask.symm
      · rw [halarms, if_pos rfl, ha]
        rfl
    have hplaced : ∀ {place}, Grip k t ts.requests place (st t).hand → place timer limit ∧
        ts.requests = 0 := by
      intro place hg
      rw [hhand] at hg
      obtain ⟨hnone, timer', ha', -, hp⟩ := hg
      cases ha.symm.trans ha'
      exact ⟨hp, hnone⟩
    cases hr.phase with
    | new hasleep => exact absurd (hplaced hasleep.grip).1 h.clockwork.not_soon
    | old hasleep hexact =>
      obtain ⟨hplace, hnone⟩ := hplaced hasleep.grip
      obtain ⟨-, hdue, hle⟩ := hplace.resolve_left h.clockwork.not_later
      have hgo := hr.strikeAsleep hasleep hexact h.clockwork hhand hdue hle hnone
      exact hfinish hgo.1 hgo.2
    | roused hroused =>
      rcases hroused.called with ⟨hcalled, hgrip⟩ | ⟨-, hgrip⟩
      · obtain ⟨hplace, hnone⟩ := hplaced hgrip
        obtain ⟨-, hdue, hle⟩ := hplace.resolve_left h.clockwork.not_later
        have hgo := hr.strikeRoused hroused hcalled hhand hdue hle hnone
        exact hfinish hgo.1 hgo.2
      · exact absurd (hplaced hgrip).1 h.clockwork.not_later
    | struck hstruck =>
      obtain ⟨a', limit', timer', hhand', ha', -⟩ := hstruck.rung
      rw [hhand] at hhand'
      cases hhand'
      cases ha.symm.trans ha'
  · have hfree := hover.hand
    rw [hhand] at hfree
    exact hfree.elim

/-- **A timer that is called for** keeps the rhythm of the crew. -/
theorem Rhythm.ring (hP : P.Lawful) (h : Rhythm P crew st none (.timer timer :: rest) k) :
    Rung P crew st rest k (k.ring timer) := by
  unfold Scheduler.ring
  cases htimer : k.timers[timer]? with
  | none =>
    refine h.skipTimer hP fun action ha => ?_
    rw [duty?, htimer] at ha
    cases ha
  | some tm =>
    obtain ⟨action, dropped, queued⟩ := tm
    cases dropped with
    | true =>
      change Rung P crew st rest k k
      refine h.skipTimer hP fun action ha => ?_
      rw [duty?, htimer] at ha
      cases ha
    | false =>
      have hduty : k.duty? timer = some (action, false) := by rw [duty?, htimer]; rfl
      cases action with
      | fire c => exact h.rouse hP hduty
      | ring a =>
        obtain ⟨alarm, ha, hsame, hr⟩ := h.strike hP hduty
        simp only [Bool.false_eq_true, if_false, ha]
        unfold rung at hr
        rwa [hsame] at hr

end ChatCommands.Concurrency.Scheduler
