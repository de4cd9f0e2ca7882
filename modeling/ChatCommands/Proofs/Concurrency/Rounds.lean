import ChatCommands.Proofs.Concurrency.Ringing
import Mathlib.Data.Prod.Lex
import Mathlib.Algebra.Order.BigOperators.Group.List

/-!
Rounds of tasks that wait for nothing but the time.

When a round begins, what a task has set in the round before is old: a timer is called for now or is
not yet due.  The jobs of the round are turns and timers, and each of them keeps the rhythm of the crew
and leaves less to do.  Main statements: `Rhythm.collect`, `Rhythm.round`.
-/

namespace ChatCommands.Concurrency.Scheduler

variable {σ ν : Type} {P : Pact σ ν} {k k' : Scheduler σ ν} {rest : List (Job σ ν)}
  {crew : List Nat} {st : Nat → Stance} {t timer : Nat} {s : Stance} {ts : TaskState σ ν}
  {due : Rat}

/-- The jobs that were ready are those to be done. -/
def taken (k : Scheduler σ ν) : Scheduler σ ν := { k with ready := #[] }

/-! ### The beginning of a round -/

theorem nonempty_of_mem {j : Job σ ν} (hj : j ∈ k.ready) : k.ready.isEmpty = false := by
  cases hempty : k.ready.isEmpty with
  | false => rfl
  | true =>
    rw [Array.isEmpty_iff.mp hempty] at hj
    exact absurd hj (Array.not_mem_empty _)

namespace Collected

theorem mem_ready (hc : Collected k k') {j : Job σ ν} (hj : j ∈ k.ready) : j ∈ k'.ready.toList := by
  obtain ⟨_, _, -, hready, -⟩ := hc.queue
  rw [hready]
  exact List.mem_append_left _ (Array.mem_toList_iff.mpr hj)

/-- No turn comes up with the timers. -/
theorem wakes (hc : Collected k k') :
    Scheduler.wakes k'.ready.toList = Scheduler.wakes k.ready.toList := by
  obtain ⟨_, out, -, hready, -⟩ := hc.queue
  have hnone : Scheduler.wakes (out.map fun x => (.timer x.2 : Job σ ν)) = [] := by
    refine List.eq_nil_iff_forall_not_mem.mpr fun w hw => ?_
    obtain ⟨x, -, hx⟩ := List.mem_map.mp (mem_wakes.mp hw)
    cases hx
  rw [hready, wakes_append, hnone, List.append_nil]

/-- A timer is called for if it was, unless it was dropped. -/
theorem calls (hc : Collected k k') : ∃ gone : List (Rat × Nat),
    (Scheduler.calls [] k).Perm (gone.map Prod.snd ++ Scheduler.calls k'.ready.toList k'.taken) := by
  obtain ⟨gone, out, hqueue, hready, -⟩ := hc.queue
  have hout : timersOf (out.map fun x => (.timer x.2 : Job σ ν)) = out.map Prod.snd := by
    unfold timersOf
    rw [List.filterMap_map]
    exact congrFun List.filterMap_eq_map out
  have htaken : Scheduler.calls k'.ready.toList k'.taken =
      timersOf k.ready.toList ++ (out.map Prod.snd ++ k'.queue.toList.map Prod.snd) := by
    unfold Scheduler.calls taken
    rw [hready, timersOf_append, timersOf_append, hout, ← List.append_assoc]
    exact congrArg (· ++ _) (List.append_nil _)
  have hmap := hqueue.map Prod.snd
  rw [List.map_append, List.map_append] at hmap
  refine ⟨gone, ?_⟩
  rw [htaken, ← List.append_assoc]
  unfold Scheduler.calls
  refine (hmap.append_left _).trans ?_
  rw [List.nil_append, ← List.append_assoc]
  exact List.perm_append_comm.append_right _

/-- A timer that is not dropped is called for in the round, or is not yet due. -/
theorem stays (hc : Collected k k') (hclock : ∀ x ∈ k.queue, k.clock ≤ x.1)
    {action : TimerAction} (hduty : k.duty? timer = some (action, false))
    (hin : (due, timer) ∈ k.queue) : Stays k'.ready.toList k'.taken timer due := by
  obtain ⟨gone, out, hqueue, hready, hdropped, hout, hle⟩ := hc.queue
  rcases List.mem_append.mp (hqueue.mem_iff.mp (Array.mem_toList_iff.mpr hin)) with hgone | hin'
  · have hd := hdropped _ hgone
    rw [isDropped_eq, hduty] at hd
    cases hd
  · rcases List.mem_append.mp hin' with hx | hx
    · refine .inr ⟨?_, hout _ hx, hle _ hin' (hclock _ hin)⟩
      rw [hready]
      exact List.mem_append_right _ (List.mem_map.mpr ⟨_, hx, rfl⟩)
    · exact .inl ⟨Array.mem_toList_iff.mp hx, hc.later _ (Array.mem_toList_iff.mp hx)⟩

theorem stays_soon (hc : Collected k k') (hclock : ∀ x ∈ k.queue, k.clock ≤ x.1)
    {action : TimerAction} (hduty : k.duty? timer = some (action, false))
    (hsoon : k.Soon timer due) : Stays k'.ready.toList k'.taken timer due := by
  rcases hsoon with hin | ⟨hin, rfl⟩
  · exact hc.stays hclock hduty hin
  · have hstands : k'.taken.clock = k.clock := hc.stands (nonempty_of_mem hin)
    exact .inr ⟨hc.mem_ready hin, .inl hstands.ge, hstands.le⟩

/-- A timer that is not yet due remains so as long as something was ready. -/
theorem later_of_ready (hc : Collected k k') (hsome : k.ready.isEmpty = false)
    {action : TimerAction} (hduty : k.duty? timer = some (action, false))
    (hlater : k.Later timer due) : k'.taken.Later timer due := by
  obtain ⟨gone, out, hqueue, -, hdropped, hout, -⟩ := hc.queue
  have hstands := hc.stands hsome
  rcases List.mem_append.mp (hqueue.mem_iff.mp (Array.mem_toList_iff.mpr hlater.1)) with hx | hx
  · have hd := hdropped _ hx
    rw [isDropped_eq, hduty] at hd
    cases hd
  · rcases List.mem_append.mp hx with hx | hx
    · exact absurd (hstands ▸ hout _ hx) hlater.2
    · exact ⟨Array.mem_toList_iff.mp hx, hstands.symm ▸ hlater.2⟩

theorem clockwork (hc : Collected k k') (hsome : k'.ready.isEmpty = false)
    (h : Clockwork [] k) : Clockwork k'.ready.toList k'.taken := by
  obtain ⟨gone, hcalls⟩ := hc.calls
  obtain ⟨_, out, hqueue, -, -, -, hle⟩ := hc.queue
  have hold : ∀ x ∈ k'.queue, x ∈ k.queue := fun x hx => Array.mem_toList_iff.mp
    (hqueue.mem_iff.mpr (List.mem_append_right _ (List.mem_append_right _
      (Array.mem_toList_iff.mpr hx))))
  refine ⟨hc.order, ?_, fun x hx => ⟨?_, (h.ahead x (hold x hx)).2⟩, fun i hi => ?_, ?_⟩
  · change Binary64.snap k'.clock = k'.clock
    cases hnone : k.ready.isEmpty with
    | false => rw [hc.stands hnone, h.clock]
    | true =>
      obtain ⟨x, hx, -, hclock⟩ := hc.moves hnone hsome
      rw [hclock, max_eq_right (h.ahead x hx).1, (h.ahead x hx).2]
  · exact hle x (List.mem_append_right _ (Array.mem_toList_iff.mpr hx)) (h.ahead x (hold x hx)).1
  · have hlt := h.known i (hcalls.mem_iff.mpr (List.mem_append_right _ hi))
    obtain ⟨timer, htimer⟩ : ∃ timer, k.timers[i]? = some timer := ⟨_, Array.getElem?_eq_getElem hlt⟩
    have hduty : k.duty? i = some (timer.action, timer.dropped) := by rw [duty?, htimer]; rfl
    rw [← hc.duty] at hduty
    exact duty?_lt (k := k'.taken) hduty
  · exact (hcalls.nodup_iff.mp h.once).of_append_right

end Collected

/-! ### Tasks at the beginning of a round -/

theorem Asleep.place {place place' : Nat → Rat → Prop} (h : Asleep k t s ts place)
    (hc : Collected k k') (hplace : ∀ i due action, k.duty? i = some (action, false) →
      place i due → place' i due) : Asleep k'.taken t s ts place' := by
  obtain ⟨cell, w, hcell, hsignal⟩ := h.signal
  refine ⟨h.waiting, h.idle, ⟨cell, w, ?_, hsignal⟩, h.repose, fun due hdue => ?_,
    h.grip.imp (fun a alarm ha _ => ?_) fun a i due hi _ hp => ⟨?_, hplace i due _ hi hp⟩⟩
  · change k'.cells[_]? = _
    rw [hc.cells]
    exact hcell
  · obtain ⟨hduty, hp⟩ := h.nap due hdue
    exact ⟨(hc.duty _).trans hduty, hplace _ _ _ hduty hp⟩
  · change k'.alarms[_]? = _
    rw [hc.alarms]
    exact ha
  · exact (hc.duty _).trans hi

/-- Two entries of the queue for one timer are the same. -/
theorem Clockwork.due_unique (h : Clockwork rest k) {due due' : Rat} (hx : (due, timer) ∈ k.queue)
    (hy : (due', timer) ∈ k.queue) : due = due' := by
  have hnodup : (k.queue.toList.map Prod.snd).Nodup := h.once.of_append_right
  have hpair := List.inj_on_of_nodup_map hnodup (Array.mem_toList_iff.mpr hx)
    (Array.mem_toList_iff.mpr hy) rfl
  exact congrArg Prod.fst hpair

/-- A timer in the queue is not ready. -/
theorem Clockwork.queue_not_ready (h : Clockwork rest k) (hx : (due, timer) ∈ k.queue) :
    .timer timer ∉ k.ready := by
  intro hin
  refine (List.nodup_append.mp h.once).2.2 timer (mem_timersOf.mpr ?_) timer ?_ rfl
  · exact List.mem_append_right _ (Array.mem_toList_iff.mpr hin)
  · exact List.mem_map.mpr ⟨_, Array.mem_toList_iff.mpr hx, rfl⟩

/-- If there is one task, and nothing is ready but timers that it has set, the clock of the next round
shows the time of one of its timers. -/
theorem Rhythm.nextTimer (h : Rhythm P crew st none [] k) (hc : Collected k k')
    (hsome : k'.ready.isEmpty = false) (hal : P.alone) (hquiet : k.ready.isEmpty = false →
      Scheduler.wakes k.ready.toList = [] ∧ ∀ t ∈ crew, (st t).hand ≠ .spent) :
    ∃ i action, ∃ t ∈ crew, k.duty? i = some (action, false) ∧ Owns k t (st t) i action ∧
      ∀ due, k.Soon i due → k'.clock = due := by
  have howned : ∀ i ∈ calls [] k, k.isDropped i = false → ∃ action, ∃ t ∈ crew,
      k.duty? i = some (action, false) ∧ Owns k t (st t) i action := by
    intro i hi hkept
    rw [isDropped_eq] at hkept
    match hduty : k.duty? i with
    | none => rw [hduty] at hkept; cases hkept
    | some (action, true) => rw [hduty] at hkept; cases hkept
    | some (action, false) =>
      obtain ⟨t, ht, howns⟩ := h.owned i hi action hduty
      exact ⟨action, t, ht, rfl, howns⟩
  cases hnone : k.ready.isEmpty with
  | true =>
    obtain ⟨x, hx, hkept, hclock⟩ := hc.moves hnone hsome
    obtain ⟨action, t, ht, hduty, howns⟩ := howned x.2
      (List.mem_append_right _ (List.mem_map.mpr ⟨x, Array.mem_toList_iff.mpr hx, rfl⟩)) hkept
    refine ⟨x.2, action, t, ht, hduty, howns, fun due hsoon => ?_⟩
    rcases hsoon with hin | ⟨hin, -⟩
    · rw [hclock, max_eq_right (h.clockwork.ahead x hx).1]
      exact h.clockwork.due_unique hx hin
    · rw [nonempty_of_mem hin] at hnone
      cases hnone
  | false =>
    have hready : k.ready ≠ #[] := by simpa using hnone
    obtain ⟨j, hj⟩ := Array.exists_mem_of_ne_empty _ hready
    obtain ⟨hunwoken, hhand⟩ := hquiet hnone
    have hl := h.lone hal
    have hkept := hl.kept.resolve_left fun ⟨t, ht, hspent⟩ => hhand t ht hspent
    have hcrew := h.jobs j (List.mem_append_right _ (Array.mem_toList_iff.mpr hj))
    cases j with
    | turn t x =>
      have hw : (t, x) ∈ Scheduler.wakes k.ready.toList :=
        mem_wakes.mpr (Array.mem_toList_iff.mpr hj)
      rw [hunwoken] at hw
      cases hw
    | run c program => exact hcrew.elim
    | timer i =>
      have hi : i ∈ timersOf k.ready.toList := mem_timersOf.mpr (Array.mem_toList_iff.mpr hj)
      obtain ⟨action, hduty⟩ := hkept i hi
      obtain ⟨t, ht, howns⟩ := h.owned i (List.mem_append_left _ hi) action hduty
      refine ⟨i, action, t, ht, hduty, howns, fun due hsoon => ?_⟩
      rcases hsoon with hin | ⟨-, hdue⟩
      · exact absurd hj (h.clockwork.queue_not_ready hin)
      · rw [hc.stands hnone, hdue]

theorem RestsAs.live {cell : Cell σ ν} (hr : RestsAs P rest k t s cell ts) : k.Live t := by
  rw [Live, Scheduler.task?, hr.found, Option.bind_some, hr.task.task]
  rfl

/-- Nobody wakes a task that waits for a signal that was not fired. -/
theorem Rhythm.not_woken (h : Rhythm P crew st none rest k) {cell : Cell σ ν}
    {place : Nat → Rat → Prop} (hr : RestsAs P rest k t (st t) cell ts)
    (ha : Asleep k t (st t) ts place) (x : Option Nat) :
    (t, x) ∉ Scheduler.wakes (rest ++ k.ready.toList) := by
  intro hw
  obtain ⟨-, -, hwaits⟩ := h.orderly.woken _ hw
  obtain ⟨hx, hdone⟩ := hwaits hr.live
  obtain ⟨sc, w, hsc, hpending, -⟩ := ha.signal
  have hsignal : (st t).waitsFor = some (st t).signal := by
    unfold Stance.waitsFor
    cases hrepose : (st t).repose with
    | turn => exact absurd hrepose ha.repose
    | «until» _ | forever => rfl
  have hdone := (hdone (st t).signal (hx.symm.trans hsignal)).2
  rw [statusOf, hsc] at hdone
  simp only [hpending.status] at hdone
  cases hdone

/-- **A task that is alone sleeps exactly** until its time, or until its time is up. -/
theorem Rhythm.exact (h : Rhythm P crew st none [] k) (hc : Collected k k')
    (hsome : k'.ready.isEmpty = false) (hal : P.alone) (ht : t ∈ crew) {cell : Cell σ ν}
    (hr : RestsAs P [] k t (st t) cell ts) (ha : Asleep k t (st t) ts k.Soon)
    (hclock : k.clock = (st t).since) : Exact (st t) k'.clock := by
  intro due hdue
  have hsole := (h.lone hal).sole
  have hahead : ∀ x ∈ k.queue, k.clock ≤ x.1 := fun x hx => (h.clockwork.ahead x hx).1
  have hclockwork := hc.clockwork hsome h.clockwork
  obtain ⟨hnapDuty, hnapSoon⟩ := ha.nap due hdue
  -- the timer that sets the next round in motion is that of the sleep, or of the alarm
  have hfirst : (k.ready.isEmpty = false → ∃ a limit, (st t).hand = .armed a limit) →
      k'.clock = due ∨ ∃ a limit, (st t).hand = .armed a limit ∧ k'.clock = limit := by
    intro harmed
    obtain ⟨i, action, t', ht', hduty, howns, htime⟩ := h.nextTimer hc hsome hal fun hnone => by
      refine ⟨List.eq_nil_iff_forall_not_mem.mpr fun w hw => ?_, fun t' ht' hspent => ?_⟩
      · have hcrew := h.jobs (.turn w.1 w.2) (List.mem_append_right _ (mem_wakes.mp hw))
        obtain rfl := hsole w.1 hcrew t ht
        exact h.not_woken hr ha w.2 hw
      · obtain ⟨a, limit, hhand⟩ := harmed hnone
        rw [hsole t' ht' t ht, hhand] at hspent
        cases hspent
    obtain rfl := hsole t' ht' t ht
    cases action with
    | fire c =>
      obtain ⟨rfl, -⟩ := howns
      exact .inl (htime due hnapSoon)
    | ring a =>
      obtain ⟨⟨limit, hhand⟩, halarm⟩ := howns
      have hgrip := ha.grip
      rw [hhand] at hgrip
      obtain ⟨-, i', halarm', -, hsoon⟩ := hgrip
      cases halarm.symm.trans halarm'
      exact .inr ⟨a, limit, hhand, htime limit hsoon⟩
  have hunarmed : (st t).hand.Unarmed ∨ (∃ a limit, (st t).hand = .struck a limit) →
      k'.clock = (st t).since ∨ k'.clock = due := by
    intro hhand
    cases hnone : k.ready.isEmpty with
    | false => exact .inl ((hc.stands hnone).trans hclock)
    | true =>
      refine .inr ((hfirst fun hsome => nomatch hnone.symm.trans hsome).resolve_right ?_)
      rintro ⟨a, limit, harmed, -⟩
      rcases hhand with hhand | ⟨a', limit', hhand⟩
      · rw [harmed] at hhand
        exact hhand
      · exact nomatch harmed.symm.trans hhand
  cases hhand : (st t).hand with
  | clean => exact hunarmed (.inl (by rw [hhand]; trivial))
  | spent => exact hunarmed (.inl (by rw [hhand]; trivial))
  | struck a limit => exact hunarmed (.inr ⟨a, limit, hhand⟩)
  | armed a limit =>
    have hgrip := ha.grip
    rw [hhand] at hgrip
    obtain ⟨-, i, -, halarmDuty, halarmSoon⟩ := hgrip
    have hdue' : k'.clock ≤ due := (hc.stays_soon hahead hnapDuty hnapSoon).le hclockwork
    have hlimit : k'.clock ≤ limit := (hc.stays_soon hahead halarmDuty halarmSoon).le hclockwork
    rcases hfirst fun _ => ⟨a, limit, hhand⟩ with heq | ⟨a', limit', hhand', heq⟩
    · exact heq.trans (min_eq_left (heq ▸ hlimit)).symm
    · cases hhand.symm.trans hhand'
      exact heq.trans (min_eq_right (heq ▸ hdue')).symm

/-- Nothing was due yet for a task that has rested in this round. -/
theorem Asleep.since_of_stays (ha : Asleep k t s ts (Stays [] k)) (hexact : Exact s k.clock)
    (hdue : s.repose = .until due) : k.clock = s.since := by
  have hlater : ∀ {i : Nat} {due : Rat}, Stays [] k i due → ¬ Due k.clock due := fun hs =>
    (hs.resolve_right fun hin => nomatch hin.1).2
  have hnap := hlater (ha.nap due hdue).2
  have hex := hexact due hdue
  have hgrip := ha.grip
  cases hhand : s.hand with
  | clean | spent | struck =>
    rw [hhand] at hex
    exact hex.resolve_right fun heq => hnap (heq ▸ .inl le_rfl)
  | armed a limit =>
    rw [hhand] at hex hgrip
    obtain ⟨-, i, -, -, hplace⟩ := hgrip
    simp only at hex
    rcases min_choice due limit with heq | heq
    · exact absurd (hex.trans heq ▸ .inl le_rfl) hnap
    · exact absurd (hex.trans heq ▸ .inl le_rfl) (hlater hplace)

/-- What a task rests for does not change when a round begins. -/
theorem Rhythm.phase_collect (h : Rhythm P crew st none [] k) (hc : Collected k k')
    (hsome : k'.ready.isEmpty = false) (ht : t ∈ crew) {cell : Cell σ ν}
    (hr : RestsAs P [] k t (st t) cell ts) : Phase P k'.ready.toList k'.taken t (st t) ts := by
  have hahead : ∀ x ∈ k.queue, k.clock ≤ x.1 := fun x hx => (h.clockwork.ahead x hx).1
  have hstands : ∀ {x}, (t, x) ∈ Scheduler.wakes k.ready.toList → k.ready.isEmpty = false :=
    fun hw => nonempty_of_mem (Array.mem_toList_iff.mp (mem_wakes.mp hw))
  have hcells : ∀ c : Nat, k'.taken.cells[c]? = k.cells[c]? := fun c => by
    change k'.cells[c]? = _
    rw [hc.cells]
  have halarms : ∀ a : Nat, k'.taken.alarms[a]? = k.alarms[a]? := fun a => by
    change k'.alarms[a]? = _
    rw [hc.alarms]
  cases hr.phase with
  | new ha hclock =>
    refine .old (ha.place hc fun i due action hduty => hc.stays_soon hahead hduty) fun hal => ?_
    exact (h.exact hc hsome hal ht hr ha hclock : Exact (st t) k'.clock)
  | old ha hexact =>
    have hin : ∀ {i : Nat} {due : Rat}, Stays [] k i due → (due, i) ∈ k.queue := fun hs =>
      (hs.resolve_right fun hin => nomatch hin.1).1
    refine .old (ha.place hc fun i due action hduty hs => hc.stays hahead hduty (hin hs))
      fun hal due hdue => ?_
    have hsoon : Asleep k t (st t) ts k.Soon := ⟨ha.waiting, ha.idle, ha.signal, ha.repose,
      fun due hdue => ⟨(ha.nap due hdue).1, .inl (hin (ha.nap due hdue).2)⟩,
      ha.grip.imp (fun _ _ hi _ => hi) fun _ _ _ hi _ hs => ⟨hi, .inl (hin hs)⟩⟩
    exact (h.exact hc hsome hal ht hr hsoon (ha.since_of_stays (hexact hal) hdue) :
      Exact (st t) k'.clock) due hdue
  | roused hroused =>
    obtain ⟨hw, hgrip⟩ := hroused.called.resolve_right fun hcalled =>
      List.not_mem_nil hcalled.1
    refine .roused ⟨hroused.waiting, hroused.idle, fun c hx => ?_, ?_, .inr ⟨hc.wakes.symm ▸ hw, ?_⟩⟩
    · rw [hcells]
      exact hroused.signal c hx
    · change OnTime P.alone (st t) k'.clock
      rw [hc.stands (hstands hw)]
      exact hroused.onTime
    · refine hgrip.imp (fun a alarm ha _ => (halarms a).trans ha) fun a i due hi _ hs =>
        ⟨(hc.duty i).trans hi, hc.later_of_ready (hstands hw) hi ?_⟩
      exact hs.resolve_right fun hin => nomatch hin.1
  | struck hstruck =>
    have hw : (t, (st t).waitsFor) ∈ Scheduler.wakes k.ready.toList := hstruck.called
    obtain ⟨a, limit, i, hhand, halarm, hwakes⟩ := hstruck.rung
    obtain ⟨sc, hsc, hsignal⟩ := hstruck.signal
    refine .struck ⟨⟨a, limit, i, hhand, (halarms a).trans halarm, ?_⟩, hstruck.requests,
      ⟨sc, (hcells _).trans hsc, hsignal⟩, ?_⟩
    · change Wakes _ _ _ _ _ _ k'.clock
      rw [hc.stands (hstands hw)]
      exact hwakes
    · rw [wakes_append, hc.wakes]
      exact List.mem_append_left _ hw

/-- **A round begins.** -/
theorem Rhythm.collect (h : Rhythm P crew st none [] k) (hc : Collected k k')
    (horder : KeepsOrder k k') (hsome : k'.ready.isEmpty = false) :
    Rhythm P crew st none k'.ready.toList k'.taken := by
  have hlist : k'.ready.toList ++ k'.taken.ready.toList = [] ++ k'.ready.toList := List.append_nil _
  have ho := horder.order _ _ _ h.orderly
  refine ⟨⟨ho.quiet, ho.watched, ho.once, fun w hw => ho.woken w (hlist ▸ hw),
    fun t ht => hlist ▸ ho.single t ht⟩, hc.clockwork hsome h.clockwork, fun j hj => ?_,
    fun t ht _ => ?_, fun n hn => ?_, fun i hi action hduty => ?_, fun hal => ?_⟩
  · obtain ⟨_, out, -, hready, -⟩ := hc.queue
    rw [hlist, List.nil_append, hready] at hj
    rcases List.mem_append.mp hj with hj | hj
    · exact h.jobs j hj
    · obtain ⟨x, -, rfl⟩ := List.mem_map.mp hj
      trivial
  · rcases h.stand ht with ⟨cell, ts, hr⟩ | hover
    · refine .inl ⟨cell, ts, ?_, hr.task, hr.mayRest, fun due hdue => ?_, ?_,
        h.phase_collect hc hsome ht hr⟩
      · change k'.cells[t]? = _
        rw [hc.cells]
        exact hr.found
      · obtain ⟨dropped, hduty⟩ := hr.timer due hdue
        exact ⟨dropped, (hc.duty _).trans hduty⟩
      · change Prepared P t (st t) k'.shared ts.next
        rw [hc.shared]
        exact hr.prepared
    · obtain ⟨cell, r, hcell, htask, hended, hdone⟩ := hover.ended
      refine .inr { hover with ended := ⟨cell, r, ?_, htask, hended, ?_⟩ }
      · change k'.cells[t]? = _
        rw [hc.cells]
        exact hcell
      · change P.done t r k'.shared
        rw [hc.shared]
        exact hdone
  · change P.fresh n k'.shared
    rw [hc.shared]
    exact h.fresh n hn
  · obtain ⟨gone, hcalls⟩ := hc.calls
    obtain ⟨t, ht, howns⟩ := h.owned i (hcalls.mem_iff.mpr (List.mem_append_right _ hi)) action
      ((hc.duty i).symm.trans hduty)
    refine ⟨t, ht, howns.congr fun a alarm ha => ?_⟩
    change k'.alarms[a]? = _
    rw [hc.alarms]
    exact ha
  · exact ⟨(h.lone hal).sole, fun _ => rfl, .inr fun i hi => nomatch hi⟩

/-! ### The jobs of a round -/

/-- What is left to do: how often the tasks may rest, the timers that are called for, and the turns. -/
def leftToDo (crew : List Nat) (st : Nat → Stance) (rest : List (Job σ ν)) (k : Scheduler σ ν) :
    Nat ×ₗ Nat ×ₗ Nat :=
  toLex ((crew.map fun t => (st t).rests).sum,
    toLex ((calls rest k).length, (Scheduler.wakes (rest ++ k.ready.toList)).length))

/-- **A job** of a round leaves less to do. -/
theorem Rhythm.doJob (hP : P.Lawful) {j : Job σ ν} (hholds : P.holds k.shared)
    (h : Rhythm P crew st none (j :: rest) k) : P.holds (k.doJob j).shared ∧ ∃ st',
      Rhythm P crew st' none rest (k.doJob j) ∧
        leftToDo crew st' rest (k.doJob j) < leftToDo crew st (j :: rest) k := by
  have hcrew : OfCrew crew j := h.jobs j List.mem_cons_self
  cases j with
  | turn t x =>
    rcases h.turn hP hholds with ⟨heq, hr⟩ | ⟨hh, s, hs, hr⟩
    · change P.holds (k.turn t x).shared ∧ ∃ st', Rhythm P crew st' none rest (k.turn t x) ∧
        leftToDo crew st' rest (k.turn t x) < leftToDo crew st (.turn t x :: rest) k
      rw [heq]
      refine ⟨hholds, st, hr, ?_⟩
      refine Prod.Lex.toLex_lt_toLex.mpr (.inr ⟨rfl, Prod.Lex.toLex_lt_toLex.mpr (.inr ⟨rfl, ?_⟩)⟩)
      exact Nat.lt_succ_self _
    · refine ⟨hh, _, hr, Prod.Lex.toLex_lt_toLex.mpr (.inl ?_)⟩
      refine List.sum_lt_sum _ _ (fun t' _ => ?_) ⟨t, hcrew, ?_⟩
      · by_cases heq : t' = t
        · subst heq
          rw [Function.update_self]
          exact hs.le
        · rw [Function.update_of_ne heq]
      · rw [Function.update_self]
        exact hs
  | run c program => exact hcrew.elim
  | timer i =>
    have hrung := h.ring hP
    refine ⟨?_, st, hrung.rhythm, ?_⟩
    · change P.holds (k.ring i).shared
      rw [hrung.shared]
      exact hholds
    · refine Prod.Lex.toLex_lt_toLex.mpr (.inr ⟨rfl, Prod.Lex.toLex_lt_toLex.mpr (.inl ?_)⟩)
      change (calls rest (k.ring i)).length < _
      rw [hrung.calls]
      exact Nat.lt_succ_self _

theorem Rhythm.doJobs (hP : P.Lawful) (js : List (Job σ ν)) :
    ∀ (k : Scheduler σ ν) (st : Nat → Stance), P.holds k.shared → Rhythm P crew st none js k →
      P.holds (js.foldl Scheduler.doJob k).shared ∧ ∃ st',
        Rhythm P crew st' none [] (js.foldl Scheduler.doJob k) ∧
        leftToDo crew st' [] (js.foldl Scheduler.doJob k) ≤ leftToDo crew st js k ∧
        (js ≠ [] → leftToDo crew st' [] (js.foldl Scheduler.doJob k) < leftToDo crew st js k) := by
  induction js with
  | nil => exact fun k st hholds h => ⟨hholds, st, h, le_rfl, fun hne => absurd rfl hne⟩
  | cons j js ih =>
    intro k st hholds h
    obtain ⟨hholds', st', h', hlt⟩ := h.doJob hP hholds
    obtain ⟨hholds'', st'', h'', hle, -⟩ := ih _ st' hholds' h'
    exact ⟨hholds'', st'', h'', (hle.trans_lt hlt).le, fun _ => hle.trans_lt hlt⟩

/-- What comes up when a round begins was there before. -/
theorem leftToDo_collect (hc : Collected k k') (crew : List Nat) (st : Nat → Stance) :
    leftToDo crew st k'.ready.toList k'.taken ≤ leftToDo crew st [] k := by
  obtain ⟨gone, hcalls⟩ := hc.calls
  have hlength := hcalls.length_eq
  have hwakes : (Scheduler.wakes (k'.ready.toList ++ k'.taken.ready.toList)).length =
      (Scheduler.wakes ([] ++ k.ready.toList)).length := by
    rw [wakes_append, hc.wakes]
    exact congrArg List.length (List.append_nil _)
  rw [List.length_append] at hlength
  refine Prod.Lex.toLex_le_toLex.mpr (.inr ⟨rfl, Prod.Lex.toLex_le_toLex.mpr ?_⟩)
  rw [hwakes]
  simp only
  omega

/-- **A round** keeps the rhythm of the crew and leaves less to do. -/
theorem Rhythm.round (hP : P.Lawful) (hholds : P.holds k.shared) (h : Rhythm P crew st none [] k)
    (hround : k.round? = some k') : P.holds k'.shared ∧ ∃ st', Rhythm P crew st' none [] k' ∧
      leftToDo crew st' [] k' < leftToDo crew st [] k := by
  have hc := collected h.clockwork.order
  unfold Scheduler.round? at hround
  simp only [] at hround
  split at hround
  · cases hround
  · rename_i hsome
    rw [Bool.not_eq_true] at hsome
    have hk' : k' = k.collect.ready.toList.foldl Scheduler.doJob k.collect.taken := by
      rw [← Option.some.inj hround, doReady, ← Array.foldl_toList]
      rfl
    have hbegun := h.collect hc k.keepsOrder_collect hsome
    have hshared : k.collect.taken.shared = k.shared := hc.shared
    obtain ⟨hholds', st', h', -, hlt⟩ := Rhythm.doJobs hP _ _ st (hshared ▸ hholds) hbegun
    rw [← hk'] at hholds' h' hlt
    refine ⟨hholds', st', h', (hlt ?_).trans_le (leftToDo_collect hc crew st)⟩
    rwa [Ne, ← List.isEmpty_iff, Array.isEmpty_toList, Bool.not_eq_true]

/-- **When there is nothing left to do, every task is over.** -/
theorem Rhythm.idle (h : Rhythm P crew st none [] k) (hnone : k.round? = none) (ht : t ∈ crew) :
    Over P k t (st t) := by
  have hc := collected h.clockwork.order
  have hempty : k.collect.ready.isEmpty = true := by
    unfold Scheduler.round? at hnone
    simp only [] at hnone
    split at hnone
    · rename_i hempty
      exact hempty
    · cases hnone
  have hnotReady : ∀ j, j ∉ k.ready := fun j hj => by
    have hin := hc.mem_ready hj
    rw [Array.mem_toList_iff, Array.isEmpty_iff.mp hempty] at hin
    exact Array.not_mem_empty _ hin
  have hnotQueued : ∀ {i : Nat} {due : Rat} {action : TimerAction},
      k.duty? i = some (action, false) → (due, i) ∉ k.queue := by
    intro i due action hduty hin
    have hd := hc.ends hempty _ hin
    rw [isDropped_eq, hduty] at hd
    cases hd
  have hnoTurn : ∀ {w}, w ∉ Scheduler.wakes k.ready.toList := fun hw =>
    hnotReady _ (Array.mem_toList_iff.mp (mem_wakes.mp hw))
  refine (h.stand ht).resolve_left fun ⟨cell, ts, hr⟩ => ?_
  -- somebody who sleeps has set a timer, and it is still to come
  have hawake : ∀ {place : Nat → Rat → Prop}, Asleep k t (st t) ts place →
      (∀ {i due}, place i due → k.Soon i due) → False := by
    intro place ha hsoon
    have hnot : ∀ {i due action}, k.duty? i = some (action, false) → ¬ place i due :=
      fun hduty hp => (hsoon hp).elim (hnotQueued hduty) fun hin => hnotReady _ hin.1
    have hmay := hr.mayRest
    cases hrepose : (st t).repose with
    | turn => exact ha.repose hrepose
    | «until» due => exact hnot (ha.nap due hrepose).1 (ha.nap due hrepose).2
    | forever =>
      rw [hrepose] at hmay
      have hgrip := ha.grip
      cases hhand : (st t).hand with
      | clean | spent | struck =>
        rw [hhand] at hmay
        exact hmay
      | armed a limit =>
        rw [hhand] at hgrip
        obtain ⟨-, i, -, hduty, hp⟩ := hgrip
        exact hnot hduty hp
  cases hr.phase with
  | new ha => exact hawake ha id
  | old ha => exact hawake ha fun hs => .inl (hs.resolve_right fun hin => nomatch hin.1).1
  | roused hroused =>
    exact hroused.called.elim (fun hw => hnoTurn hw.1) fun hw => List.not_mem_nil hw.1
  | struck hstruck =>
    exact hnoTurn (hstruck.called : _ ∈ Scheduler.wakes k.ready.toList)

end ChatCommands.Concurrency.Scheduler
