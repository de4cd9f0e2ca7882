import ChatCommands.Proofs.Concurrency.Monologue

/-!
The only task of a scheduler, when its alarm cuts its sleep short.

The alarm rings while the task waits for the signal of its sleep, or when that signal was just fired.
Either way the task is interrupted at its next turn.  Main statement: `leads_cut`.
-/

namespace ChatCommands.Concurrency

namespace Scheduler

variable {σ ν : Type} {p : Peace} {k k' k₀ : Scheduler σ ν} {me a t c n : Nat} {w : σ}
  {clock due d : Rat} {aim : Nat → Scheduler σ ν → Prop} {next : Option Failure → Task σ ν}

/-! ### The alarm -/

/-- The alarm `a` of the task `me` rings when the timer `t` is due. -/
structure Overseen (me a t : Nat) (due : Rat) (k : Scheduler σ ν) : Prop where
  alarm : k.alarms[a]? = some ⟨me, 0, t, false⟩
  duty : k.duty? t = some (.ring a, false)
  once : k.queue.toList.count (due, t) = 1

/-- Only one timer was not dropped, and no alarm has rung. -/
def onlyTimer (due : Rat) (t : Nat) : Peace := ⟨fun x => x = (due, t), False⟩

/-- One more timer has been set. -/
theorem Overseen.push {timer : Timer} {due' : Rat} {i : Nat} (h : Overseen me a t due k)
    (halarm : k'.alarms[a]? = k.alarms[a]?) (htimers : k'.timers = k.timers.push timer)
    (hqueue : k'.queue = k.queue.push due' i) (hi : i = k.timers.size) : Overseen me a t due k' := by
  have hlt := duty?_lt h.duty
  refine ⟨halarm.trans h.alarm, duty?_kept htimers h.duty, ?_⟩
  rw [hqueue, (TimerHeap.perm_push _ _ _).count_eq, List.count_append, h.once,
    List.count_singleton, if_neg]
  simp only [beq_iff_eq, Prod.mk.injEq, not_and]
  omega

theorem Overseen.dropTimer (h : Overseen me a t due k) {i : Nat} (hi : t ≠ i) :
    Overseen me a t due (k.dropTimer i) := by
  have hdrops := k.dropsTimer i
  refine ⟨hdrops.alarms ▸ h.alarm, ?_, hdrops.queue ▸ h.once⟩
  rw [duty?_dropTimer, if_neg hi]
  exact h.duty

/-- The task `me` has its turn under an alarm, and no other timer is of use. -/
def Supervised (me a t : Nat) (due clock : Rat) (w : σ) (k : Scheduler σ ν) : Prop :=
  Alone me (onlyTimer due t) w clock k ∧ Overseen me a t due k

theorem supervised_unmoved :
    Act.Unmoved me clock (Supervised (σ := σ) (ν := ν) me a t due clock) where
  shared _ _ h := h.1.shared
  put _ _ _ h := ⟨Act.alone_footing.put _ _ _ h.1, h.2.alarm, h.2.duty, h.2.once⟩
  arm w k d hdue h := by
    obtain ⟨hshared, halone⟩ := Act.alone_unmoved.arm w k d hdue h.1
    obtain ⟨alarm, hrung, htimer, heq⟩ := Act.setAlarm_later me (h.1.time.symm ▸ hdue)
    refine ⟨hshared, fun s => ⟨(halone s).1, (halone s).2, ?_⟩⟩
    have ha := (Array.getElem?_eq_some_iff.mp h.2.alarm).1
    have hset : Overseen me a t due { (k.setAlarm me d).2 with shared := s } := by
      rw [heq]
      refine h.2.push ?_ rfl rfl rfl
      rw [Array.getElem?_push, if_neg (Nat.ne_of_lt ha)]
    have hdrop : (dropAlarm { (k.setAlarm me d).2 with shared := s } me (k.setAlarm me d).1).2 =
        Scheduler.dropTimer { (k.setAlarm me d).2 with shared := s } k.timers.size := by
      rw [heq]
      unfold Scheduler.dropAlarm
      simp only [Array.getElem?_push_size, hrung, Bool.false_eq_true, if_false, htimer]
    rw [hdrop]
    exact hset.dropTimer (Nat.ne_of_lt (duty?_lt h.2.duty))

/-! ### The alarm rings -/

/-- The alarm `a` has rung for the task `me`, which waits for the signal `c`: the task is called for,
and will be interrupted. -/
structure Stricken (me a c : Nat) (next : Option Failure → Task σ ν) (k k' : Scheduler σ ν) : Prop where
  shared : k'.shared = k.shared
  clock : k'.clock = k.clock
  queue : k'.queue = k.queue
  timers : k'.timers = k.timers
  alarms : k'.alarms = k.alarms.modify a fun alarm => { alarm with rung := true }
  ready : k'.ready = k.ready.push (.turn me (some c))
  mine : ∃ cell ts, k'.cells[me]? = some cell ∧ TaskCell cell ts ∧ ts.next = next ∧ ts.requests = 1 ∧
    (ts.interruptDue = true ∨ failureOf (k'.statusOf c) = some .interrupted)
  signal : ∃ cell status, k'.cells[c]? = some cell ∧ Signal cell status ∧ status.isDone = true

/-- The alarm rings while the task waits. -/
theorem Abed.struckAsleep (h : Abed me c w clock next k) :
    Stricken me a c next k ((k.interrupt me).rung a) := by
  obtain ⟨cell, ts, hcell, htask, hidle, hnext, hwaiting⟩ := h.mine
  obtain ⟨hne, sc, watch, hsc, hpending, hwatchers⟩ := h.signal
  obtain ⟨hsc', -, heq⟩ := interrupt_eq hcell htask hwaiting hsc hpending
  rw [if_neg (by simp [CellStatus.isDone])] at heq
  obtain ⟨sc', hended, hcc, hcells, hready, hshared, hclock, hqueue, htimers, halarms⟩ :=
    settle_signal hsc' hpending hwatchers (.ended (.error .interrupted))
  obtain ⟨cell', hcell', htask'⟩ := k.modifyTask_cell hcell htask
    (f := fun s => { s with requests := s.requests + 1 }) rfl
  rw [← heq] at hcc hcells hready hshared hclock hqueue htimers halarms
  refine ⟨hshared, hclock, hqueue, htimers, ?_, hready,
    ⟨cell', _, (hcells me hne).trans hcell', htask', hnext, congrArg (· + 1) hidle.unasked, .inr ?_⟩,
    sc', _, hcc, hended, rfl⟩
  · exact congrArg (fun as : Array Alarm => as.modify a fun alarm => { alarm with rung := true }) halarms
  · change failureOf ((k.interrupt me).statusOf c) = _
    rw [statusOf_eq hcc, hended.status]
    rfl

/-- The alarm rings after the signal was fired. -/
theorem Abed.struckRoused (h : Abed me c w clock next k) :
    Stricken me a c next k (((k.settle c .fired).interrupt me).rung a) := by
  obtain ⟨cell, ts, hcell, htask, hidle, hnext, hwaiting⟩ := h.mine
  obtain ⟨hne, sc, watch, hsc, hpending, hwatchers⟩ := h.signal
  obtain ⟨sc', hfired, hcc, hcells, hready, hshared, hclock, hqueue, htimers, halarms⟩ :=
    settle_signal hsc hpending hwatchers .fired
  generalize k.settle c .fired = k₁ at *
  have hcell₁ : k₁.cells[me]? = some cell := (hcells me hne).trans hcell
  obtain ⟨hsc', -, heq⟩ := interrupt_eq hcell₁ htask hwaiting hcc hfired
  rw [if_pos (by rfl)] at heq
  obtain ⟨cell', hcell', htask'⟩ := k₁.modifyTask_cell hcell₁ htask
    (f := fun s => { s with requests := s.requests + 1 }) rfl
  obtain ⟨cell'', hcell'', htask''⟩ := (k₁.ask me).modifyTask_cell hcell' htask'
    (f := fun s => { s with interruptDue := true }) rfl
  rw [heq]
  refine ⟨hshared, hclock, hqueue, htimers, ?_, hready,
    ⟨cell'', _, hcell'', htask'', hnext, congrArg (· + 1) hidle.unasked, .inl rfl⟩,
    sc', _, ?_, hfired, rfl⟩
  · exact congrArg (fun as : Array Alarm => as.modify a fun alarm => { alarm with rung := true }) halarms
  · exact ((k₁.ask me).getElem?_modifyTask _ hne.symm).trans hsc'

/-- Of the timers that are called for together one rings the alarm, and the others may fire the signal
for which the task waits. -/
theorem Abed.ring_struck (h : Abed me c w clock next k) (halarm : k.alarms[a]? = some ⟨me, 0, t, false⟩)
    (hduty : k.duty? t = some (.ring a, false)) {timers : List Nat} (honce : timers.count t = 1)
    (hduties : ∀ i ∈ timers, i = t ∨ ∃ action dropped, k.duty? i = some (action, dropped) ∧
      (dropped = false → action = .fire c)) :
    Stricken me a c next k (timers.foldl ring k) := by
  obtain ⟨hne, sc, watch, hsc, hpending, hwatchers⟩ := h.signal
  obtain ⟨sc', hfired, hcc, -, -, -, -, -, htimers, halarms⟩ :=
    settle_signal hsc hpending hwatchers .fired
  -- a timer that does not ring the alarm
  have hidle : ∀ k₁ : Scheduler σ ν, k₁.timers = k.timers → ∀ i, (∃ action dropped,
      k.duty? i = some (action, dropped) ∧ (dropped = false → action = .fire c)) →
        k₁.ring i = k₁ ∨ k₁.ring i = k₁.fire c := by
    rintro k₁ hsame i ⟨action, dropped, hd, haction⟩
    obtain ⟨timer, htimer, heq⟩ := Option.map_eq_some_iff.mp hd
    cases heq
    unfold ring
    rw [hsame, htimer]
    cases hdropped : timer.dropped with
    | true => exact .inl (if_pos hdropped)
    | false =>
      simp only [hdropped, Bool.false_eq_true, if_false, haction hdropped]
      exact .inr trivial
  have hbefore : ∀ is : List Nat, (∀ i ∈ is, ∃ action dropped, k.duty? i = some (action, dropped) ∧
      (dropped = false → action = .fire c)) → ∀ k₁, k₁ = k ∨ k₁ = k.settle c .fired →
        is.foldl ring k₁ = k ∨ is.foldl ring k₁ = k.settle c .fired := by
    intro is
    induction is with
    | nil => exact fun _ k₁ hk₁ => hk₁
    | cons i is ih =>
      intro his k₁ hk₁
      refine ih (fun j hj => his j (List.mem_cons_of_mem _ hj)) _ ?_
      have hsame : k₁.timers = k.timers := by
        rcases hk₁ with rfl | rfl
        · rfl
        · exact htimers
      rcases hidle k₁ hsame i (his i List.mem_cons_self) with heq | heq
      · rwa [heq]
      · rw [heq]
        rcases hk₁ with rfl | rfl
        · exact .inr (fire_signal hsc hpending)
        · exact .inr (fire_done hcc hfired rfl)
  have hafter : ∀ k₁ : Scheduler σ ν, Stricken me a c next k k₁ → ∀ is : List Nat, (∀ i ∈ is,
      ∃ action dropped, k.duty? i = some (action, dropped) ∧ (dropped = false → action = .fire c)) →
        is.foldl ring k₁ = k₁ := by
    intro k₁ hk₁ is
    induction is with
    | nil => exact fun _ => rfl
    | cons i is ih =>
      intro his
      obtain ⟨cell, status, hcell, hsignal, hdone⟩ := hk₁.signal
      have hring : k₁.ring i = k₁ := by
        rcases hidle k₁ hk₁.timers i (his i List.mem_cons_self) with heq | heq
        · exact heq
        · rw [heq, fire_done hcell hsignal hdone]
      rw [List.foldl_cons, hring]
      exact ih fun j hj => his j (List.mem_cons_of_mem _ hj)
  obtain ⟨before, after, rfl⟩ := List.append_of_mem (List.count_pos_iff.mp (honce ▸ Nat.one_pos))
  rw [List.count_append, List.count_cons_self] at honce
  have hout : t ∉ before ∧ t ∉ after := by
    rw [← List.count_eq_zero, ← List.count_eq_zero]
    omega
  have hothers : ∀ i, i ∈ before ∨ i ∈ after → ∃ action dropped,
      k.duty? i = some (action, dropped) ∧ (dropped = false → action = .fire c) := by
    intro i hi
    refine (hduties i ?_).resolve_left ?_
    · rcases hi with hi | hi
      · exact List.mem_append_left _ hi
      · exact List.mem_append_right _ (List.mem_cons_of_mem _ hi)
    · rintro rfl
      exact hi.elim hout.1 hout.2
  have hbell : ∀ k₁ : Scheduler σ ν, k₁.timers = k.timers → k₁.alarms = k.alarms →
      k₁.ring t = (k₁.interrupt me).rung a := by
    intro k₁ htimers₁ halarms₁
    obtain ⟨timer, htimer, heq⟩ := Option.map_eq_some_iff.mp hduty
    obtain ⟨haction, hdropped⟩ := Prod.mk.inj heq
    have hsame : (k₁.interrupt me).alarms = k₁.alarms := (k₁.leavesTimers_interrupt me).alarms
    unfold ring rung
    rw [htimers₁, htimer]
    simp only [hdropped, Bool.false_eq_true, if_false, haction, halarms₁, halarm, hsame]
  have hstruck : Stricken me a c next k ((before.foldl ring k).ring t) := by
    rcases hbefore before (fun i hi => hothers i (.inl hi)) k (.inl rfl) with heq | heq
    · rw [heq, hbell k rfl rfl]
      exact h.struckAsleep
    · rw [heq, hbell _ htimers halarms]
      exact h.struckRoused
  rw [List.foldl_append, List.foldl_cons, hafter _ hstruck after fun i hi => hothers i (.inr hi)]
  exact hstruck

/-- The task `me` is called for, and will be interrupted, as its alarm has rung. -/
structure Summoned (me a c : Nat) (p : Peace) (w : σ) (clock : Rat) (next : Option Failure → Task σ ν)
    (k : Scheduler σ ν) : Prop extends Hushed p k where
  shared : k.shared = w
  time : k.clock = clock
  ready : k.ready = #[.turn me (some c)]
  alarm : ∃ t, k.alarms[a]? = some ⟨me, 0, t, true⟩
  mine : ∃ cell ts, k.cells[me]? = some cell ∧ TaskCell cell ts ∧ ts.next = next ∧ ts.requests = 1 ∧
    (ts.interruptDue = true ∨ failureOf (k.statusOf c) = some .interrupted)

/-- **The alarm rings** before the task has had its turn. -/
theorem Abed.struck (h : Abed me c w clock next k) (ho : Overseen me a t due k)
    (hclock : Binary64.snap clock = clock) (hdue : Binary64.snap due = due) (hp : p.rung)
    (hduties : ∀ x ∈ k.queue, x = (due, t) ∨ ∃ action dropped, k.duty? x.2 = some (action, dropped) ∧
      (dropped = false → p.late x ∧ action = .fire c ∧ Binary64.snap x.1 = x.1 ∧ Due x.1 due)) :
    ∃ k' clock', k.round? = some k' ∧ Summoned me a c p w clock' next k' := by
  have hc := collected h.order
  have hkept : k.isDropped t = false := by rw [isDropped_eq, ho.duty]; rfl
  have hin : (due, t) ∈ k.queue :=
    Array.mem_toList_iff.mp (List.count_pos_iff.mp (ho.once ▸ Nat.one_pos))
  have hready : k.collect.ready.isEmpty = false := by
    refine Bool.eq_false_iff.mpr fun hnone => ?_
    rw [hc.ends hnone _ hin] at hkept
    cases hkept
  -- the clock moves on to a time at which the alarm is due
  obtain ⟨hsnapped, hnow⟩ : Binary64.snap k.collect.clock = k.collect.clock ∧
      Due k.collect.clock due := by
    obtain ⟨x, hx, hlive, hmoved⟩ := hc.moves (by rw [h.idle]; rfl) hready
    have hboth : ∀ time, Binary64.snap time = time →
        Binary64.snap (max clock time) = max clock time := by
      intro time htime
      rcases max_choice clock time with heq | heq
      · rw [heq, hclock]
      · rw [heq, htime]
    rw [hmoved, h.time]
    rcases hduties x hx with rfl | ⟨action, dropped, hd, huse⟩
    · exact ⟨hboth _ hdue, .inl (le_max_right _ _)⟩
    · rw [isDropped_eq, hd] at hlive
      obtain ⟨-, -, hsnap, hlate⟩ := huse hlive
      exact ⟨hboth _ hsnap, hlate.mono (le_max_right _ _)⟩
  obtain ⟨gone, out, hqueue, hnew, hgone, -, -⟩ := hc.queue
  -- so its timer is called for, once
  have hother : (due, t) ∉ gone ∧ (due, t) ∉ k.collect.queue.toList := by
    refine ⟨fun hmem => ?_, fun hmem => hc.later _ (Array.mem_toList_iff.mp hmem) hnow⟩
    rw [hgone _ hmem] at hkept
    cases hkept
  have hout : out.count (due, t) = 1 := by
    have hcount := ho.once
    rw [hqueue.count_eq, List.count_append, List.count_append, List.count_eq_zero.mpr hother.1,
      List.count_eq_zero.mpr hother.2] at hcount
    omega
  have hmem : ∀ x, x ∈ out ∨ x ∈ k.collect.queue.toList → x ∈ k.queue := fun x hx =>
    Array.mem_toList_iff.mp (hqueue.mem_iff.mpr
      (List.mem_append_right _ (List.mem_append.mpr hx)))
  have honce : (out.map Prod.snd).count t = 1 := by
    rw [List.count, List.countP_map, ← hout, List.count]
    refine List.countP_congr fun x hx => ?_
    simp only [Function.comp_apply, beq_iff_eq]
    refine ⟨fun heq => ?_, fun heq => heq ▸ rfl⟩
    refine (hduties x (hmem x (.inl hx))).resolve_right ?_
    rintro ⟨action, dropped, hd, huse⟩
    rw [heq, ho.duty] at hd
    cases hd
    exact nomatch (huse rfl).2.1
  have hjobs : k.collect.ready.toList = (out.map Prod.snd).map Job.timer := by
    rw [hnew, h.idle, List.map_map]
    rfl
  have hround := round?_timers hjobs (List.ne_nil_of_mem
    (List.count_pos_iff.mp (honce ▸ Nat.one_pos)))
  generalize hk₀ : ({ k.collect with ready := #[] } : Scheduler σ ν) = k₀ at hround
  have hcells : k₀.cells = k.cells := by rw [← hk₀]; exact hc.cells
  have habed : Abed me c w k.collect.clock next k₀ := by
    obtain ⟨hne, signal⟩ := h.signal
    refine ⟨?_, ?_, ?_, ?_, hcells ▸ h.mine, hne, hcells ▸ signal⟩
    · rw [← hk₀]
      exact hc.order
    · rw [← hk₀]
      exact hc.shared.trans h.shared
    · rw [← hk₀]
    · rw [← hk₀]
  have hduty₀ : ∀ i, k₀.duty? i = k.duty? i := fun i => by rw [← hk₀]; exact hc.duty i
  have halarms : k₀.alarms = k.alarms := by rw [← hk₀]; exact hc.alarms
  have hstruck : Stricken me a c next k₀ ((out.map Prod.snd).foldl ring k₀) := by
    refine habed.ring_struck (halarms ▸ ho.alarm) ((hduty₀ t).trans ho.duty) honce fun i hi => ?_
    obtain ⟨x, hx, rfl⟩ := List.mem_map.mp hi
    rcases hduties x (hmem x (.inl hx)) with rfl | ⟨action, dropped, hd, huse⟩
    · exact .inl rfl
    · exact .inr ⟨action, dropped, (hduty₀ _).trans hd, fun h => (huse h).2.1⟩
  refine ⟨_, k.collect.clock, hround, ⟨?_, ?_, ?_, fun x hx => ?_, fun _ _ _ => hp⟩, ?_, ?_, ?_,
    ⟨t, ?_⟩, hstruck.mine⟩
  · rw [hstruck.queue]
    exact habed.order
  · rw [hstruck.clock, habed.time, hsnapped]
  · rw [hstruck.queue, hstruck.clock, ← hk₀]
    exact hc.later
  · rw [hstruck.queue, ← hk₀] at hx
    rcases hduties x (hmem x (.inr (Array.mem_toList_iff.mpr hx))) with
      rfl | ⟨action, dropped, hd, huse⟩
    · exact absurd (Array.mem_toList_iff.mpr hx) hother.2
    · refine ⟨action, dropped, ?_, fun h => (huse h).1⟩
      rw [duty?, hstruck.timers]
      exact (hduty₀ _).trans hd
  · exact hstruck.shared.trans habed.shared
  · exact hstruck.clock.trans habed.time
  · rw [hstruck.ready, habed.idle]
    rfl
  · rw [hstruck.alarms, halarms, Array.getElem?_modify, if_pos rfl, ho.alarm]
    rfl

/-! ### What comes after -/

/-- The task `me` has its turn, and its alarm has rung. -/
structure Cut (me a : Nat) (p : Peace) (w : σ) (clock : Rat) (k : Scheduler σ ν) : Prop
    extends Hushed p k where
  shared : k.shared = w
  time : k.clock = clock
  idle : k.ready = #[]
  alarm : ∃ t, k.alarms[a]? = some ⟨me, 0, t, true⟩
  mine : ∃ cell ts, k.cells[me]? = some cell ∧ TaskCell cell ts ∧ ts.interruptDue = false ∧
    ts.requests = 1

/-- A task that is struck has its turn in the next round. -/
theorem Summoned.goesOn (h : Summoned me a c p w clock next k) (haim : Patient me aim)
    (hnext : ∀ k', Cut me a p w clock k' → Aimed aim n (exec me (next (some .interrupted)) k')) :
    aim (n + 1) k := by
  obtain ⟨cell, ts, hcell, htask, rfl, hasked, hcause⟩ := h.mine
  refine h.toHushed.givesTurn h.ready hcell htask (?_ : _ = some .interrupted) haim h.shared
    fun k' cell' hhushed hshared hclock hnone halarms hcell' htask' _ =>
      hnext k' ⟨hhushed, hshared, hclock.trans h.time, hnone, halarms ▸ h.alarm, cell', _, hcell',
        htask', rfl, hasked⟩
  split
  · rfl
  · rename_i hdue
    exact hcause.resolve_left hdue

/-- The timer of a sleep that was cut short is dropped. -/
theorem Cut.dropTimer {rung : Prop} (h : Cut me a ⟨fun x => x.2 = t, rung⟩ w clock k) :
    Cut me a ⟨fun _ => False, rung⟩ w clock (k.dropTimer t) := by
  have hdrops := k.dropsTimer t
  have hhushed := h.toHushed.dropTimer t
  refine ⟨⟨hhushed.order, hhushed.snapped, hhushed.later, fun x hx => ?_, hhushed.silent⟩,
    hdrops.shared.trans h.shared, hdrops.clock.trans h.time, hdrops.ready.trans h.idle,
    hdrops.alarms ▸ h.alarm, hdrops.cells ▸ h.mine⟩
  obtain ⟨action, dropped, hduty, hlate⟩ := hhushed.duties x hx
  refine ⟨action, dropped, hduty, fun hlive => ?_⟩
  rw [duty?_dropTimer, if_pos (hlate hlive)] at hduty
  obtain ⟨_, -, heq⟩ := Option.map_eq_some_iff.mp hduty
  rw [hlive] at heq
  exact nomatch (Prod.mk.inj heq).2

/-- The task is as it was before once it drops its alarm. -/
theorem Cut.armed (h : Cut me a p w clock k) :
    Act.Armed (fun w => Alone me p w clock) me a true w k := by
  refine ⟨h.shared, fun s => ?_⟩
  obtain ⟨t, halarm⟩ := h.alarm
  obtain ⟨cell, ts, hcell, htask, hidle, hasked⟩ := h.mine
  let k₁ : Scheduler σ ν := { k with shared := s }
  obtain ⟨cell', hcell', htask'⟩ := k₁.modifyTask_cell hcell htask
    (f := fun s => { s with requests := s.requests - 1 }) rfl
  have htask? : (k₁.modifyTask me fun s => { s with requests := s.requests - 1 }).task? me =
      some { ts with requests := ts.requests - 1 } := by
    rw [Scheduler.task?, hcell', Option.bind_some, htask'.task]
  have hdrop : k₁.dropAlarm me a =
      (true, k₁.modifyTask me fun s => { s with requests := s.requests - 1 }) := by
    have halarm₁ : k₁.alarms[a]? = some ⟨me, 0, t, true⟩ := halarm
    unfold Scheduler.dropAlarm
    simp only [halarm₁, if_true, htask?, Option.map_some, Option.getD_some, hasked]
    rfl
  rw [hdrop]
  refine ⟨rfl, h.toHushed.same rfl rfl rfl rfl, rfl, h.time, h.idle, cell', _, hcell', htask', hidle,
    ?_⟩
  change ts.requests - 1 = 0
  rw [hasked]

end Scheduler

namespace Act

open Scheduler

variable {σ ν : Type} {me a t : Nat} {w : σ} {clock due : Rat} {aim : Nat → Scheduler σ ν → Prop}

/-- All timers were dropped, and an alarm may have rung. -/
def spent : Peace := ⟨fun _ => False, True⟩

/-- **A sleep is cut short** by an alarm that is due when it is to end, or before. -/
theorem leads_cut (haim : Patient me aim) (hdue : Binary64.snap due = due) {d : Option Rat}
    (hd : ∀ delay, d = some delay → 0 < delay ∧ Due (dueAfter clock delay) due) :
    Leads me aim 2 (Supervised me a t due clock w) (Act.sleep d) fun r k => r = .error .interrupted ∧
      ∃ clock', Armed (fun w => Alone me spent w clock') me a true w k := by
  rintro next m k ⟨hk, ho⟩ hnext
  have hclock : Binary64.snap clock = clock := hk.time ▸ hk.snapped
  have hothers : ∀ x ∈ k.queue, x = (due, t) ∨ ∃ action, k.duty? x.2 = some (action, true) := by
    intro x hx
    obtain ⟨action, dropped, hduty, hlate⟩ := hk.duties x hx
    cases dropped with
    | false => exact .inl (hlate rfl)
    | true => exact .inr ⟨action, hduty⟩
  cases d with
  | none =>
    obtain ⟨k', hexec, habed, hqueue, htimers, halarms⟩ := hk.hang fun answer => next (ofAnswer answer)
    have ho' : Overseen me a t due k' := ⟨halarms ▸ ho.alarm, by rw [duty?, htimers]; exact ho.duty,
      hqueue ▸ ho.once⟩
    obtain ⟨k'', clock', hround, hsummoned⟩ := habed.struck ho' hclock hdue (p := spent) trivial
      fun x hx => by
        rcases hothers x (hqueue ▸ hx) with heq | ⟨action, hduty⟩
        · exact .inl heq
        · exact .inr ⟨action, true, by rw [duty?, htimers]; exact hduty, fun h => (by cases h)⟩
    rw [hang_eq, hexec]
    refine ⟨rfl, haim.round _ _ _ habed.pending hround (hsummoned.goesOn haim fun k₁ hk₁ => ?_)⟩
    exact hnext _ k₁ ⟨rfl, clock', hk₁.armed⟩
  | some delay =>
    obtain ⟨hpos, hlate⟩ := hd delay rfl
    obtain ⟨k', hexec, habed, hqueue, htimers, halarms⟩ :=
      hk.abed hpos fun answer => next (ofAnswer answer)
    have ho' : Overseen me a t due k' := ho.push (by rw [halarms]) htimers hqueue rfl
    have hsnapped : Binary64.snap (dueAfter clock delay) = dueAfter clock delay := by
      rw [← dueAfter_eq hclock hpos.le]
      exact Binary64.snap_snap _
    obtain ⟨k'', clock', hround, hsummoned⟩ := habed.struck ho' hclock hdue
      (p := ⟨fun x => x.2 = k.timers.size, True⟩) trivial fun x hx => by
        rcases TimerHeap.mem_push.mp (hqueue ▸ hx) with hx | rfl
        · rcases hothers x hx with heq | ⟨action, hduty⟩
          · exact .inl heq
          · exact .inr ⟨action, true, duty?_kept htimers hduty, fun h => (by cases h)⟩
        · exact .inr ⟨_, _, (duty?_push htimers _).trans (if_pos rfl),
            fun _ => ⟨rfl, rfl, hsnapped, hlate⟩⟩
    rw [sleep_eq hpos, hexec]
    refine ⟨rfl, haim.round _ _ _ habed.pending hround (hsummoned.goesOn haim fun k₁ hk₁ => ?_)⟩
    exact hnext _ _ ⟨rfl, clock', hk₁.dropTimer.armed⟩

/-- An alarm is set while no other timer is of use. -/
theorem leads_supervise {d : Rat} (hdue : ¬ Due clock (Binary64.snap (clock + d))) :
    Leads me aim 0 (Alone me ⟨fun _ => False, False⟩ w clock) (call (.setAlarm d)) fun r k =>
      ∃ a, r = .ok a ∧ ∃ t, Supervised me a t (Binary64.snap (clock + d)) clock w k := by
  intro next m k hk hnext
  have hlater : ¬ Binary64.snap (k.clock + d) ≤ k.clock := by
    rw [hk.time]
    exact fun hle => hdue (.inl hle)
  obtain ⟨cell, ts, hcell, htask, hidle⟩ := hk.mine
  have hset : k.setAlarm me d = (k.alarms.size, { (k.addTimer d (.ring k.alarms.size)).2 with
      alarms := k.alarms.push ⟨me, 0, k.timers.size, false⟩ }) := by
    have hrequests : ((k.task? me).map (·.requests)).getD 0 = 0 := by
      rw [Scheduler.task?, hcell, Option.bind_some, htask.task]
      exact hidle.unasked
    unfold Scheduler.setAlarm
    simp only [if_neg hlater, hrequests]
    rfl
  change Aimed aim m (exec me (next (.ok (k.setAlarm me d).1)) (k.setAlarm me d).2)
  rw [hset]
  have hnone : ∀ x ∈ k.queue, ∃ action, k.duty? x.2 = some (action, true) := by
    intro x hx
    obtain ⟨action, dropped, hduty, hlate⟩ := hk.duties x hx
    cases dropped with
    | false => exact (hlate rfl).elim
    | true => exact ⟨action, hduty⟩
  refine hnext _ _ ⟨_, rfl, k.timers.size, ⟨?_, hk.shared, hk.time, hk.idle, hk.mine⟩, ?_, ?_, ?_⟩
  · refine Hushed.push (k := k) ?_ { action := .ring k.alarms.size } (hk.time.symm ▸ hdue)
      (fun _ => hk.time.symm ▸ rfl) rfl rfl rfl fun a ha hrung => ?_
    · refine ⟨hk.order, hk.snapped, hk.later, fun x hx => ?_, hk.silent⟩
      obtain ⟨action, hduty⟩ := hnone x hx
      exact ⟨action, true, hduty, fun h => (by cases h)⟩
    · rcases Array.mem_push.mp ha with ha | rfl
      · exact hk.silent a ha hrung
      · cases hrung
  · exact Array.getElem?_push_size
  · exact (duty?_push rfl _).trans (if_pos rfl)
  · change (k.queue.push _ _).toList.count _ = 1
    rw [(TimerHeap.perm_push _ _ _).count_eq, List.count_append, hk.time, List.count_singleton_self,
      List.count_eq_zero.mpr fun hmem => ?_]
    obtain ⟨action, hduty⟩ := hnone _ (Array.mem_toList_iff.mp hmem)
    exact absurd (duty?_lt hduty) (lt_irrefl _)

end Act

end ChatCommands.Concurrency
