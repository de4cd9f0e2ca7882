import ChatCommands.Proofs.Concurrency.AtOnce
import ChatCommands.Proofs.Concurrency.Reachable
import ChatCommands.Proofs.Concurrency.Ringing

/-!
The only task of a scheduler, as long as its alarms are not due.

Such a task has its turn again and again: at once, after it has slept, or when two tasks that it has
started are over.  So what it comes to can be told by going through its program once.
-/

namespace ChatCommands.Concurrency

namespace Scheduler

/-- How a scheduler is left in peace for now. -/
structure Peace where
  /-- The timers that were not dropped, and when they are due. -/
  late : Rat × Nat → Prop
  /-- An alarm may have rung before. -/
  rung : Prop

variable {σ ν : Type} {p : Peace} {k k' : Scheduler σ ν} {me n : Nat} {w : σ} {clock : Rat}
  {cell : Cell σ ν} {ts : TaskState σ ν} {aim : Nat → Scheduler σ ν → Prop}

/-! ### Timers that leave a scheduler in peace -/

/-- No timer is due now, and only late ones were not dropped. -/
structure Hushed (p : Peace) (k : Scheduler σ ν) : Prop where
  order : TimerHeap.InOrder k.queue
  snapped : Binary64.snap k.clock = k.clock
  later : ∀ x ∈ k.queue, ¬ Due k.clock x.1
  duties : ∀ x ∈ k.queue, ∃ action dropped, k.duty? x.2 = some (action, dropped) ∧
    (dropped = false → p.late x)
  silent : ∀ alarm ∈ k.alarms, alarm.rung = true → p.rung

theorem duty?_kept {timer : Timer} {t : Nat} {duty : TimerAction × Bool}
    (htimers : k'.timers = k.timers.push timer) (h : k.duty? t = some duty) :
    k'.duty? t = some duty := by
  rw [duty?_push htimers, if_neg (Nat.ne_of_lt (duty?_lt h)), h]

theorem Hushed.same (h : Hushed p k) (hclock : k'.clock = k.clock) (hqueue : k'.queue = k.queue)
    (htimers : k'.timers = k.timers) (halarms : k'.alarms = k.alarms) : Hushed p k' := by
  refine ⟨hqueue ▸ h.order, hclock ▸ h.snapped, ?_, ?_, halarms ▸ h.silent⟩
  · rw [hqueue, hclock]
    exact h.later
  · rw [hqueue]
    intro x hx
    obtain ⟨action, dropped, hduty, hlate⟩ := h.duties x hx
    exact ⟨action, dropped, by rw [duty?, htimers]; exact hduty, hlate⟩

theorem Hushed.dropTimer (h : Hushed p k) (t : Nat) : Hushed p (k.dropTimer t) := by
  have hdrops := k.dropsTimer t
  refine ⟨hdrops.queue ▸ h.order, hdrops.clock ▸ h.snapped, ?_, ?_, hdrops.alarms ▸ h.silent⟩
  · rw [hdrops.queue, hdrops.clock]
    exact h.later
  · rw [hdrops.queue]
    intro x hx
    obtain ⟨action, dropped, hduty, hlate⟩ := h.duties x hx
    rw [duty?_dropTimer, hduty]
    split
    · exact ⟨action, true, rfl, nofun⟩
    · exact ⟨action, dropped, rfl, hlate⟩

/-- One more timer is set, which is due neither now nor before it is late. -/
theorem Hushed.push (h : Hushed p k) {due : Rat} (timer : Timer) (hdue : ¬ Due k.clock due)
    (hlate : timer.dropped = false → p.late (due, k.timers.size)) (hclock : k'.clock = k.clock)
    (hqueue : k'.queue = k.queue.push due k.timers.size) (htimers : k'.timers = k.timers.push timer)
    (hsilent : ∀ alarm ∈ k'.alarms, alarm.rung = true → p.rung) : Hushed p k' := by
  refine ⟨hqueue ▸ h.order.push _ _, hclock ▸ h.snapped, fun x hx => ?_, fun x hx => ?_, hsilent⟩
  · rw [hqueue] at hx
    rw [hclock]
    rcases TimerHeap.mem_push.mp hx with hx | rfl
    · exact h.later x hx
    · exact hdue
  · rw [hqueue] at hx
    rcases TimerHeap.mem_push.mp hx with hx | rfl
    · obtain ⟨action, dropped, hduty, hl⟩ := h.duties x hx
      exact ⟨action, dropped, duty?_kept htimers hduty, hl⟩
    · exact ⟨_, _, (duty?_push htimers _).trans (if_pos rfl), hlate⟩

/-- A timer that is dropped after it was set leaves the scheduler in peace whenever it is due. -/
theorem Hushed.pushDropped (h : Hushed p k) {due : Rat} (timer : Timer) (hdue : ¬ Due k.clock due)
    (hclock : k'.clock = k.clock) (hqueue : k'.queue = k.queue.push due k.timers.size)
    (htimers : k'.timers = k.timers.push timer)
    (hsilent : ∀ alarm ∈ k'.alarms, alarm.rung = true → p.rung) :
    Hushed p (k'.dropTimer k.timers.size) := by
  have hdrops := k'.dropsTimer k.timers.size
  refine ⟨?_, ?_, fun x hx => ?_, fun x hx => ?_, hdrops.alarms ▸ hsilent⟩
  · rw [hdrops.queue, hqueue]
    exact h.order.push _ _
  · rw [hdrops.clock, hclock]
    exact h.snapped
  · rw [hdrops.queue, hqueue] at hx
    rw [hdrops.clock, hclock]
    rcases TimerHeap.mem_push.mp hx with hx | rfl
    · exact h.later x hx
    · exact hdue
  · rw [hdrops.queue, hqueue] at hx
    rcases TimerHeap.mem_push.mp hx with hx | rfl
    · obtain ⟨action, dropped, hduty, hl⟩ := h.duties x hx
      refine ⟨action, dropped, ?_, hl⟩
      rw [duty?_dropTimer, if_neg (Nat.ne_of_lt (duty?_lt hduty))]
      exact duty?_kept htimers hduty
    · refine ⟨timer.action, true, ?_, nofun⟩
      rw [duty?_dropTimer, if_pos rfl, duty?_push htimers, if_pos rfl]
      rfl

/-- **A round begins** in which nothing is done but what was ready. -/
theorem Hushed.round (h : Hushed p k) (hready : k.ready.isEmpty = false) :
    ∃ k₀, k.round? = some (k.ready.foldl doJob k₀) ∧ Hushed p k₀ ∧ k₀.ready = #[] ∧
      k₀.cells = k.cells ∧ k₀.shared = k.shared ∧ k₀.clock = k.clock ∧ k₀.alarms = k.alarms := by
  have hc := collected h.order
  have hclock := hc.stands hready
  obtain ⟨gone, out, hqueue, hnew, -, hout, -⟩ := hc.queue
  have hmem : ∀ x, x ∈ out ++ k.collect.queue.toList → x ∈ k.queue := fun x hx =>
    Array.mem_toList_iff.mp (hqueue.mem_iff.mpr (List.mem_append_right _ hx))
  have hnone : out = [] := by
    refine List.eq_nil_iff_forall_not_mem.mpr fun x hx => ?_
    exact h.later x (hmem x (List.mem_append_left _ hx)) (hclock ▸ hout x hx)
  have hsame : k.collect.ready = k.ready := by
    rw [hnone] at hnew
    exact Array.toList_inj.mp (hnew.trans (List.append_nil _))
  refine ⟨{ k.collect with ready := #[] }, ?_, ⟨hc.order, ?_, hc.later, fun x hx => ?_, ?_⟩, rfl,
    hc.cells, hc.shared, hclock, hc.alarms⟩
  · unfold round?
    simp only [hsame, hready, Bool.false_eq_true, if_false, doReady]
  · exact hclock.symm ▸ h.snapped
  · obtain ⟨action, dropped, hduty, hlate⟩ :=
      h.duties x (hmem x (List.mem_append_right _ (Array.mem_toList_iff.mpr hx)))
    exact ⟨action, dropped, (hc.duty x.2).trans hduty, hlate⟩
  · exact hc.alarms.symm ▸ h.silent

/-! ### Turns of the only task -/

/-- Nobody has asked for the task to be interrupted. -/
structure Undisturbed (ts : TaskState σ ν) : Prop where
  idle : ts.interruptDue = false
  unasked : ts.requests = 0

/-- The task `me` has its turn, and nothing else is there to be done. -/
structure Alone (me : Nat) (p : Peace) (w : σ) (clock : Rat) (k : Scheduler σ ν) : Prop
    extends Hushed p k where
  shared : k.shared = w
  time : k.clock = clock
  idle : k.ready = #[]
  mine : ∃ cell ts, k.cells[me]? = some cell ∧ TaskCell cell ts ∧ Undisturbed ts

/-- The turn is over, and what is aimed at is reached in so many rounds. -/
def Aimed (aim : Nat → Scheduler σ ν → Prop) (n : Nat) (r : Option (Task σ ν) × Scheduler σ ν) :
    Prop :=
  r.1 = none ∧ aim n r.2

/-- What is aimed at may be reached a round later, as long as the task has not ended. -/
structure Patient (me : Nat) (aim : Nat → Scheduler σ ν → Prop) : Prop where
  more : ∀ n k, aim n k → aim (n + 1) k
  round : ∀ n k k', (k.statusOf me).isDone = false → k.round? = some k' → aim n k' → aim (n + 1) k

/-- The task `me` is called for, and nothing keeps it from going on. -/
structure Called (me : Nat) (p : Peace) (w : σ) (clock : Rat)
    (next : Option Failure → Task σ ν) (k : Scheduler σ ν) : Prop extends Hushed p k where
  shared : k.shared = w
  time : k.clock = clock
  mine : ∃ cell ts, k.cells[me]? = some cell ∧ TaskCell cell ts ∧ Undisturbed ts ∧ ts.next = next
  ready : ∃ x, k.ready = #[.turn me x] ∧ (x.bind fun c => failureOf (k.statusOf c)) = none

theorem Alone.dropTimer (h : Alone me p w clock k) (t : Nat) :
    Alone me p w clock (k.dropTimer t) := by
  have hdrops := k.dropsTimer t
  exact ⟨h.toHushed.dropTimer t, hdrops.shared.trans h.shared, hdrops.clock.trans h.time,
    hdrops.ready.trans h.idle, hdrops.cells ▸ h.mine⟩

/-- **The only task that is ready** has its turn in the next round. -/
theorem Hushed.givesTurn (h : Hushed p k) {x : Option Nat} (hready : k.ready = #[.turn me x])
    (hcell : k.cells[me]? = some cell) (htask : TaskCell cell ts) {answer : Option Failure}
    (hanswer : (if ts.interruptDue then some .interrupted
      else x.bind fun c => failureOf (k.statusOf c)) = answer)
    (haim : Patient me aim) (hshared : k.shared = w)
    (hnext : ∀ k' cell', Hushed p k' → k'.shared = w → k'.clock = k.clock → k'.ready = #[] →
      k'.alarms = k.alarms → k'.cells[me]? = some cell' →
      TaskCell cell' { ts with waitingFor := none, interruptDue := false } →
      (∀ c, k'.statusOf c = k.statusOf c) → Aimed aim n (exec me (ts.next answer) k')) :
    aim (n + 1) k := by
  obtain ⟨k₀, hround, hhushed, hnone, hcells, hshared₀, hclock, halarms⟩ :=
    h.round (by rw [hready]; rfl)
  rw [hready] at hround
  let k₁ := k₀.modifyTask me fun s => { s with waitingFor := none, interruptDue := false }
  obtain ⟨cell', hcell', htask'⟩ := k₀.modifyTask_cell (hcells ▸ hcell) htask
    (f := fun s => { s with waitingFor := none, interruptDue := false }) rfl
  have hstatuses : ∀ c, k₁.statusOf c = k.statusOf c := by
    intro c
    refine (congrFun (congrArg Scene.status (scene_modifyTask k₀ me _)) c).trans ?_
    change k₀.statusOf c = k.statusOf c
    rw [statusOf, statusOf, hcells]
  have hturn := hnext k₁ cell' (hhushed.same rfl rfl rfl rfl) (hshared₀.trans hshared) hclock hnone
    halarms hcell' htask' hstatuses
  have hpending : (k.statusOf me).isDone = false := by
    rw [statusOf_eq hcell, htask.status]
    rfl
  refine haim.round n k _ hpending hround ?_
  have hts : k₀.task? me = some ts := by
    rw [Scheduler.task?, hcells, hcell, Option.bind_some, htask.task]
  have hstatus : (if ts.interruptDue then some .interrupted
      else x.bind fun c => failureOf (k₀.statusOf c)) = answer := by
    unfold statusOf
    rw [hcells]
    exact hanswer
  change aim n (k₀.turn me x)
  unfold turn
  simp only [hts, hstatus]
  revert hturn
  generalize exec me (ts.next answer) k₁ = result
  rintro ⟨hover, haimed⟩
  obtain ⟨_, k'⟩ := result
  cases hover
  exact haimed

/-- A task that is called for goes on. -/
theorem Called.goesOn {next : Option Failure → Task σ ν} (h : Called me p w clock next k)
    (haim : Patient me aim)
    (hnext : ∀ k', Alone me p w clock k' → (∀ c, k'.statusOf c = k.statusOf c) →
      Aimed aim n (exec me (next none) k')) : aim (n + 1) k := by
  obtain ⟨cell, ts, hcell, htask, hidle, rfl⟩ := h.mine
  obtain ⟨x, hready, hanswer⟩ := h.ready
  refine h.toHushed.givesTurn hready hcell htask (?_ : _ = none) haim h.shared
    fun k' cell' hhushed hshared hclock hnone _ hcell' htask' hstatuses =>
      hnext k' ⟨hhushed, hshared, hclock.trans h.time, hnone, cell', _, hcell', htask', rfl,
        hidle.unasked⟩ hstatuses
  rw [hidle.idle]
  exact hanswer

/-- A task that takes its next turn goes on. -/
theorem Alone.yield (h : Alone me p w clock k) (haim : Patient me aim)
    (next : Option Failure → Task σ ν)
    (hnext : ∀ k', Alone me p w clock k' → Aimed aim n (exec me (next none) k')) :
    Aimed aim (n + 1) (exec me (.wait .turn next) k) := by
  obtain ⟨cell, ts, hcell, htask, hidle⟩ := h.mine
  obtain ⟨cell', hcell', htask'⟩ := k.modifyTask_cell hcell htask
    (f := fun s => { s with next, waitingFor := none }) rfl
  have hcalled : Called me p w clock next (k.awaitTurn me next) :=
    ⟨h.toHushed.same rfl rfl rfl rfl, h.shared, h.time,
      ⟨cell', _, hcell', htask', ⟨hidle.idle, hidle.unasked⟩, rfl⟩, none,
      congrArg (fun r => r.push (Job.turn me none)) h.idle, rfl⟩
  exact ⟨rfl, hcalled.goesOn haim fun k' hk' _ => hnext k' hk'⟩

/-! ### Sleep -/

theorem fire_signal {c : Nat} (hcell : k.cells[c]? = some cell) (hsignal : Signal cell .pending) :
    k.fire c = k.settle c .fired := by
  unfold fire
  rw [hcell]
  simp only [if_neg (Nat.not_lt.mpr hsignal.plain.count), hsignal.plain.membersInterrupted,
    Bool.false_eq_true, if_false]

/-- Of the timers that are called for together only one is of use: it fires a signal. -/
theorem ring_timers {c t : Nat} {watch : Nat} (hcell : k.cells[c]? = some cell)
    (hsignal : Signal cell .pending) (hwatchers : cell.watchers = [(watch, .resume me)])
    (timers : List Nat) (hduties : ∀ t ∈ timers, ∃ action dropped,
      k.duty? t = some (action, dropped) ∧ (dropped = false → action = .fire c))
    (hin : t ∈ timers) (hduty : k.duty? t = some (.fire c, false)) :
    timers.foldl ring k = k.fire c := by
  obtain ⟨fired, hfired, hcell', -, -, -, -, -, htimers, -⟩ :=
    settle_signal hcell hsignal hwatchers .fired
  rw [← fire_signal hcell hsignal] at hcell' htimers
  have hagain : (k.fire c).fire c = k.fire c := fire_done hcell' hfired rfl
  -- each timer is dropped or fires the signal
  have hring : ∀ t ∈ timers, ∀ k', k' = k ∨ k' = k.fire c →
      (k'.ring t = k' ∧ k.duty? t ≠ some (.fire c, false)) ∨ k'.ring t = k.fire c := by
    intro t ht k' hk'
    obtain ⟨action, dropped, hduty, haction⟩ := hduties t ht
    have hsame : k'.timers = k.timers := by
      rcases hk' with rfl | rfl
      · rfl
      · exact htimers
    obtain ⟨timer, htimer, heq⟩ := Option.map_eq_some_iff.mp hduty
    cases heq
    unfold ring
    rw [hsame, htimer]
    cases hdropped : timer.dropped with
    | true =>
      refine .inl ⟨if_pos hdropped, fun h => ?_⟩
      rw [hduty, hdropped] at h
      exact Bool.noConfusion (Prod.mk.inj (Option.some.inj h)).2
    | false =>
      refine .inr ?_
      simp only [hdropped, Bool.false_eq_true, if_false, haction hdropped]
      rcases hk' with rfl | rfl
      · rfl
      · exact hagain
  have hall : ∀ ts : List Nat, (∀ t ∈ ts, t ∈ timers) → ∀ k', k' = k ∨ k' = k.fire c →
      (k' = k.fire c ∨ t ∈ ts) → ts.foldl ring k' = k.fire c := by
    intro ts
    induction ts with
    | nil => exact fun _ k' _ h => h.resolve_right List.not_mem_nil
    | cons t' ts ih =>
      intro hsub k' hk' h
      refine ih (fun i hi => hsub i (List.mem_cons_of_mem _ hi)) _ ?_ ?_
      · rcases hring t' (hsub t' List.mem_cons_self) k' hk' with ⟨heq, -⟩ | heq
        · rwa [heq]
        · exact .inr heq
      · rcases hring t' (hsub t' List.mem_cons_self) k' hk' with ⟨heq, hne⟩ | heq
        · rw [heq]
          refine h.imp_right fun hmem => (List.mem_cons.mp hmem).resolve_left fun heq => hne ?_
          exact heq ▸ hduty
        · exact .inl heq
  exact hall timers (fun _ h => h) k (.inl rfl) (.inr hin)

theorem round?_timers {timers : List Nat} (hready : k.collect.ready.toList = timers.map Job.timer)
    (hsome : timers ≠ []) :
    k.round? = some (timers.foldl ring { k.collect with ready := #[] }) := by
  have hjobs : k.collect.ready.isEmpty = false := by
    rw [← Array.isEmpty_toList, hready]
    cases timers with
    | nil => exact absurd rfl hsome
    | cons => rfl
  unfold round?
  simp only [hjobs, Bool.false_eq_true, if_false, doReady]
  rw [← Array.foldl_toList, hready, List.foldl_map]
  rfl

/-- A scheduler in which nothing is ready moves on to the one timer that is not late. -/
theorem collect_timer {t c : Nat} {due : Rat} (horder : TimerHeap.InOrder k.queue)
    (hidle : k.ready = #[]) (hahead : k.clock ≤ due) (hin : (due, t) ∈ k.queue)
    (hduty : k.duty? t = some (.fire c, false)) (hduties : ∀ x ∈ k.queue, x = (due, t) ∨
      ∃ action dropped, k.duty? x.2 = some (action, dropped) ∧
        (dropped = false → ¬ Due due x.1)) :
    k.collect.clock = due ∧ ∃ timers : List Nat,
      k.collect.ready.toList = timers.map Job.timer ∧ t ∈ timers ∧
      ∀ t' ∈ timers, ∃ action dropped, k.duty? t' = some (action, dropped) ∧
        (dropped = false → action = .fire c) := by
  have hc := collected horder
  have hkept : k.isDropped t = false := by rw [isDropped_eq, hduty]; rfl
  have hready : k.collect.ready.isEmpty = false := by
    refine Bool.eq_false_iff.mpr fun hnone => ?_
    rw [hc.ends hnone _ hin] at hkept
    cases hkept
  obtain ⟨gone, out, hqueue, hnew, hgone, hout, hfirst⟩ := hc.queue
  have hstays : (due, t) ∈ out ++ k.collect.queue.toList := by
    refine (List.mem_append.mp (hqueue.mem_iff.mp (Array.mem_toList_iff.mpr hin))).resolve_left
      fun hmem => ?_
    rw [hgone _ hmem] at hkept
    cases hkept
  have hle : k.collect.clock ≤ due := hfirst _ hstays hahead
  have hclock : k.collect.clock = due := by
    obtain ⟨x, hx, hlive, hmoved⟩ := hc.moves (by rw [hidle]; rfl) hready
    rcases hduties x hx with rfl | ⟨action, dropped, hd, hlate⟩
    · rw [hmoved]
      exact max_eq_right hahead
    · rw [isDropped_eq, hd] at hlive
      refine absurd (.inl (le_trans ?_ hle)) (hlate hlive)
      rw [hmoved]
      exact le_max_right _ _
  refine ⟨hclock, out.map Prod.snd, ?_, ?_, fun t' ht' => ?_⟩
  · rw [hnew, hidle, List.map_map]
    rfl
  · refine List.mem_map.mpr ⟨_, (List.mem_append.mp hstays).resolve_right fun hmem => ?_, rfl⟩
    exact hc.later _ (Array.mem_toList_iff.mp hmem) (.inl (le_of_eq hclock.symm))
  · obtain ⟨x, hx, rfl⟩ := List.mem_map.mp ht'
    have hmem : x ∈ k.queue := Array.mem_toList_iff.mp
      (hqueue.mem_iff.mpr (List.mem_append_right _ (List.mem_append_left _ hx)))
    rcases hduties x hmem with rfl | ⟨action, dropped, hd, hlate⟩
    · exact ⟨_, _, hduty, fun _ => rfl⟩
    · exact ⟨action, dropped, hd, fun h => absurd (hclock ▸ hout x hx) (hlate h)⟩

/-- The task `me` has lain down until a signal is fired, and nothing else is there to be done. -/
structure Abed (me c : Nat) (w : σ) (clock : Rat) (next : Option Failure → Task σ ν)
    (k : Scheduler σ ν) : Prop where
  order : TimerHeap.InOrder k.queue
  shared : k.shared = w
  time : k.clock = clock
  idle : k.ready = #[]
  mine : ∃ cell ts, k.cells[me]? = some cell ∧ TaskCell cell ts ∧ Undisturbed ts ∧ ts.next = next ∧
    ts.waitingFor = some c
  signal : me ≠ c ∧ ∃ cell watch, k.cells[c]? = some cell ∧ Signal cell .pending ∧
    cell.watchers = [(watch, .resume me)]

theorem Abed.pending {c : Nat} {next : Option Failure → Task σ ν} (h : Abed me c w clock next k) :
    (k.statusOf me).isDone = false := by
  obtain ⟨cell, ts, hcell, htask, -⟩ := h.mine
  rw [statusOf_eq hcell, htask.status]
  rfl

/-- The task is called for when it is due. -/
theorem Abed.round {c t : Nat} {due : Rat} {next : Option Failure → Task σ ν}
    (h : Abed me c w clock next k) (hahead : clock ≤ due) (hsnapped : Binary64.snap due = due)
    (hduty : k.duty? t = some (.fire c, false)) (hin : (due, t) ∈ k.queue)
    (hduties : ∀ x ∈ k.queue, x = (due, t) ∨ ∃ action dropped, k.duty? x.2 = some (action, dropped) ∧
      (dropped = false → p.late x))
    (hsilent : ∀ alarm ∈ k.alarms, alarm.rung = true → p.rung)
    (hlate : ∀ x, p.late x → ¬ Due due x.1) :
    ∃ k', k.round? = some k' ∧ Called me p w due next k' := by
  obtain ⟨hne, cell, watch, hcell, hpending, hwatchers⟩ := h.signal
  have hc := collected h.order
  obtain ⟨hclock, timers, hready, hcalled, huse⟩ := collect_timer h.order h.idle (h.time.symm ▸ hahead)
    hin hduty fun x hx => (hduties x hx).imp_right fun ⟨action, dropped, hd, hl⟩ =>
      ⟨action, dropped, hd, fun h => hlate _ (hl h)⟩
  have hkept : ∀ x ∈ k.collect.queue, x ∈ k.queue := by
    obtain ⟨gone, out, hqueue, -⟩ := hc.queue
    exact fun x hx => Array.mem_toList_iff.mp (hqueue.mem_iff.mpr
      (List.mem_append_right _ (List.mem_append_right _ (Array.mem_toList_iff.mpr hx))))
  generalize hk₀ : ({ k.collect with ready := #[] } : Scheduler σ ν) = k₀
  have hround : k.round? = some (timers.foldl ring k₀) := by
    rw [round?_timers hready (List.ne_nil_of_mem hcalled), hk₀]
  have hcells : k₀.cells = k.cells := by rw [← hk₀]; exact hc.cells
  have hduty₀ : ∀ t, k₀.duty? t = k.duty? t := fun t => by rw [← hk₀]; exact hc.duty t
  have hring : timers.foldl ring k₀ = k₀.settle c .fired := by
    rw [← fire_signal (hcells ▸ hcell) hpending]
    refine ring_timers (hcells ▸ hcell) hpending hwatchers timers (fun t ht => ?_) hcalled
      ((hduty₀ t).trans hduty)
    obtain ⟨action, dropped, hd, ha⟩ := huse t ht
    exact ⟨action, dropped, (hduty₀ t).trans hd, ha⟩
  obtain ⟨fired, hfired, hsignal, hothers, hturn, hshared, hclock', hqueue, htimers, halarms⟩ :=
    settle_signal (hcells ▸ hcell) hpending hwatchers (k := k₀) .fired
  rw [hring] at hround
  have hhushed : Hushed p k₀ := by
    rw [← hk₀]
    refine ⟨hc.order, hclock.symm ▸ hsnapped, hc.later, fun x hx => ?_, hc.alarms.symm ▸ hsilent⟩
    rcases hduties x (hkept x hx) with rfl | ⟨action, dropped, hd, hl⟩
    · exact absurd (.inl (le_of_eq hclock.symm)) (hc.later _ hx)
    · exact ⟨action, dropped, (hc.duty x.2).trans hd, hl⟩
  obtain ⟨mine, ts, hmine, htask, hidle, hnext, -⟩ := h.mine
  refine ⟨_, hround, hhushed.same hclock' hqueue htimers halarms, ?_, ?_,
    ⟨mine, ts, ?_, htask, hidle, hnext⟩, some c, ?_, ?_⟩
  · rw [hshared, ← hk₀]
    exact hc.shared.trans h.shared
  · rw [hclock', ← hk₀]
    exact hclock
  · rw [hothers me hne, hcells]
    exact hmine
  · rw [hturn, ← hk₀]
    rfl
  · rw [Option.bind_some, statusOf_eq hsignal, hfired.status]
    rfl

theorem dueAfter_eq (hsnapped : Binary64.snap clock = clock) {d : Rat} (hd : 0 ≤ d) :
    Binary64.snap (clock + d) = dueAfter clock d := by
  have hmono := Binary64.snap_mono (le_add_of_nonneg_right (a := clock) hd)
  rw [hsnapped] at hmono
  exact (max_eq_right hmono).symm

/-- A task that lies down waits for a new signal. -/
theorem Alone.await (h : Alone me p w clock k) (k₂ : Scheduler σ ν)
    (hcells : k₂.cells = k.cells.push newCell) (hshared : k₂.shared = k.shared)
    (hclock : k₂.clock = k.clock) (hready : k₂.ready = k.ready)
    (horder : TimerHeap.InOrder k₂.queue) (next : Option Failure → Task σ ν) :
    ∃ k', exec me (.wait (.cell k.cells.size) next) k₂ = (none, k') ∧
      Abed me k.cells.size w clock next k' ∧ k'.queue = k₂.queue ∧ k'.timers = k₂.timers ∧
        k'.alarms = k₂.alarms := by
  obtain ⟨cell, ts, hcell, htask, hidle⟩ := h.mine
  obtain ⟨hlies, -, ⟨mine, hmine, htask'⟩, signal, watch, hsignal, hpending, hwatchers⟩ :=
    awaitCell_new hcells hcell htask hidle.idle next
  have hexec : exec me (.wait (.cell k.cells.size) next) k₂ =
      (none, k₂.awaitCell me k.cells.size next) := by
    refine if_neg (Bool.eq_false_iff.mp ?_)
    rw [statusOf_eq (hcells ▸ Array.getElem?_push_size)]
    rfl
  refine ⟨_, hexec, ⟨?_, ?_, ?_, ?_, ⟨mine, _, hmine, htask', ⟨hidle.idle, hidle.unasked⟩, rfl, rfl⟩,
    Nat.ne_of_lt (Array.getElem?_eq_some_iff.mp hcell).1, signal, watch, hsignal, hpending,
      hwatchers⟩, hlies.queue, hlies.timers, hlies.alarms⟩
  · rw [hlies.queue]
    exact horder
  · rw [hlies.shared, hshared]
    exact h.shared
  · rw [hlies.clock, hclock]
    exact h.time
  · rw [hlies.ready, hready]
    exact h.idle

/-- A task that sleeps lies down, and a timer is set. -/
theorem Alone.abed (h : Alone me p w clock k) {d : Rat} (hd : 0 < d)
    (next : Option Failure → Task σ ν) :
    ∃ k', exec me (.call (.newSignal 1 []) fun signal => .call (.fireAfter d signal) fun timer =>
        .wait (.cell signal) fun answer => .call (.dropTimer timer) fun _ => next answer) k =
          (none, k') ∧
      Abed me k.cells.size w clock
        (fun answer => .call (.dropTimer k.timers.size) fun _ => next answer) k' ∧
      k'.queue = k.queue.push (dueAfter clock d) k.timers.size ∧
      k'.timers = k.timers.push { action := .fire k.cells.size } ∧ k'.alarms = k.alarms := by
  have hqueue : (k.addTimer d (.fire k.cells.size)).2.queue =
      k.queue.push (dueAfter clock d) k.timers.size := by
    rw [← dueAfter_eq (h.time ▸ h.snapped) hd.le, ← h.time]
    rfl
  obtain ⟨k', hexec, habed, hqueue', htimers, halarms⟩ :=
    h.await ((k.addCell newCell).2.addTimer d (.fire k.cells.size)).2 rfl rfl rfl rfl
      (h.order.push _ _) fun answer => .call (.dropTimer k.timers.size) fun _ => next answer
  exact ⟨k', (exec_sleep k me d next).trans hexec, habed, hqueue'.trans hqueue, htimers, halarms⟩

/-- **A task that sleeps** goes on when it is due to. -/
theorem Alone.sleep (h : Alone me p w clock k) (haim : Patient me aim) {d : Rat} (hd : 0 < d)
    (hlate : ∀ x, p.late x → ¬ Due (dueAfter clock d) x.1) {next : Option Failure → Task σ ν}
    (hnext : ∀ k', Alone me p w (dueAfter clock d) k' →
      Aimed aim n (exec me (next none) k')) :
    Aimed aim (n + 2) (exec me (.call (.newSignal 1 []) fun signal => .call (.fireAfter d signal)
      fun timer => .wait (.cell signal) fun answer => .call (.dropTimer timer) fun _ =>
        next answer) k) := by
  obtain ⟨k', hexec, habed, hqueue, htimers, halarms⟩ := h.abed hd next
  have hsnapped : Binary64.snap (dueAfter clock d) = dueAfter clock d := by
    rw [← dueAfter_eq (h.time ▸ h.snapped) hd.le]
    exact Binary64.snap_snap _
  have hduty : k'.duty? k.timers.size = some (.fire k.cells.size, false) :=
    (duty?_push htimers _).trans (if_pos rfl)
  have hin : (dueAfter clock d, k.timers.size) ∈ k'.queue :=
    hqueue ▸ TimerHeap.mem_push.mpr (.inr rfl)
  obtain ⟨k'', hround, hcalled⟩ := habed.round (le_max_left _ _) hsnapped hduty hin (fun x hx => by
    rw [hqueue] at hx
    refine (TimerHeap.mem_push.mp hx).symm.imp id fun hx => ?_
    obtain ⟨action, dropped, hd, hl⟩ := h.duties x hx
    exact ⟨action, dropped, duty?_kept htimers hd, hl⟩) (halarms ▸ h.silent) hlate
  rw [hexec]
  refine ⟨rfl, haim.round _ _ _ habed.pending hround
    (hcalled.goesOn haim fun k₁ hk₁ _ => ?_)⟩
  exact hnext _ (hk₁.dropTimer _)

/-- A task that sleeps forever lies down, and nothing more is set. -/
theorem Alone.hang (h : Alone me p w clock k) (next : Option Failure → Task σ ν) :
    ∃ k', exec me (.call (.newSignal 1 []) fun signal => .wait (.cell signal) next) k = (none, k') ∧
      Abed me k.cells.size w clock next k' ∧ k'.queue = k.queue ∧ k'.timers = k.timers ∧
        k'.alarms = k.alarms := by
  obtain ⟨k', hexec, hrest⟩ := h.await (k.addCell newCell).2 rfl rfl rfl rfl h.order next
  exact ⟨k', (exec_hang k me next).trans hexec, hrest⟩

/-! ### The beginning and the end -/

/-- The only task is called for when it has come in. -/
theorem called_first (p : Peace) (s : σ) (body : Task σ ν) : ∃ next,
    next none = body ∧ Called 0 p s 0 next (addTask { shared := s } false body).2 := by
  refine ⟨_, rfl, ⟨TimerHeap.inOrder_empty, Binary64.snap_zero, ?_, ?_, ?_⟩, rfl, rfl,
    ⟨_, _, rfl, ⟨rfl, rfl, rfl, rfl⟩, ⟨rfl, rfl⟩, rfl⟩, none, rfl, rfl⟩
  · exact fun x hx => absurd hx (Array.not_mem_empty _)
  · exact fun x hx => absurd hx (Array.not_mem_empty _)
  · exact fun x hx => absurd hx (Array.not_mem_empty _)

/-- The task comes to its end. -/
theorem Alone.finish (h : Alone me p w clock k) (r : Ending ν) :
    exec me (.finish r) k = (none, k.settle me (.ended r)) ∧
      (k.settle me (.ended r)).statusOf me = .ended r ∧ (k.settle me (.ended r)).shared = w ∧
      (k.settle me (.ended r)).ready = #[] ∧ Hushed p (k.settle me (.ended r)) := by
  obtain ⟨cell, ts, hcell, htask, hidle⟩ := h.mine
  have hts : k.task? me = some ts := by
    rw [Scheduler.task?, hcell, Option.bind_some, htask.task]
  have hsettle : k.settle me (.ended r) = k.modifyCell me fun cell =>
      { cell with status := .ended r, watchers := [], task := none } := by
    unfold settle
    rw [hcell]
    simp only [htask.status, CellStatus.isDone, Bool.false_eq_true, if_false, htask.watchers,
      List.foldl_nil]
    rfl
  refine ⟨?_, ?_, ?_, ?_, ?_⟩
  · change k.finish me r = _
    unfold Scheduler.finish
    simp only [hts, hidle.idle, htask.again, Bool.false_eq_true, if_false]
  · rw [hsettle]
    have hended : (k.modifyCell me fun cell =>
        { cell with status := .ended r, watchers := [], task := none }).cells[me]? =
          some { cell with status := .ended r, watchers := [], task := none } := by
      rw [getElem?_modifyCell, if_pos rfl, hcell]
      rfl
    exact statusOf_eq hended
  · rw [hsettle]
    exact h.shared
  · rw [hsettle]
    exact h.idle
  · rw [hsettle]
    exact h.toHushed.same rfl rfl rfl rfl

/-- A run up to the end of the task `t`, of at least `n` rounds if there are so many to do, comes to
the goal. -/
def Reaches (t : Nat) (goal : Scheduler σ ν → Prop) (n : Nat) (k : Scheduler σ ν) : Prop :=
  ∀ fuel, n ≤ fuel → goal (k.runUntil t fuel)

theorem reaches_done {t : Nat} {goal : Scheduler σ ν → Prop} (hdone : (k.statusOf t).isDone = true)
    (h : goal k) : Reaches t goal n k := by
  intro fuel _
  cases fuel with
  | zero => exact h
  | succ fuel =>
    rw [Scheduler.runUntil, hdone]
    exact h

/-- Nothing is left to do. -/
theorem reaches_idle {t : Nat} {goal : Scheduler σ ν → Prop} (hround : k.round? = none)
    (h : goal k) : Reaches t goal n k := by
  intro fuel _
  cases fuel with
  | zero => exact h
  | succ fuel =>
    rw [Scheduler.runUntil, hround]
    split
    · exact h
    · exact h

theorem patient_reaches (goal : Scheduler σ ν → Prop) : Patient me (Reaches me goal) where
  more n _ h fuel hle := h fuel (Nat.le_of_succ_le hle)
  round n k k' hpending hround h fuel hle := by
    obtain ⟨fuel, rfl⟩ := Nat.exists_eq_add_of_lt (Nat.lt_of_lt_of_le (Nat.lt_succ_self _) hle)
    rw [Scheduler.runUntil, hpending, hround]
    exact h _ (by omega)

/-- Nothing is left to do if nothing is ready and all timers were dropped. -/
theorem Hushed.idle (h : Hushed p k) (hlate : ∀ x, ¬ p.late x) (hready : k.ready = #[]) :
    k.round? = none := by
  have hc := collected h.order
  cases hsome : k.collect.ready.isEmpty with
  | true =>
    unfold round?
    simp only [hsome, if_true]
  | false =>
    obtain ⟨x, hx, hlive, -⟩ := hc.moves (by rw [hready]; rfl) hsome
    obtain ⟨action, dropped, hduty, hl⟩ := h.duties x hx
    rw [isDropped_eq, hduty] at hlive
    exact (hlate _ (hl hlive)).elim

end Scheduler

end ChatCommands.Concurrency
