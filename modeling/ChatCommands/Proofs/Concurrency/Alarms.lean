import ChatCommands.Proofs.Concurrency.Scene
import ChatCommands.Proofs.Number.Nearest

/-!
Alarms ring when they are due.

The time at which an alarm is due is fixed when it is set.  Its timer leaves the queue at that time
and not before, up to the resolution of the clock, and only then the alarm can ring.  Every operation
on a scheduler but the setting of an alarm leaves the times as they are.
-/

namespace ChatCommands.Concurrency

namespace TimerHeap

variable {h : TimerHeap} {x : Rat × Nat}

/-! ### What is in the queue -/

theorem mem_swap {i j : Nat} : x ∈ h.swapIfInBounds i j ↔ x ∈ h := by
  rw [Array.swapIfInBounds_def]
  split
  · split
    · exact (Array.swap_perm _ _).mem_iff
    · exact .rfl
  · exact .rfl

theorem mem_rise (h : TimerHeap) (i : Nat) : x ∈ h.rise i ↔ x ∈ h := by
  induction h, i using rise.induct with
  | case1 h i hi parent hlt ih =>
    rw [rise, dif_pos hi, if_pos hlt, ih, mem_swap]
  | case2 h i hi parent hlt => rw [rise, dif_pos hi, if_neg hlt]
  | case3 h i hi => rw [rise, dif_neg hi]

theorem mem_riseTo (top : Nat) (h : TimerHeap) (i : Nat) : x ∈ settle.riseTo top h i ↔ x ∈ h := by
  induction h, i using settle.riseTo.induct top with
  | case1 h i hi parent hlt ih =>
    rw [settle.riseTo, dif_pos hi, if_pos hlt, ih, mem_swap]
  | case2 h i hi parent hlt => rw [settle.riseTo, dif_pos hi, if_neg hlt]
  | case3 h i hi => rw [settle.riseTo, dif_neg hi]

theorem mem_sink (fuel : Nat) : ∀ (h : TimerHeap) (i : Nat), x ∈ (h.sink i fuel).1 ↔ x ∈ h := by
  induction fuel with
  | zero => exact fun _ _ => .rfl
  | succ fuel ih =>
    intro h i
    unfold sink
    split
    · rw [ih, mem_swap]
    · exact .rfl

theorem mem_settle (h : TimerHeap) (i : Nat) : x ∈ h.settle i ↔ x ∈ h :=
  (mem_riseTo i _ _).trans (mem_sink _ h i)

theorem mem_push {time : Rat} {timer : Nat} :
    x ∈ h.push time timer ↔ x ∈ h ∨ x = (time, timer) :=
  (mem_rise _ _).trans Array.mem_push

theorem mem_of_first? (hx : h.first? = some x) : x ∈ h := Array.mem_of_getElem? hx

theorem mem_of_mem_removeFirst (hx : x ∈ h.removeFirst) : x ∈ h := by
  unfold removeFirst at hx
  split at hx
  · exact hx
  · rename_i last hlast
    have hpop : ∀ {y : Rat × Nat}, y ∈ Array.pop h → y ∈ h := by
      intro y hy
      rw [← Array.mem_toList_iff] at hy ⊢
      rw [Array.toList_pop] at hy
      exact List.mem_of_mem_dropLast hy
    simp only [] at hx
    split at hx
    · exact hpop hx
    · rcases Array.mem_or_eq_of_mem_setIfInBounds ((mem_settle _ 0).mp hx) with hx | rfl
      · exact hpop hx
      · exact Array.mem_of_back? hlast

theorem mem_ofArray (items : TimerHeap) : x ∈ ofArray items ↔ x ∈ items := by
  unfold ofArray
  generalize (List.range (items.size / 2)).reverse = is
  induction is generalizing items with
  | nil => exact .rfl
  | cons i is ih => exact (ih _).trans (mem_settle _ i)

end TimerHeap

namespace Scheduler

variable {σ ν : Type} {k k' k'' : Scheduler σ ν}

/-! ### When timers are due -/

/-- What was to happen at this time may happen when the clock shows that time. -/
def Due (clock time : Rat) : Prop := time ≤ clock ∨ time < Binary64.snap (clock + resolution)

theorem Due.mono {clock clock' time : Rat} (h : Due clock time) (hle : clock ≤ clock') :
    Due clock' time := by
  rcases h with h | h
  · exact .inl (h.trans hle)
  · exact .inr (h.trans_le (Binary64.snap_mono (add_le_add_left hle _)))

theorem Due.anti {clock time time' : Rat} (h : Due clock time') (hle : time ≤ time') :
    Due clock time :=
  h.imp hle.trans hle.trans_lt

/-- The alarms that were set are due at these times; each of them rings when it is due, if at all.
The jobs of `rest` are still to be done. -/
structure Punctual (dues : List Rat) (rest : List (Job σ ν)) (k : Scheduler σ ν) : Prop where
  alarms : dues.length = k.alarms.size
  queued : ∀ x ∈ k.queue, ∃ timer, k.timers[x.2]? = some timer ∧
    ∀ a, timer.action = .ring a → dues[a]? = some x.1
  called : ∀ t, .timer t ∈ rest ++ k.ready.toList → ∃ timer, k.timers[t]? = some timer ∧
    ∀ a, timer.action = .ring a → ∃ due, dues[a]? = some due ∧ Due k.clock due
  rung : ∀ (a : Nat) alarm, k.alarms[a]? = some alarm → alarm.rung = true →
    ∃ due, dues[a]? = some due ∧ Due k.clock due

/-- The timers that there were are there and do the same. -/
def SameTimers (k k' : Scheduler σ ν) : Prop :=
  ∀ (t : Nat) timer, k.timers[t]? = some timer →
    ∃ timer', k'.timers[t]? = some timer' ∧ timer'.action = timer.action

/-- An operation that sets no timer and no alarm and calls for none. -/
structure LeavesTimers (k k' : Scheduler σ ν) : Prop where
  clock : k'.clock = k.clock
  alarms : k'.alarms = k.alarms
  queue : ∀ x ∈ k'.queue, x ∈ k.queue
  timers : SameTimers k k'
  ready : ∀ t, .timer t ∈ k'.ready → .timer t ∈ k.ready

variable {dues : List Rat} {rest : List (Job σ ν)}

theorem SameTimers.of_eq (h : k'.timers = k.timers) : SameTimers k k' :=
  fun _ timer ht => ⟨timer, h ▸ ht, rfl⟩

theorem SameTimers.trans (h : SameTimers k k') (h' : SameTimers k' k'') : SameTimers k k'' := by
  intro t timer ht
  obtain ⟨timer', ht', haction⟩ := h t timer ht
  obtain ⟨timer'', ht'', haction'⟩ := h' t timer' ht'
  exact ⟨timer'', ht'', haction'.trans haction⟩

theorem sameTimers_of_modify {t : Nat} {f : Timer → Timer}
    (htimers : k'.timers = k.timers.modify t f) (hf : ∀ timer, (f timer).action = timer.action) :
    SameTimers k k' := by
  intro i timer hi
  rw [htimers, Array.getElem?_modify]
  split
  · exact ⟨f timer, by rw [hi]; rfl, hf timer⟩
  · exact ⟨timer, hi, rfl⟩

theorem sameTimers_of_push {timer : Timer} (htimers : k'.timers = k.timers.push timer) :
    SameTimers k k' := by
  intro t timer' ht
  refine ⟨timer', ?_, rfl⟩
  have hlt : t < k.timers.size := (Array.getElem?_eq_some_iff.mp ht).1
  rw [htimers, Array.getElem?_push, if_neg (Nat.ne_of_lt hlt)]
  exact ht

namespace LeavesTimers

theorem refl (k : Scheduler σ ν) : LeavesTimers k k :=
  ⟨rfl, rfl, fun _ h => h, .of_eq rfl, fun _ h => h⟩

theorem trans (h : LeavesTimers k k') (h' : LeavesTimers k' k'') : LeavesTimers k k'' :=
  ⟨h'.clock.trans h.clock, h'.alarms.trans h.alarms, fun x hx => h.queue x (h'.queue x hx),
    h.timers.trans h'.timers, fun t ht => h.ready t (h'.ready t ht)⟩

/-- An operation on cells that calls for other jobs than timers. -/
theorem of_ready (hclock : k'.clock = k.clock) (halarms : k'.alarms = k.alarms)
    (hqueue : k'.queue = k.queue) (htimers : k'.timers = k.timers)
    (hready : ∀ t, .timer t ∈ k'.ready → .timer t ∈ k.ready) : LeavesTimers k k' :=
  ⟨hclock, halarms, fun _ hx => hqueue ▸ hx, .of_eq htimers, hready⟩

end LeavesTimers

theorem Punctual.step (h : Punctual dues rest k) (hop : LeavesTimers k k') :
    Punctual dues rest k' := by
  have hjobs : ∀ t, .timer t ∈ rest ++ k'.ready.toList → .timer t ∈ rest ++ k.ready.toList := by
    intro t ht
    rcases List.mem_append.mp ht with ht | ht
    · exact List.mem_append_left _ ht
    · exact List.mem_append_right _
        (Array.mem_toList_iff.mpr (hop.ready t (Array.mem_toList_iff.mp ht)))
  refine ⟨hop.alarms ▸ h.alarms, fun x hx => ?_, fun t ht => ?_, fun a alarm ha hrung => ?_⟩
  · obtain ⟨timer, htimer, hdue⟩ := h.queued x (hop.queue x hx)
    obtain ⟨timer', htimer', haction⟩ := hop.timers _ timer htimer
    exact ⟨timer', htimer', fun a ha => hdue a (haction ▸ ha)⟩
  · obtain ⟨timer, htimer, hdue⟩ := h.called t (hjobs t ht)
    obtain ⟨timer', htimer', haction⟩ := hop.timers _ timer htimer
    exact ⟨timer', htimer', fun a ha => hop.clock ▸ hdue a (haction ▸ ha)⟩
  · exact hop.clock ▸ h.rung a alarm (hop.alarms ▸ ha) hrung

/-! ### Operations that leave the timers alone -/

theorem leavesTimers_modifyCell (k : Scheduler σ ν) (c : Nat) (f : Cell σ ν → Cell σ ν) :
    LeavesTimers k (k.modifyCell c f) :=
  .of_ready rfl rfl rfl rfl fun _ h => h

theorem leavesTimers_modifyTask (k : Scheduler σ ν) (t : Nat) (f : TaskState σ ν → TaskState σ ν) :
    LeavesTimers k (k.modifyTask t f) :=
  k.leavesTimers_modifyCell t _

theorem leavesTimers_put (k : Scheduler σ ν) (s : σ) : LeavesTimers k { k with shared := s } :=
  .of_ready rfl rfl rfl rfl fun _ h => h

theorem leavesTimers_push (k : Scheduler σ ν) {j : Job σ ν} (hj : ∀ t, j ≠ .timer t) :
    LeavesTimers k { k with ready := k.ready.push j } :=
  .of_ready rfl rfl rfl rfl fun t h => (Array.mem_push.mp h).resolve_right fun heq => hj t heq.symm

theorem jobOf_ne_timer (c : Nat) (w : Watcher σ ν) (t : Nat) : jobOf c w ≠ .timer t := by
  cases w <;> nofun

theorem leavesTimers_settle (k : Scheduler σ ν) (c : Nat) (s : CellStatus ν) :
    LeavesTimers k (k.settle c s) := by
  unfold settle
  split
  · rename_i cell _
    split
    · exact .refl k
    · refine .of_ready rfl rfl rfl rfl fun t => ?_
      -- the jobs of the watchers are pushed one by one
      change .timer t ∈ cell.watchers.foldl (fun r w => r.push (jobOf c w.2)) k.ready → _
      generalize k.ready = ready
      induction cell.watchers generalizing ready with
      | nil => exact id
      | cons w watchers ih =>
        exact fun ht => (Array.mem_push.mp (ih _ ht)).resolve_right
          (jobOf_ne_timer c w.2 t).symm
  · exact .refl k

theorem leavesTimers_fire (k : Scheduler σ ν) (c : Nat) : LeavesTimers k (k.fire c) := by
  unfold fire
  split
  · split
    · exact k.leavesTimers_modifyCell c _
    · split
      · exact k.leavesTimers_settle c _
      · exact k.leavesTimers_settle c _
  · exact .refl k

theorem leavesTimers_addWatcher (k : Scheduler σ ν) (c : Nat) (w : Watcher σ ν) :
    LeavesTimers k (k.addWatcher c w) := by
  unfold addWatcher
  simp only []
  split
  · exact .of_ready rfl rfl rfl rfl fun t h =>
      (Array.mem_push.mp h).resolve_right (jobOf_ne_timer c w t).symm
  · exact .of_ready rfl rfl rfl rfl fun _ h => h

theorem leavesTimers_addCell (k : Scheduler σ ν) (cell : Cell σ ν) :
    LeavesTimers k (k.addCell cell).2 :=
  .of_ready rfl rfl rfl rfl fun _ h => h

theorem leavesTimers_addTask (k : Scheduler σ ν) (repeated : Bool) (body : Task σ ν) :
    LeavesTimers k (k.addTask repeated body).2 :=
  (k.leavesTimers_addCell _).trans (leavesTimers_push _ nofun)

theorem leavesTimers_dropTimer (k : Scheduler σ ν) (t : Nat) : LeavesTimers k (k.dropTimer t) := by
  unfold dropTimer
  split
  · split
    · exact .refl k
    · exact ⟨rfl, rfl, fun _ h => h, sameTimers_of_modify (t := t)
        (f := fun timer => { timer with dropped := true }) rfl fun _ => rfl, fun _ h => h⟩
  · exact .refl k

theorem leavesTimers_dropAlarm (k : Scheduler σ ν) (me a : Nat) :
    LeavesTimers k (k.dropAlarm me a).2 := by
  unfold dropAlarm
  split
  · split
    · exact k.leavesTimers_modifyTask me _
    · exact k.leavesTimers_dropTimer _
  · exact .refl k

theorem leavesTimers_interruptCell (fuel : Nat) : ∀ (k : Scheduler σ ν) (c : Nat),
    LeavesTimers k (interruptCell fuel k c).2 := by
  induction fuel with
  | zero => exact fun k _ => .refl k
  | succ fuel ih =>
    intro k c
    unfold interruptCell
    split
    · exact .refl k
    · exact .refl k
    · rename_i cell hfuel hc
      cases hfuel
      split
      · exact .refl k
      · split
        · rename_i task _
          have hasked := k.leavesTimers_modifyTask c fun s => { s with requests := s.requests + 1 }
          cases task.waitingFor with
          | none => exact hasked.trans (leavesTimers_modifyTask _ c _)
          | some w =>
            have hpassed := hasked.trans (ih _ w)
            simp only []
            split
            · exact hpassed
            · exact hpassed.trans (leavesTimers_modifyTask _ c _)
        · split
          · exact k.leavesTimers_settle c _
          · have hfold : ∀ (ms : List Nat) (any : Bool) (k' : Scheduler σ ν), LeavesTimers k k' →
                LeavesTimers k (ms.foldl (fun (acc : Bool × Scheduler σ ν) m =>
                  (acc.1 || (interruptCell fuel acc.2 m).1, (interruptCell fuel acc.2 m).2))
                    (any, k')).2 := by
              intro ms
              induction ms with
              | nil => exact fun _ _ h => h
              | cons m ms ihm => exact fun _ k' h => ihm _ _ (h.trans (ih k' m))
            exact (hfold cell.members false k (.refl k)).trans (leavesTimers_modifyCell _ c _)

theorem leavesTimers_interrupt (k : Scheduler σ ν) (t : Nat) : LeavesTimers k (k.interrupt t) :=
  leavesTimers_interruptCell _ k t

theorem leavesTimers_awaitTurn (k : Scheduler σ ν) (me : Nat)
    (next : Option Failure → Task σ ν) : LeavesTimers k (k.awaitTurn me next) :=
  (k.leavesTimers_modifyTask me _).trans (leavesTimers_push _ nofun)

theorem leavesTimers_awaitCell (k : Scheduler σ ν) (me c : Nat)
    (next : Option Failure → Task σ ν) : LeavesTimers k (k.awaitCell me c next) := by
  have hwaits := (k.leavesTimers_modifyTask me fun s => { s with next, waitingFor := some c }).trans
    (leavesTimers_addWatcher _ c (.resume me))
  unfold awaitCell
  simp only []
  split
  · split
    · exact (hwaits.trans (leavesTimers_interruptCell _ _ c)).trans (leavesTimers_modifyTask _ me _)
    · exact hwaits.trans (leavesTimers_interruptCell _ _ c)
  · exact hwaits

theorem leavesTimers_finish (k : Scheduler σ ν) (me : Nat) (r : Ending ν) :
    LeavesTimers k (k.finish me r).2 := by
  unfold finish
  split
  · split
    · exact k.leavesTimers_settle me _
    · split
      · exact .refl k
      · exact k.leavesTimers_settle me _
  · exact .refl k

theorem leavesTimers_unqueue (k : Scheduler σ ν) (t : Nat) : LeavesTimers k (k.unqueue t) :=
  ⟨rfl, rfl, fun _ h => h, sameTimers_of_modify (t := t)
    (f := fun timer => { timer with queued := false }) rfl fun _ => rfl, fun _ h => h⟩

theorem leavesTimers_skipDropped (fuel : Nat) : ∀ k : Scheduler σ ν,
    LeavesTimers k (skipDropped fuel k) := by
  induction fuel with
  | zero => exact fun k => .refl k
  | succ fuel ih =>
    intro k
    unfold skipDropped
    split
    · split
      · rename_i t _ _
        have hremoved : LeavesTimers k { k.unqueue t with
            queue := k.queue.removeFirst, droppedQueued := k.droppedQueued - 1 } :=
          { k.leavesTimers_unqueue t with queue := fun _ => TimerHeap.mem_of_mem_removeFirst }
        exact hremoved.trans (ih _)
      · exact .refl k
    · exact .refl k

theorem leavesTimers_tidy (k : Scheduler σ ν) : LeavesTimers k k.tidy := by
  have hfold : ∀ (xs : List (Rat × Nat)) (k : Scheduler σ ν),
      LeavesTimers k (xs.foldl (fun k x => k.unqueue x.2) k) := by
    intro xs
    induction xs with
    | nil => exact fun k => .refl k
    | cons x xs ih => exact fun k => (k.leavesTimers_unqueue x.2).trans (ih _)
  unfold tidy
  split
  · have hgone := hfold (k.queue.filter fun x => k.isDropped x.2).toList k
    rw [Array.foldl_toList] at hgone
    refine { hgone with queue := fun x hx => ?_ }
    exact (Array.mem_filter.mp ((TimerHeap.mem_ofArray _).mp hx)).1
  · exact k.leavesTimers_skipDropped _

/-! ### Timers and alarms -/

theorem Punctual.later (h : Punctual dues rest k) {clock : Rat} (hle : k.clock ≤ clock) :
    Punctual dues rest { k with clock } := by
  refine ⟨h.alarms, h.queued, fun t ht => ?_, fun a alarm ha hrung => ?_⟩
  · obtain ⟨timer, htimer, hdue⟩ := h.called t ht
    refine ⟨timer, htimer, fun a ha => ?_⟩
    obtain ⟨due, hd, hclock⟩ := hdue a ha
    exact ⟨due, hd, hclock.mono hle⟩
  · obtain ⟨due, hd, hclock⟩ := h.rung a alarm ha hrung
    exact ⟨due, hd, hclock.mono hle⟩

theorem advance_le (k : Scheduler σ ν) : k.clock ≤ k.advance.clock := by
  unfold advance
  split
  · rename_i time _ _ _
    change k.clock ≤ if k.clock ≤ time then time else k.clock
    split
    · assumption
    · exact le_refl _
  · exact le_refl _

theorem Punctual.advance (h : Punctual dues rest k) : Punctual dues rest k.advance := by
  have hlater := h.later k.advance_le
  unfold Scheduler.advance at hlater ⊢
  split
  · rename_i time _ hready hfirst
    simp only [hready, hfirst] at hlater
    exact hlater
  · exact h

theorem Punctual.addTimer (h : Punctual dues rest k) (delay : Rat) (s : Nat) :
    Punctual dues rest (k.addTimer delay (.fire s)).2 := by
  have hold : SameTimers k (k.addTimer delay (.fire s)).2 := sameTimers_of_push rfl
  refine ⟨h.alarms, fun x hx => ?_, fun t ht => ?_, h.rung⟩
  · rcases TimerHeap.mem_push.mp hx with hx | rfl
    · obtain ⟨timer, htimer, hdue⟩ := h.queued x hx
      obtain ⟨timer', htimer', haction⟩ := hold _ timer htimer
      exact ⟨timer', htimer', fun a ha => hdue a (haction ▸ ha)⟩
    · exact ⟨{ action := .fire s }, Array.getElem?_push_size, nofun⟩
  · obtain ⟨timer, htimer, hdue⟩ := h.called t ht
    obtain ⟨timer', htimer', haction⟩ := hold _ timer htimer
    exact ⟨timer', htimer', fun a ha => hdue a (haction ▸ ha)⟩

theorem clock_setAlarm (k : Scheduler σ ν) (me : Nat) (delay : Rat) :
    (k.setAlarm me delay).2.clock = k.clock := by
  unfold setAlarm
  simp only []
  split <;> rfl

/-- An alarm is set, with a timer that is called for when the alarm is due. -/
theorem Punctual.pushAlarm (h : Punctual dues rest k) {due : Rat} {alarm : Alarm} {timer : Timer}
    (hclock : k'.clock = k.clock) (halarms : k'.alarms = k.alarms.push alarm)
    (hsilent : alarm.rung = false) (htimers : k'.timers = k.timers.push timer)
    (haction : timer.action = .ring k.alarms.size)
    (hqueue : ∀ x ∈ k'.queue, x ∈ k.queue ∨ x = (due, k.timers.size))
    (hready : ∀ t, .timer t ∈ k'.ready → .timer t ∈ k.ready ∨
      t = k.timers.size ∧ Due k.clock due) : Punctual (dues ++ [due]) rest k' := by
  have hkept : ∀ {a : Nat} {time : Rat}, dues[a]? = some time → (dues ++ [due])[a]? = some time :=
    fun ha => (List.getElem?_append_left (List.getElem?_eq_some_iff.mp ha).1).trans ha
  have hold : SameTimers k k' := sameTimers_of_push htimers
  have hself : k'.timers[k.timers.size]? = some timer := htimers ▸ Array.getElem?_push_size
  have hnew : ∀ a, timer.action = .ring a → (dues ++ [due])[a]? = some due := by
    intro a ha
    rw [haction] at ha
    cases ha
    rw [← h.alarms, List.getElem?_concat_length]
  refine ⟨?_, fun x hx => ?_, fun t ht => ?_, fun a alarm' ha hrung => ?_⟩
  · rw [halarms, Array.size_push, List.length_append, h.alarms]
    rfl
  · rcases hqueue x hx with hx | rfl
    · obtain ⟨timer', htimer', hdue⟩ := h.queued x hx
      obtain ⟨timer'', htimer'', hsame⟩ := hold _ timer' htimer'
      exact ⟨timer'', htimer'', fun a ha => hkept (hdue a (hsame ▸ ha))⟩
    · exact ⟨timer, hself, hnew⟩
  · have hcases : .timer t ∈ rest ++ k.ready.toList ∨ t = k.timers.size ∧ Due k.clock due := by
      rcases List.mem_append.mp ht with ht | ht
      · exact .inl (List.mem_append_left _ ht)
      · exact (hready t (Array.mem_toList_iff.mp ht)).imp_left fun ht =>
          List.mem_append_right _ (Array.mem_toList_iff.mpr ht)
    rcases hcases with ht | ⟨rfl, hd⟩
    · obtain ⟨timer', htimer', hdue⟩ := h.called t ht
      obtain ⟨timer'', htimer'', hsame⟩ := hold _ timer' htimer'
      refine ⟨timer'', htimer'', fun a ha => ?_⟩
      obtain ⟨time, htime, hd⟩ := hdue a (hsame ▸ ha)
      exact ⟨time, hkept htime, hclock ▸ hd⟩
    · exact ⟨timer, hself, fun a ha => ⟨due, hnew a ha, hclock ▸ hd⟩⟩
  · rw [halarms, Array.getElem?_push] at ha
    split at ha
    · cases ha
      rw [hsilent] at hrung
      cases hrung
    · obtain ⟨time, htime, hd⟩ := h.rung a alarm' ha hrung
      exact ⟨time, hkept htime, hclock ▸ hd⟩

/-- **An alarm is due after its delay.** -/
theorem Punctual.setAlarm (h : Punctual dues rest k) (me : Nat) (delay : Rat) :
    Punctual (dues ++ [Binary64.snap (k.clock + delay)]) rest (k.setAlarm me delay).2 := by
  unfold Scheduler.setAlarm
  simp only []
  split
  · rename_i hnow
    refine h.pushAlarm rfl rfl rfl rfl rfl (fun _ hx => .inl hx) fun t ht => ?_
    rcases Array.mem_push.mp ht with ht | ht
    · exact .inl ht
    · cases ht
      exact .inr ⟨rfl, .inl hnow⟩
  · exact h.pushAlarm rfl rfl rfl rfl rfl (fun _ hx => TimerHeap.mem_push.mp hx) fun _ ht => .inl ht

/-- Only what has rung is known to have expired. -/
theorem Punctual.dropAlarm (h : Punctual dues rest k) {me a : Nat}
    (hexpired : (k.dropAlarm me a).1 = true) : ∃ due, dues[a]? = some due ∧ Due k.clock due := by
  unfold Scheduler.dropAlarm at hexpired
  split at hexpired
  · rename_i alarm ha
    split at hexpired
    · rename_i hrung
      exact h.rung a alarm ha hrung
    · cases hexpired
  · cases hexpired

/-- **An alarm rings when it is due.** -/
theorem Punctual.ring {t : Nat} (h : Punctual dues (.timer t :: rest) k) :
    Punctual dues rest (k.ring t) := by
  have hskip : Punctual dues rest k :=
    ⟨h.alarms, h.queued, fun t' ht' => h.called t' (List.mem_cons_of_mem _ ht'), h.rung⟩
  unfold Scheduler.ring
  split
  · rename_i timer htimer
    split
    · exact hskip
    · split
      · rename_i s _
        exact hskip.step (k.leavesTimers_fire s)
      · rename_i a haction
        split
        · rename_i alarm halarm
          have hasked := hskip.step (k.leavesTimers_interrupt alarm.task)
          have hsame : (k.interrupt alarm.task).alarms = k.alarms :=
            (k.leavesTimers_interrupt alarm.task).alarms
          have hclock : (k.interrupt alarm.task).clock = k.clock :=
            (k.leavesTimers_interrupt alarm.task).clock
          refine ⟨?_, hasked.queued, hasked.called, fun i alarm' hi hrung => ?_⟩
          · rw [h.alarms]
            exact Array.size_modify.symm
          · change (k.alarms.modify a fun alarm => { alarm with rung := true })[i]? = _ at hi
            change ∃ due, _ ∧ Due (k.interrupt alarm.task).clock due
            rw [hclock]
            by_cases hai : a = i
            · subst hai
              obtain ⟨timer', htimer', hdue⟩ := h.called t List.mem_cons_self
              cases htimer.symm.trans htimer'
              exact hdue a haction
            · rw [Array.getElem?_modify, if_neg hai] at hi
              exact h.rung i alarm' hi hrung
        · exact hskip
  · exact hskip

/-! ### Rounds -/

/-- **Timers are called for when they are due.** -/
theorem Punctual.release {limit : Rat} (fuel : Nat) : ∀ {k : Scheduler σ ν}, Punctual dues rest k →
    limit ≤ Binary64.snap (k.clock + resolution) →
    Punctual dues rest (Scheduler.release limit fuel k) := by
  induction fuel with
  | zero => exact fun h _ => h
  | succ fuel ih =>
    intro k h hlimit
    unfold Scheduler.release
    split
    · rename_i time t hfirst
      split
      · rename_i hdue
        have hmem := TimerHeap.mem_of_first? hfirst
        have hsame : SameTimers k (k.unqueue t) := (k.leavesTimers_unqueue t).timers
        refine ih (k := { k.unqueue t with
          queue := k.queue.removeFirst, ready := k.ready.push (.timer t) })
          ⟨h.alarms, fun x hx => ?_, fun i hi => ?_, h.rung⟩ hlimit
        · obtain ⟨timer, htimer, hd⟩ := h.queued x (TimerHeap.mem_of_mem_removeFirst hx)
          obtain ⟨timer', htimer', haction⟩ := hsame _ timer htimer
          exact ⟨timer', htimer', fun a ha => hd a (haction ▸ ha)⟩
        · have hcases : .timer i ∈ rest ++ k.ready.toList ∨ i = t := by
            rcases List.mem_append.mp hi with hi | hi
            · exact .inl (List.mem_append_left _ hi)
            · rcases Array.mem_push.mp (Array.mem_toList_iff.mp hi) with hi | hi
              · exact .inl (List.mem_append_right _ (Array.mem_toList_iff.mpr hi))
              · cases hi
                exact .inr rfl
          rcases hcases with hi | rfl
          · obtain ⟨timer, htimer, hd⟩ := h.called i hi
            obtain ⟨timer', htimer', haction⟩ := hsame _ timer htimer
            exact ⟨timer', htimer', fun a ha => hd a (haction ▸ ha)⟩
          · obtain ⟨timer, htimer, hd⟩ := h.queued (time, i) hmem
            obtain ⟨timer', htimer', haction⟩ := hsame _ timer htimer
            refine ⟨timer', htimer', fun a ha => ⟨time, hd a (haction ▸ ha), ?_⟩⟩
            rw [Bool.or_eq_true, decide_eq_true_eq, decide_eq_true_eq] at hdue
            exact hdue.imp id fun hlt => hlt.trans_le hlimit
      · exact h
    · exact h

theorem release_clock (limit : Rat) (fuel : Nat) : ∀ k : Scheduler σ ν,
    (Scheduler.release limit fuel k).clock = k.clock := by
  induction fuel with
  | zero => exact fun _ => rfl
  | succ fuel ih =>
    intro k
    unfold Scheduler.release
    split
    · split
      · exact ih _
      · rfl
    · rfl

/-- Between rounds the clock only moves on. -/
theorem collect_le (k : Scheduler σ ν) : k.clock ≤ k.collect.clock := by
  have hadvance := k.tidy.advance_le
  rw [k.leavesTimers_tidy.clock] at hadvance
  unfold collect
  rwa [release_clock]

theorem Punctual.collect (h : Punctual dues rest k) : Punctual dues rest k.collect :=
  (h.step k.leavesTimers_tidy).advance.release _ (le_refl _)

/-- The jobs that were ready are those to be done. -/
theorem Punctual.takeReady (h : Punctual dues [] k) :
    Punctual dues k.ready.toList { k with ready := #[] } :=
  ⟨h.alarms, h.queued, fun t ht => h.called t (by simpa using ht), h.rung⟩

theorem punctual_start (s : σ) : Punctual [] [] ({ shared := s } : Scheduler σ ν) :=
  ⟨rfl, fun _ hx => absurd hx (Array.not_mem_empty _), nofun, by simp⟩

end Scheduler

end ChatCommands.Concurrency
