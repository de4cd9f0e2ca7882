import ChatCommands.Proofs.Concurrency.Scene
import Mathlib.Data.List.Nodup

/-!
Tasks are woken by what they wait for.

A task that waits is woken once: by a watcher of the cell that it waits for, as long as the cell is
pending, and then by a job that is ready.  So whoever gets a turn for a cell waits for this cell, and
something has happened to it.  No operation disturbs this order, and a task that comes to wait finds
its place in it.
-/

namespace ChatCommands.Concurrency.Scheduler

variable {σ ν : Type}

/-- The task to which a job gives a turn, and the cell by which it is woken. -/
def wakeOf : Job σ ν → Option (Nat × Option Nat)
  | .turn t wokenBy => some (t, wokenBy)
  | .run .. | .timer _ => none

/-- The tasks that will get a turn. -/
def wakes (jobs : List (Job σ ν)) : List (Nat × Option Nat) := jobs.filterMap wakeOf

/-- The task that a watcher wakes. -/
def resumeOf : Nat × Watcher σ ν → Option Nat
  | (_, .resume t) => some t
  | (_, .run _) => none

/-- The tasks that watchers wake. -/
def resumes (watchers : List (Nat × Watcher σ ν)) : List Nat := watchers.filterMap resumeOf

/-- The task has not ended. -/
def Live (k : Scheduler σ ν) (t : Nat) : Prop := (k.task? t).isSome = true

/-- Every task but the busy one is woken once, and by what it waits for: by a cell, or by none if it
waits for its turn.  The jobs of `rest` are still to be done, before those that are ready. -/
structure Orderly (waits : Nat → Option Nat) (busy : Option Nat) (rest : List (Job σ ν))
    (k : Scheduler σ ν) : Prop where
  quiet : ∀ (c : Nat) cell, k.cells[c]? = some cell → cell.status.isDone = true →
    resumes cell.watchers = []
  watched : ∀ (c : Nat) cell, k.cells[c]? = some cell → ∀ t ∈ resumes cell.watchers,
    t < k.cells.size ∧ busy ≠ some t ∧ (k.Live t → waits t = some c)
  once : ∀ (c : Nat) cell, k.cells[c]? = some cell → (resumes cell.watchers).Nodup
  woken : ∀ w ∈ wakes (rest ++ k.ready.toList), w.1 < k.cells.size ∧ busy ≠ some w.1 ∧
    (k.Live w.1 → waits w.1 = w.2 ∧
      ∀ c, w.2 = some c → c < k.cells.size ∧ (k.statusOf c).isDone = true)
  single : ∀ t, k.Live t → ((wakes (rest ++ k.ready.toList)).map Prod.fst).count t ≤ 1

/-- There is a timer that is to fire the signal. -/
def Timed (k : Scheduler σ ν) (s : Nat) : Prop :=
  ∃ (t : Nat) (timer : Timer), k.timers[t]? = some timer ∧ timer.action = .fire s

/-- An operation after which the tasks are woken as before; it starts no task, and sets no timer that
is to fire a signal. -/
structure KeepsOrder (k k' : Scheduler σ ν) : Prop where
  order : ∀ waits busy rest, Orderly waits busy rest k → Orderly waits busy rest k'
  live : ∀ t, k'.Live t → k.Live t
  timed : ∀ s, k'.Timed s → k.Timed s

variable {k k' k'' : Scheduler σ ν}

theorem KeepsOrder.refl (k : Scheduler σ ν) : KeepsOrder k k :=
  ⟨fun _ _ _ h => h, fun _ h => h, fun _ h => h⟩

theorem KeepsOrder.trans (h : KeepsOrder k k') (h' : KeepsOrder k' k'') : KeepsOrder k k'' :=
  ⟨fun _ _ _ ho => h'.order _ _ _ (h.order _ _ _ ho), fun t ht => h.live t (h'.live t ht),
    fun s hs => h.timed s (h'.timed s hs)⟩

@[simp] theorem wakes_append (js js' : List (Job σ ν)) :
    wakes (js ++ js') = wakes js ++ wakes js' :=
  List.filterMap_append

theorem live_iff {t : Nat} : k.Live t ↔ ∃ cell, k.cells[t]? = some cell ∧ cell.task.isSome := by
  simp [Live, task?, Option.isSome_bind, Option.any_eq_true]

/-- What is done with a cell that does not wake anyone. -/
structure Calm (cell cell' : Cell σ ν) : Prop where
  status : cell'.status = cell.status
  watchers : (resumes cell'.watchers).Sublist (resumes cell.watchers)
  task : cell'.task.isSome = true → cell.task.isSome = true

theorem Calm.refl (cell : Cell σ ν) : Calm cell cell := ⟨rfl, .refl _, id⟩

/-- **An operation that wakes nobody.** -/
theorem keepsOrder_of_calm (hsize : k'.cells.size = k.cells.size)
    (hcells : ∀ (c : Nat) cell', k'.cells[c]? = some cell' →
      ∃ cell, k.cells[c]? = some cell ∧ Calm cell cell')
    (hready : wakes k'.ready.toList = wakes k.ready.toList)
    (htimed : ∀ s, k'.Timed s → k.Timed s) : KeepsOrder k k' := by
  have hlive : ∀ t, k'.Live t → k.Live t := by
    intro t ht
    obtain ⟨cell', hc', htask⟩ := live_iff.mp ht
    obtain ⟨cell, hc, hcalm⟩ := hcells t cell' hc'
    exact live_iff.mpr ⟨cell, hc, hcalm.task htask⟩
  refine ⟨fun waits busy rest h => ?_, hlive, htimed⟩
  have hstatus : ∀ c, k'.statusOf c = k.statusOf c := by
    intro c
    cases hc' : k'.cells[c]? with
    | some cell' =>
      obtain ⟨cell, hc, hcalm⟩ := hcells c cell' hc'
      rw [statusOf_eq hc', statusOf_eq hc, hcalm.status]
    | none =>
      have hc : k.cells[c]? = none := by
        rw [Array.getElem?_eq_none_iff] at hc' ⊢
        exact hsize ▸ hc'
      simp [statusOf, hc, hc']
  have hwakes : wakes (rest ++ k'.ready.toList) = wakes (rest ++ k.ready.toList) := by
    rw [wakes_append, wakes_append, hready]
  refine ⟨fun c cell' hc' hdone => ?_, fun c cell' hc' t ht => ?_, fun c cell' hc' => ?_,
    fun w hw => ?_, fun t ht => ?_⟩
  · obtain ⟨cell, hc, hcalm⟩ := hcells c cell' hc'
    have hnone := h.quiet c cell hc (hcalm.status ▸ hdone)
    exact List.sublist_nil.mp (hnone ▸ hcalm.watchers)
  · obtain ⟨cell, hc, hcalm⟩ := hcells c cell' hc'
    obtain ⟨hlt, hbusy, hwaits⟩ := h.watched c cell hc t (hcalm.watchers.subset ht)
    exact ⟨hsize ▸ hlt, hbusy, fun ht => hwaits (hlive t ht)⟩
  · obtain ⟨cell, hc, hcalm⟩ := hcells c cell' hc'
    exact (h.once c cell hc).sublist hcalm.watchers
  · obtain ⟨hlt, hbusy, hwaits⟩ := h.woken w (hwakes ▸ hw)
    refine ⟨hsize ▸ hlt, hbusy, fun hl => ?_⟩
    obtain ⟨heq, hdone⟩ := hwaits (hlive _ hl)
    exact ⟨heq, fun c hc => ⟨hsize ▸ (hdone c hc).1, hstatus c ▸ (hdone c hc).2⟩⟩
  · exact hwakes ▸ h.single t (hlive t ht)

theorem keepsOrder_modifyCell (k : Scheduler σ ν) (c : Nat) {f : Cell σ ν → Cell σ ν}
    (hf : ∀ cell, Calm cell (f cell)) : KeepsOrder k (k.modifyCell c f) := by
  refine keepsOrder_of_calm Array.size_modify (fun i cell' hi => ?_) rfl fun _ h => h
  rw [getElem?_modifyCell] at hi
  split at hi
  · obtain ⟨cell, hc, rfl⟩ := Option.map_eq_some_iff.mp hi
    exact ⟨cell, hc, hf cell⟩
  · exact ⟨cell', hi, .refl _⟩

theorem keepsOrder_modifyTask (k : Scheduler σ ν) (t : Nat)
    (f : TaskState σ ν → TaskState σ ν) : KeepsOrder k (k.modifyTask t f) :=
  k.keepsOrder_modifyCell t fun cell => ⟨rfl, .refl _, by simp⟩

/-- An operation on the timers and on jobs that give nobody a turn. -/
theorem keepsOrder_of_cells (hcells : k'.cells = k.cells)
    (hready : wakes k'.ready.toList = wakes k.ready.toList)
    (htimed : ∀ s, k'.Timed s → k.Timed s) : KeepsOrder k k' :=
  keepsOrder_of_calm (by rw [hcells]) (fun _ cell' hc => ⟨cell', hcells ▸ hc, .refl _⟩) hready
    htimed

/-- Timers may be changed as long as they do the same. -/
theorem Timed.of_modify {s t : Nat} {f : Timer → Timer} (h : k'.Timed s)
    (htimers : k'.timers = k.timers.modify t f)
    (hf : ∀ timer, (f timer).action = timer.action) : k.Timed s := by
  obtain ⟨i, timer, ht, haction⟩ := h
  rw [htimers, Array.getElem?_modify] at ht
  split at ht
  · obtain ⟨timer', ht', rfl⟩ := Option.map_eq_some_iff.mp ht
    exact ⟨i, timer', ht', (hf timer').symm.trans haction⟩
  · exact ⟨i, timer, ht, haction⟩

theorem wakes_settled (c : Nat) (watchers : List (Nat × Watcher σ ν)) :
    ∀ ready : Array (Job σ ν),
      wakes (watchers.foldl (fun r w => r.push (jobOf c w.2)) ready).toList =
        wakes ready.toList ++ (resumes watchers).map fun t => (t, some c) := by
  induction watchers with
  | nil => simp [resumes]
  | cons w watchers ih =>
    intro ready
    rw [List.foldl_cons, ih, Array.toList_push, wakes_append]
    obtain ⟨_, t | program⟩ := w
    · simp [wakes, wakeOf, jobOf, resumes, resumeOf]
    · change wakes ready.toList ++ [] ++ _ = _
      rw [List.append_nil]
      rfl

/-- **When something happens to a cell, those who wait for it are woken.** -/
theorem keepsOrder_settle (k : Scheduler σ ν) (c : Nat) {s : CellStatus ν}
    (hs : s.isDone = true) : KeepsOrder k (k.settle c s) := by
  cases hc : k.cells[c]? with
  | none =>
    unfold settle
    rw [hc]
    exact .refl k
  | some cell =>
  by_cases hpending : cell.status.isDone = true
  · unfold settle
    rw [hc]
    simp only [if_pos hpending]
    exact .refl k
  have hsize : (k.settle c s).cells.size = k.cells.size := by
    simp [settle, hc, hpending, modifyCell]
  have hcells : ∀ i : Nat, (k.settle c s).cells[i]? = if c = i then
      some { cell with status := s, watchers := [], task := none } else k.cells[i]? := by
    intro i
    simp only [settle, hc, if_neg hpending]
    refine (k.getElem?_modifyCell c i _).trans ?_
    split
    · rename_i heq
      rw [← heq, hc]
      rfl
    · rfl
  have hready : wakes (k.settle c s).ready.toList =
      wakes k.ready.toList ++ (resumes cell.watchers).map fun t => (t, some c) := by
    simp only [settle, hc, if_neg hpending]
    exact wakes_settled c cell.watchers k.ready
  have htimed : (k.settle c s).timers = k.timers := by
    simp only [settle, hc, if_neg hpending]
    rfl
  generalize k.settle c s = k' at hsize hcells hready htimed
  have hlive : ∀ t, k'.Live t → k.Live t := by
    intro t ht
    obtain ⟨cell', hc', htask⟩ := live_iff.mp ht
    rw [hcells] at hc'
    split at hc'
    · cases hc'
      cases htask
    · exact live_iff.mpr ⟨cell', hc', htask⟩
  refine ⟨fun waits busy rest h => ?_, hlive, fun _ => by unfold Timed; rw [htimed]; exact id⟩
  have hstatus : ∀ i, (k.statusOf i).isDone = true → (k'.statusOf i).isDone = true := by
    intro i hi
    unfold statusOf at hi ⊢
    rw [hcells]
    by_cases heq : c = i
    · rw [if_pos heq]
      exact hs
    · rwa [if_neg heq]
  have hstatus_self : (k'.statusOf c).isDone = true := by
    unfold statusOf
    rw [hcells, if_pos rfl]
    exact hs
  have hwakes : wakes (rest ++ k'.ready.toList) =
      wakes (rest ++ k.ready.toList) ++ (resumes cell.watchers).map fun t => (t, some c) := by
    rw [wakes_append, wakes_append, hready, List.append_assoc]
  refine ⟨fun i cell' hi hdone => ?_, fun i cell' hi t ht => ?_, fun i cell' hi => ?_,
    fun w hw => ?_, fun t ht => ?_⟩
  · rw [hcells] at hi
    split at hi
    · cases hi
      rfl
    · exact h.quiet i cell' hi hdone
  · rw [hcells] at hi
    split at hi
    · cases hi
      cases ht
    · obtain ⟨hlt, hbusy, hwaits⟩ := h.watched i cell' hi t ht
      exact ⟨hsize ▸ hlt, hbusy, fun ht => hwaits (hlive t ht)⟩
  · rw [hcells] at hi
    split at hi
    · cases hi
      exact List.nodup_nil
    · exact h.once i cell' hi
  · rw [hwakes] at hw
    rcases List.mem_append.mp hw with hw | hw
    · obtain ⟨hlt, hbusy, hwaits⟩ := h.woken w hw
      refine ⟨hsize ▸ hlt, hbusy, fun hl => ?_⟩
      obtain ⟨heq, hdone⟩ := hwaits (hlive _ hl)
      exact ⟨heq, fun i hi => ⟨hsize ▸ (hdone i hi).1, hstatus i (hdone i hi).2⟩⟩
    · obtain ⟨t, ht, rfl⟩ := List.mem_map.mp hw
      obtain ⟨hlt, hbusy, hwaits⟩ := h.watched c cell hc t ht
      refine ⟨hsize ▸ hlt, hbusy, fun hl => ⟨hwaits (hlive t hl), fun i hi => ?_⟩⟩
      cases hi
      exact ⟨hsize ▸ (Array.getElem?_eq_some_iff.mp hc).1, hstatus_self⟩
  · have hmap : ((resumes cell.watchers).map fun t => (t, some c)).map Prod.fst =
        resumes cell.watchers := by
      rw [List.map_map]
      exact List.map_id _
    rw [hwakes, List.map_append, hmap, List.count_append]
    have hjobs := h.single t (hlive t ht)
    have honce : (resumes cell.watchers).count t ≤ 1 := List.nodup_iff_count_le_one.mp (h.once c cell hc) t
    by_cases hmem : t ∈ resumes cell.watchers
    · -- it waits for this cell, which was pending: so no job was to wake it
      have hnone : ((wakes (rest ++ k.ready.toList)).map Prod.fst).count t = 0 := by
        rw [List.count_eq_zero]
        intro hin
        obtain ⟨w, hw, rfl⟩ := List.mem_map.mp hin
        obtain ⟨heq, hdone⟩ := (h.woken w hw).2.2 (hlive _ ht)
        have hself : w.2 = some c :=
          heq.symm.trans ((h.watched c cell hc w.1 hmem).2.2 (hlive _ ht))
        exact hpending (statusOf_eq hc ▸ (hdone c hself).2)
      omega
    · have hnone : (resumes cell.watchers).count t = 0 := List.count_eq_zero.mpr hmem
      omega

theorem keepsOrder_fire (k : Scheduler σ ν) (c : Nat) : KeepsOrder k (k.fire c) := by
  unfold fire
  split
  · split
    · exact k.keepsOrder_modifyCell c (f := fun cell => { cell with count := cell.count - 1 })
        fun cell => ⟨rfl, .refl _, id⟩
    · split
      · exact k.keepsOrder_settle c rfl
      · exact k.keepsOrder_settle c rfl
  · exact .refl k

theorem Orderly.idle {waits : Nat → Option Nat} {busy : Option Nat} {rest : List (Job σ ν)}
    (h : Orderly waits busy rest k) : Orderly waits none rest k where
  quiet := h.quiet
  watched c cell hc t ht := ⟨(h.watched c cell hc t ht).1, nofun, (h.watched c cell hc t ht).2.2⟩
  once := h.once
  woken w hw := ⟨(h.woken w hw).1, nofun, (h.woken w hw).2.2⟩
  single := h.single

theorem Orderly.addCell {waits : Nat → Option Nat} {busy : Option Nat} {rest : List (Job σ ν)}
    (h : Orderly waits busy rest k) {cell : Cell σ ν} (hw : resumes cell.watchers = []) :
    Orderly waits busy rest (k.addCell cell).2 := by
  have hcells : ∀ i : Nat, (k.addCell cell).2.cells[i]? =
      if i = k.cells.size then some cell else k.cells[i]? := fun i => Array.getElem?_push
  have hlive : ∀ t, t < k.cells.size → (k.addCell cell).2.Live t → k.Live t := by
    intro t hlt ht
    obtain ⟨cell', hc', ht'⟩ := live_iff.mp ht
    rw [hcells, if_neg (Nat.ne_of_lt hlt)] at hc'
    exact live_iff.mpr ⟨cell', hc', ht'⟩
  have hstatus : ∀ i, i < k.cells.size → (k.addCell cell).2.statusOf i = k.statusOf i := by
    intro i hi
    unfold statusOf
    rw [hcells, if_neg (Nat.ne_of_lt hi)]
  have hlt : ∀ t, t < k.cells.size → t < (k.addCell cell).2.cells.size := fun t ht =>
    Nat.lt_of_lt_of_eq (Nat.lt_succ_of_lt ht) (Array.size_push ..).symm
  refine ⟨fun i cell' hi hdone => ?_, fun i cell' hi t ht => ?_, fun i cell' hi => ?_,
    fun w hwake => ?_, fun t ht => ?_⟩
  · rw [hcells] at hi
    split at hi
    · cases hi
      exact hw
    · exact h.quiet i cell' hi hdone
  · rw [hcells] at hi
    split at hi
    · cases hi
      rw [hw] at ht
      cases ht
    · obtain ⟨hsize, hbusy, hwaits⟩ := h.watched i cell' hi t ht
      exact ⟨hlt t hsize, hbusy, fun ht => hwaits (hlive t hsize ht)⟩
  · rw [hcells] at hi
    split at hi
    · cases hi
      rw [hw]
      exact List.nodup_nil
    · exact h.once i cell' hi
  · obtain ⟨hsize, hbusy, hwaits⟩ := h.woken w hwake
    refine ⟨hlt _ hsize, hbusy, fun hl => ?_⟩
    obtain ⟨heq, hdone⟩ := hwaits (hlive _ hsize hl)
    refine ⟨heq, fun c hc => ?_⟩
    obtain ⟨hc, hdone⟩ := hdone c hc
    exact ⟨hlt c hc, (hstatus c hc).symm ▸ hdone⟩
  · by_cases hsize : t < k.cells.size
    · exact h.single t (hlive t hsize ht)
    · -- nobody is woken whose number has not been given
      have hnone : t ∉ (wakes (rest ++ k.ready.toList)).map Prod.fst := by
        intro hin
        obtain ⟨w, hw', rfl⟩ := List.mem_map.mp hin
        exact hsize (h.woken w hw').1
      exact Nat.le_trans (Nat.le_of_eq (List.count_eq_zero.mpr hnone)) (Nat.zero_le 1)

theorem keepsOrder_addCell (k : Scheduler σ ν) {cell : Cell σ ν}
    (hw : resumes cell.watchers = []) (htask : cell.task = none) :
    KeepsOrder k (k.addCell cell).2 := by
  refine ⟨fun _ _ _ h => h.addCell hw, fun t ht => ?_, fun _ h => h⟩
  obtain ⟨cell', hc', ht'⟩ := live_iff.mp ht
  rw [Scheduler.addCell, Array.getElem?_push] at hc'
  split at hc'
  · cases hc'
    rw [htask] at ht'
    cases ht'
  · exact live_iff.mpr ⟨cell', hc', ht'⟩

/-- A watcher that runs a program wakes nobody. -/
theorem keepsOrder_addReaction (k : Scheduler σ ν) (c : Nat)
    (program : CellStatus ν → Task σ ν) : KeepsOrder k (k.addWatcher c (.run program)) := by
  unfold addWatcher
  simp only []
  split
  · refine keepsOrder_of_cells rfl ?_ fun _ h => h
    rw [Array.toList_push, wakes_append]
    exact List.append_nil _
  · have hcalm : ∀ cell : Cell σ ν, Calm cell
        { cell with watchers := cell.watchers ++ [(k.watches, .run program)] } := by
      intro cell
      refine ⟨rfl, ?_, id⟩
      have h : resumes (cell.watchers ++ [(k.watches, .run program)]) = resumes cell.watchers := by
        simp [resumes, resumeOf]
      rw [h]
    have hcounted : KeepsOrder k { k with watches := k.watches + 1 } :=
      keepsOrder_of_cells rfl rfl fun _ h => h
    exact hcounted.trans (keepsOrder_modifyCell _ c hcalm)

theorem keepsOrder_dropTimer (k : Scheduler σ ν) (t : Nat) : KeepsOrder k (k.dropTimer t) := by
  unfold dropTimer
  split
  · split
    · exact .refl k
    · exact keepsOrder_of_cells rfl rfl fun _ h => 
        h.of_modify (f := fun timer => { timer with dropped := true }) rfl fun _ => rfl
  · exact .refl k

/-- A new timer is the only one that may fire another signal. -/
theorem timed_push {s : Nat} {timer : Timer} (htimers : k'.timers = k.timers.push timer)
    (h : k'.Timed s) : k.Timed s ∨ timer.action = .fire s := by
  obtain ⟨i, timer', ht, haction⟩ := h
  rw [htimers, Array.getElem?_push] at ht
  split at ht
  · cases ht
    exact .inr haction
  · exact .inl ⟨i, timer', ht, haction⟩

theorem keepsOrder_setAlarm (k : Scheduler σ ν) (me : Nat) (delay : Rat) :
    KeepsOrder k (k.setAlarm me delay).2 := by
  have hring : ∀ {k' : Scheduler σ ν} {timer : Timer}, k'.timers = k.timers.push timer →
      timer.action = .ring k.alarms.size → ∀ s, k'.Timed s → k.Timed s := by
    intro k' timer htimers haction s h
    exact (timed_push htimers h).resolve_right fun heq => by rw [haction] at heq; cases heq
  unfold setAlarm
  simp only []
  split
  · refine keepsOrder_of_cells rfl ?_ (hring rfl rfl)
    simp [wakes, wakeOf]
  · exact keepsOrder_of_cells rfl rfl (hring rfl rfl)

theorem keepsOrder_dropAlarm (k : Scheduler σ ν) (me a : Nat) :
    KeepsOrder k (k.dropAlarm me a).2 := by
  unfold dropAlarm
  split
  · split
    · exact k.keepsOrder_modifyTask me _
    · exact k.keepsOrder_dropTimer _
  · exact .refl k

theorem keepsOrder_interruptCell (fuel : Nat) : ∀ (k : Scheduler σ ν) (c : Nat),
    KeepsOrder k (interruptCell fuel k c).2 := by
  induction fuel with
  | zero => exact fun k _ => .refl k
  | succ fuel ih =>
    intro k c
    unfold interruptCell
    split
    · exact .refl k
    · exact .refl k
    · rename_i cell hfuel hc
      cases hfuel
      split
      · exact .refl k
      · split
        · rename_i task _
          have hasked := k.keepsOrder_modifyTask c fun s => { s with requests := s.requests + 1 }
          cases hw : task.waitingFor with
          | none => exact hasked.trans (keepsOrder_modifyTask _ c _)
          | some w =>
            have hpassed := hasked.trans (ih _ w)
            simp only []
            split
            · exact hpassed
            · exact hpassed.trans (keepsOrder_modifyTask _ c _)
        · split
          · exact k.keepsOrder_settle c rfl
          · have hfold : ∀ (ms : List Nat) (any : Bool) (k' : Scheduler σ ν), KeepsOrder k k' →
                KeepsOrder k (ms.foldl (fun (acc : Bool × Scheduler σ ν) m =>
                  (acc.1 || (interruptCell fuel acc.2 m).1,
                    (interruptCell fuel acc.2 m).2)) (any, k')).2 := by
              intro ms
              induction ms with
              | nil => exact fun _ _ h => h
              | cons m ms ihm => exact fun _ k' h => ihm _ _ (h.trans (ih k' m))
            refine (hfold cell.members false k (.refl k)).trans ?_
            exact keepsOrder_modifyCell _ c (f := fun cell =>
              { cell with membersInterrupted := cell.membersInterrupted || _ })
              fun cell => ⟨rfl, .refl _, id⟩

theorem keepsOrder_interrupt (k : Scheduler σ ν) (t : Nat) : KeepsOrder k (k.interrupt t) :=
  keepsOrder_interruptCell _ k t

theorem keepsOrder_perform (k : Scheduler σ ν) (me : Nat) {c : Call ν} (hc : c.timed? = none) :
    KeepsOrder k (k.perform me c).2 := by
  cases c with
  | now | status cell => exact .refl k
  | newSignal count members => exact k.keepsOrder_addCell rfl rfl
  | fire signal => exact k.keepsOrder_fire signal
  | fail signal f => exact k.keepsOrder_settle signal rfl
  | fireAfter delay signal => cases hc
  | dropTimer timer => exact k.keepsOrder_dropTimer timer
  | setAlarm delay => exact k.keepsOrder_setAlarm me delay
  | dropAlarm alarm => exact k.keepsOrder_dropAlarm me alarm
  | interrupt task => exact k.keepsOrder_interrupt task
  | unwatch cell watch =>
    exact k.keepsOrder_modifyCell cell fun cell =>
      ⟨rfl, List.filter_sublist.filterMap resumeOf, id⟩

/-- No primitive step starts a task. -/
theorem live_perform (k : Scheduler σ ν) (me : Nat) (c : Call ν) (t : Nat)
    (h : (k.perform me c).2.Live t) : k.Live t := by
  cases c with
  | fireAfter delay signal => exact h
  | _ => exact (k.keepsOrder_perform me rfl).live t h

theorem keepsOrder_ring (k : Scheduler σ ν) (t : Nat) : KeepsOrder k (k.ring t) := by
  unfold ring
  split
  · split
    · exact .refl k
    · split
      · exact k.keepsOrder_fire _
      · split
        · rename_i alarm _
          exact (k.keepsOrder_interrupt alarm.task).trans
            (keepsOrder_of_cells rfl rfl fun _ h => h)
        · exact .refl k
  · exact .refl k

theorem keepsOrder_finish (k : Scheduler σ ν) (me : Nat) (r : Ending ν) :
    KeepsOrder k (k.finish me r).2 := by
  unfold finish
  split
  · split
    · exact k.keepsOrder_settle me rfl
    · split
      · exact .refl k
      · exact k.keepsOrder_settle me rfl
  · exact .refl k

/-! ### The next round -/

theorem keepsOrder_unqueue (k : Scheduler σ ν) (t : Nat) : KeepsOrder k (k.unqueue t) :=
  keepsOrder_of_cells rfl rfl fun _ h =>
    h.of_modify (f := fun timer => { timer with queued := false }) rfl fun _ => rfl

theorem keepsOrder_skipDropped (fuel : Nat) : ∀ k : Scheduler σ ν,
    KeepsOrder k (skipDropped fuel k) := by
  induction fuel with
  | zero => exact .refl
  | succ fuel ih =>
    intro k
    unfold skipDropped
    split
    · rename_i t _
      split
      · have hremove : KeepsOrder (k.unqueue t) { k.unqueue t with
            queue := k.queue.removeFirst, droppedQueued := k.droppedQueued - 1 } :=
          keepsOrder_of_cells rfl rfl fun _ h => h
        exact ((k.keepsOrder_unqueue t).trans hremove).trans (ih _)
      · exact .refl k
    · exact .refl k

theorem keepsOrder_tidy (k : Scheduler σ ν) : KeepsOrder k k.tidy := by
  have hfold : ∀ (xs : List (Rat × Nat)) (k : Scheduler σ ν),
      KeepsOrder k (xs.foldl (fun k x => k.unqueue x.2) k) := by
    intro xs
    induction xs with
    | nil => exact .refl
    | cons x xs ih => exact fun k => (k.keepsOrder_unqueue x.2).trans (ih _)
  unfold tidy
  split
  · have h := hfold (k.queue.filter fun x => k.isDropped x.2).toList k
    rw [Array.foldl_toList] at h
    exact h.trans (keepsOrder_of_cells rfl rfl fun _ h => h)
  · exact k.keepsOrder_skipDropped _

theorem keepsOrder_release (limit : Rat) (fuel : Nat) : ∀ k : Scheduler σ ν,
    KeepsOrder k (release limit fuel k) := by
  induction fuel with
  | zero => exact .refl
  | succ fuel ih =>
    intro k
    unfold release
    split
    · split
      · rename_i t _ _
        have hpush : KeepsOrder (k.unqueue t) { k.unqueue t with
            queue := k.queue.removeFirst, ready := k.ready.push (.timer t) } :=
          keepsOrder_of_cells rfl (by simp [wakes, wakeOf, unqueue]) fun _ h => h
        exact ((k.keepsOrder_unqueue t).trans hpush).trans (ih _)
      · exact .refl k
    · exact .refl k

theorem keepsOrder_collect (k : Scheduler σ ν) : KeepsOrder k k.collect := by
  have hadvance : KeepsOrder k.tidy k.tidy.advance := by
    unfold advance
    split
    · exact keepsOrder_of_cells rfl rfl fun _ h => h
    · exact .refl _
  exact (k.keepsOrder_tidy.trans hadvance).trans (keepsOrder_release _ _ _)

/-! ### Those who come to wait -/

variable {waits : Nat → Option Nat} {busy : Option Nat} {rest : List (Job σ ν)} {t me c : Nat}

theorem Orderly.congr (h : Orderly waits busy rest k) {waits' : Nat → Option Nat}
    (heq : ∀ t, t < k.cells.size → busy ≠ some t → waits' t = waits t) :
    Orderly waits' busy rest k := by
  refine { h with watched := fun c cell hc t ht => ?_, woken := fun w hw => ?_ }
  · obtain ⟨hlt, hbusy, hwaits⟩ := h.watched c cell hc t ht
    exact ⟨hlt, hbusy, fun hl => (heq t hlt hbusy).trans (hwaits hl)⟩
  · obtain ⟨hlt, hbusy, hwaits⟩ := h.woken w hw
    refine ⟨hlt, hbusy, fun hl => ?_⟩
    obtain ⟨hw, hdone⟩ := hwaits hl
    exact ⟨(heq _ hlt hbusy).trans hw, hdone⟩

/-- The busy task may come to wait for anything. -/
theorem Orderly.update (h : Orderly waits (some me) rest k) (x : Option Nat) :
    Orderly (Function.update waits me x) (some me) rest k :=
  h.congr fun _ _ hbusy => Function.update_of_ne (fun heq => hbusy (congrArg some heq.symm)) ..

/-- Nobody wakes the busy task. -/
theorem Orderly.not_woken (h : Orderly waits (some me) rest k) :
    me ∉ (wakes (rest ++ k.ready.toList)).map Prod.fst := by
  intro hin
  obtain ⟨w, hw, rfl⟩ := List.mem_map.mp hin
  exact (h.woken w hw).2.1 rfl

/-- A task that nobody wakes waits for its turn. -/
theorem Orderly.pushTurn (h : Orderly waits busy rest k) (ht : t < k.cells.size)
    (hbusy : busy ≠ some t) (hwaits : waits t = none)
    (hnew : t ∉ (wakes (rest ++ k.ready.toList)).map Prod.fst) :
    Orderly waits busy rest { k with ready := k.ready.push (.turn t none) } := by
  have hwakes : wakes (rest ++ (k.ready.push (.turn t none)).toList) =
      wakes (rest ++ k.ready.toList) ++ [(t, none)] := by
    rw [Array.toList_push, ← List.append_assoc, wakes_append]
    rfl
  refine ⟨h.quiet, h.watched, h.once, fun w hw => ?_, fun t' ht' => ?_⟩
  · rw [hwakes] at hw
    rcases List.mem_append.mp hw with hw | hw
    · exact h.woken w hw
    · obtain rfl := List.mem_singleton.mp hw
      exact ⟨ht, hbusy, fun _ => ⟨hwaits, nofun⟩⟩
  · rw [hwakes, List.map_append, List.count_append]
    by_cases heq : t' = t
    · subst heq
      rw [List.count_eq_zero.mpr hnew]
      simp
    · have hother : ([(t, none)].map (Prod.fst (β := Option Nat))).count t' = 0 :=
        List.count_eq_zero.mpr fun hin => heq (List.mem_singleton.mp hin)
      rw [hother]
      exact h.single t' ht'

theorem Orderly.awaitTurn (h : Orderly waits (some me) rest k) (hme : me < k.cells.size)
    (next : Option Failure → Task σ ν) :
    Orderly (Function.update waits me none) none rest (k.awaitTurn me next) := by
  have h' := (h.update none)
  have h'' := (k.keepsOrder_modifyTask me fun s => { s with next, waitingFor := none }).order _ _ _ h'
  exact h''.idle.pushTurn (Nat.lt_of_lt_of_eq hme Array.size_modify.symm) nofun
    (Function.update_self ..) h''.not_woken

/-- A task that is started waits for its first turn. -/
theorem Orderly.addTask (h : Orderly waits busy rest k)
    (hbusy : ∀ me, busy = some me → me < k.cells.size) (repeated : Bool) (body : Task σ ν) :
    Orderly (Function.update waits k.cells.size none) busy rest (k.addTask repeated body).2 := by
  have hcongr : Orderly (Function.update waits k.cells.size none) busy rest k :=
    h.congr fun t ht _ => Function.update_of_ne (Nat.ne_of_lt ht) ..
  refine Orderly.pushTurn (k := (k.addCell _).2) (hcongr.addCell rfl)
    (Nat.lt_of_lt_of_eq (Nat.lt_succ_self _) (Array.size_push ..).symm)
    (fun heq => Nat.lt_irrefl _ (hbusy _ heq)) (Function.update_self ..) fun hin => ?_
  obtain ⟨w, hw, heq⟩ := List.mem_map.mp hin
  have hlt : w.1 < k.cells.size := (hcongr.woken w hw).1
  rw [heq] at hlt
  exact Nat.lt_irrefl _ hlt

/-- The task that was busy waits for a cell. -/
theorem Orderly.addWatcher (h : Orderly waits (some me) rest k) (hme : me < k.cells.size)
    (hc : (k.statusOf c).isDone = false) (hwaits : waits me = some c) :
    Orderly waits none rest (k.addWatcher c (.resume me)) := by
  have hpending : (statusOf { k with watches := k.watches + 1 } c).isDone = false := hc
  have hcells : ∀ i : Nat, (k.addWatcher c (.resume me)).cells[i]? = if c = i then
      k.cells[i]?.map fun cell =>
        { cell with watchers := cell.watchers ++ [(k.watches, .resume me)] } else k.cells[i]? := by
    intro i
    simp only [Scheduler.addWatcher, hpending, Bool.false_eq_true, if_false]
    exact getElem?_modifyCell _ c i _
  have hsize : (k.addWatcher c (.resume me)).cells.size = k.cells.size :=
    congrArg Scene.size (k.scene_addWatcher c (.resume me))
  have hstatus : ∀ i, (k.addWatcher c (.resume me)).statusOf i = k.statusOf i := fun i =>
    congrFun (congrArg Scene.status (k.scene_addWatcher c (.resume me))) i
  have hready : (k.addWatcher c (.resume me)).ready = k.ready := by
    simp only [Scheduler.addWatcher, hpending, Bool.false_eq_true, if_false]
    rfl
  have hnew : ∀ cell : Cell σ ν, resumes (cell.watchers ++ [(k.watches, .resume me)]) =
      resumes cell.watchers ++ [me] := fun cell => List.filterMap_append
  generalize k.addWatcher c (.resume me) = k' at hcells hsize hstatus hready
  have hlive : ∀ t, k'.Live t → k.Live t := by
    intro t ht
    obtain ⟨cell', hc', htask⟩ := live_iff.mp ht
    rw [hcells] at hc'
    split at hc'
    · obtain ⟨cell, hc, rfl⟩ := Option.map_eq_some_iff.mp hc'
      exact live_iff.mpr ⟨cell, hc, htask⟩
    · exact live_iff.mpr ⟨cell', hc', htask⟩
  refine ⟨fun i cell' hi hdone => ?_, fun i cell' hi t ht => ?_, fun i cell' hi => ?_,
    fun w hw => ?_, fun t ht => ?_⟩
  · rw [hcells] at hi
    split at hi
    · rename_i heq
      obtain ⟨cell, hcell, rfl⟩ := Option.map_eq_some_iff.mp hi
      rw [heq, statusOf_eq hcell] at hc
      exact absurd (hdone.symm.trans hc) nofun
    · exact h.quiet i cell' hi hdone
  · rw [hcells] at hi
    split at hi
    · rename_i heq
      obtain ⟨cell, hcell, rfl⟩ := Option.map_eq_some_iff.mp hi
      rcases List.mem_append.mp (hnew cell ▸ ht) with ht | ht
      · obtain ⟨hlt, -, hw⟩ := h.watched i cell hcell t ht
        exact ⟨hsize ▸ hlt, nofun, fun hl => hw (hlive t hl)⟩
      · obtain rfl := List.mem_singleton.mp ht
        exact ⟨hsize ▸ hme, nofun, fun _ => heq ▸ hwaits⟩
    · obtain ⟨hlt, -, hw⟩ := h.watched i cell' hi t ht
      exact ⟨hsize ▸ hlt, nofun, fun hl => hw (hlive t hl)⟩
  · rw [hcells] at hi
    split at hi
    · obtain ⟨cell, hcell, rfl⟩ := Option.map_eq_some_iff.mp hi
      refine (hnew cell).symm ▸ List.nodup_append.mpr ⟨h.once i cell hcell, List.nodup_singleton me,
        fun t ht t' ht' heq => ?_⟩
      obtain rfl := List.mem_singleton.mp ht'
      exact (h.watched i cell hcell t ht).2.1 (congrArg some heq.symm)
    · exact h.once i cell' hi
  · rw [hready] at hw
    obtain ⟨hlt, -, hw⟩ := h.woken w hw
    refine ⟨hsize ▸ hlt, nofun, fun hl => ?_⟩
    obtain ⟨heq, hdone⟩ := hw (hlive _ hl)
    exact ⟨heq, fun i hi => ⟨hsize ▸ (hdone i hi).1, hstatus i ▸ (hdone i hi).2⟩⟩
  · rw [hready]
    exact h.single t (hlive t ht)

/-- Who comes to wait for a cell starts no task and sets no timer. -/
theorem awaitCell_keeps (k : Scheduler σ ν) (me c : Nat) (next : Option Failure → Task σ ν) :
    (∀ t, (k.awaitCell me c next).Live t → k.Live t) ∧
      ∀ s, (k.awaitCell me c next).Timed s → k.Timed s := by
  let asked := k.modifyTask me fun s => { s with next, waitingFor := some c }
  have hasked := k.keepsOrder_modifyTask me fun s => { s with next, waitingFor := some c }
  have hwatcher : (∀ t, (asked.addWatcher c (.resume me)).Live t → k.Live t) ∧
      ∀ s, (asked.addWatcher c (.resume me)).Timed s → k.Timed s := by
    unfold Scheduler.addWatcher
    simp only []
    split
    · exact ⟨hasked.live, hasked.timed⟩
    · refine ⟨fun t ht => hasked.live t ?_, hasked.timed⟩
      obtain ⟨cell', hc', htask⟩ := live_iff.mp ht
      rw [getElem?_modifyCell] at hc'
      split at hc'
      · obtain ⟨cell, hc, rfl⟩ := Option.map_eq_some_iff.mp hc'
        exact live_iff.mpr ⟨cell, hc, htask⟩
      · exact live_iff.mpr ⟨cell', hc', htask⟩
  have hpassed := keepsOrder_interruptCell ((asked.addWatcher c (.resume me)).cells.size + 1)
    (asked.addWatcher c (.resume me)) c
  unfold Scheduler.awaitCell
  simp only []
  split
  · split
    · have hdone := hpassed.trans
        (keepsOrder_modifyTask _ me fun s => { s with interruptDue := false })
      exact ⟨fun t ht => hwatcher.1 t (hdone.live t ht), fun s hs => hwatcher.2 s (hdone.timed s hs)⟩
    · exact ⟨fun t ht => hwatcher.1 t (hpassed.live t ht),
        fun s hs => hwatcher.2 s (hpassed.timed s hs)⟩
  · exact hwatcher

theorem Orderly.awaitCell (h : Orderly waits (some me) rest k) (hme : me < k.cells.size)
    (hc : (k.statusOf c).isDone = false) (next : Option Failure → Task σ ν) :
    Orderly (Function.update waits me (some c)) none rest (k.awaitCell me c next) := by
  let asked := k.modifyTask me fun s => { s with next, waitingFor := some c }
  have hasked : Orderly _ (some me) rest asked :=
    (k.keepsOrder_modifyTask me _).order _ _ _ (h.update (some c))
  have hscene : asked.scene = k.scene := k.scene_modifyTask me _
  have hlt : me < asked.cells.size := Nat.lt_of_lt_of_eq hme (congrArg Scene.size hscene).symm
  have hstatus : asked.statusOf c = k.statusOf c := congrFun (congrArg Scene.status hscene) c
  have hwatcher := hasked.addWatcher hlt (hstatus ▸ hc) (Function.update_self ..)
  unfold Scheduler.awaitCell
  simp only []
  split
  · have hpassed := (keepsOrder_interruptCell ((asked.addWatcher c (.resume me)).cells.size + 1)
      (asked.addWatcher c (.resume me)) c).order _ _ _ hwatcher
    split
    · exact (keepsOrder_modifyTask _ me _).order _ _ _ hpassed
    · exact hpassed
  · exact hwatcher

/-- **Who gets a turn was woken by what it waits for.** -/
theorem Orderly.turn {x : Option Nat} (h : Orderly waits none (.turn t x :: rest) k)
    (hlive : k.Live t) : Orderly waits (some t) rest k ∧ t < k.cells.size ∧ waits t = x ∧
      ∀ c, x = some c → (k.statusOf c).isDone = true := by
  have hwakes : wakes (.turn t x :: rest ++ k.ready.toList) =
      (t, x) :: wakes (rest ++ k.ready.toList) := rfl
  obtain ⟨hlt, -, hwoken⟩ := h.woken (t, x) (hwakes ▸ List.mem_cons_self)
  obtain ⟨hx, hdone⟩ := hwoken hlive
  have hsingle := h.single t hlive
  rw [hwakes, List.map_cons, List.count_cons_self] at hsingle
  have hnone : t ∉ (wakes (rest ++ k.ready.toList)).map Prod.fst :=
    List.count_eq_zero.mp (Nat.le_zero.mp (Nat.le_of_succ_le_succ hsingle))
  refine ⟨⟨h.quiet, fun c cell hc t' ht' => ?_, h.once, fun w hw => ?_, fun t' ht' => ?_⟩, hlt, hx,
    fun c hc => (hdone c hc).2⟩
  · obtain ⟨hlt', -, hwaits⟩ := h.watched c cell hc t' ht'
    refine ⟨hlt', fun heq => ?_, hwaits⟩
    -- the cell that it waits for is done, so that nobody watches it any more
    obtain rfl := Option.some.inj heq
    have hself : x = some c := hx.symm.trans (hwaits hlive)
    have hquiet := h.quiet c cell hc (statusOf_eq hc ▸ (hdone c hself).2)
    rw [hquiet] at ht'
    cases ht'
  · obtain ⟨hlt', -, hwaits⟩ := h.woken w (hwakes ▸ List.mem_cons_of_mem _ hw)
    refine ⟨hlt', fun heq => hnone ?_, hwaits⟩
    exact Option.some.inj heq ▸ List.mem_map_of_mem hw
  · have hcount := h.single t' ht'
    rw [hwakes, List.map_cons] at hcount
    exact Nat.le_trans (List.count_le_count_cons ..) hcount

/-- A job that gives nobody a turn, or a turn to one that has ended. -/
theorem Orderly.skip {j : Job σ ν} (h : Orderly waits busy (j :: rest) k) :
    Orderly waits busy rest k := by
  have hsub : (wakes (rest ++ k.ready.toList)).Sublist (wakes (j :: rest ++ k.ready.toList)) :=
    (List.sublist_cons_self ..).filterMap _
  refine { h with woken := fun w hw => h.woken w (hsub.subset hw), single := fun t ht => ?_ }
  exact Nat.le_trans ((hsub.map Prod.fst).count_le t) (h.single t ht)

end ChatCommands.Concurrency.Scheduler
