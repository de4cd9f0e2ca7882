import ChatCommands.Proofs.Concurrency.Solitude
import ChatCommands.Proofs.Concurrency.Timekeeping

/-!
Two tasks that the only task of a scheduler starts and waits for.

Each of them comes to its end at once when it has its turn.  The ends are counted in the round after,
and then the waiting task is called for.
-/

namespace ChatCommands.Concurrency.Scheduler

variable {σ ν α β : Type} {p : Peace} {k k' : Scheduler σ ν} {me n : Nat} {w w' : σ}
  {clock : Rat} {cell : Cell σ ν} {ts : TaskState σ ν}

/-! ### Single steps -/

theorem settle_pending {c : Nat} (hcell : k.cells[c]? = some cell) (hpending : cell.status = .pending)
    (s : CellStatus ν) : k.settle c s = { k.modifyCell c fun cell =>
      { cell with status := s, watchers := [], task := none } with
        ready := cell.watchers.foldl (fun r w => r.push (jobOf c w.2)) k.ready } := by
  unfold settle
  rw [hcell]
  simp only [hpending, CellStatus.isDone, Bool.false_eq_true, if_false]

/-- The cell of a task that has not had its turn yet, and of which one waits for the end. -/
structure Fresh (cell : Cell σ ν) (body : Task σ ν) (program : CellStatus ν → Task σ ν) : Prop where
  status : cell.status = .pending
  watchers : ∃ watch, cell.watchers = [(watch, .run program)]
  task : ∃ ts, cell.task = some ts ∧ ts.interruptDue = false ∧ ts.again = none ∧ ts.next none = body

/-- The task `a` has ended, and its end is to be noticed. -/
structure Ended (a : Nat) (r : Ending ν) (w' : σ) (program : CellStatus ν → Task σ ν)
    (k k' : Scheduler σ ν) : Prop where
  status : k'.statusOf a = .ended r
  others : ∀ i : Nat, i ≠ a → k'.cells[i]? = k.cells[i]?
  shared : k'.shared = w'
  ready : k'.ready = k.ready.push (.run a program)
  clock : k'.clock = k.clock
  queue : k'.queue = k.queue
  timers : k'.timers = k.timers
  alarms : k'.alarms = k.alarms

/-- **A task that comes to its end at once** has its turn. -/
theorem turn_atOnce {a : Nat} {program : CellStatus ν → Task σ ν} {x : Act σ ν α} {f : α → ν}
    {r : Ending α} (hcell : k.cells[a]? = some cell) (hfresh : Fresh cell (Act.toTask f x) program)
    (hx : Act.ComesTo x k.shared r w') : Ended a (r.map f) w' program k (k.turn a none) := by
  obtain ⟨watch, hwatchers⟩ := hfresh.watchers
  obtain ⟨ts, htask, hidle, hagain, hnext⟩ := hfresh.task
  have hts : k.task? a = some ts := by
    rw [Scheduler.task?, hcell, Option.bind_some, htask]
  generalize hk₁ : (k.modifyTask a fun s => { s with waitingFor := none, interruptDue := false }) = k₁
  have hcell₁ : k₁.cells[a]? = some { cell with task := cell.task.map fun s =>
      { s with waitingFor := none, interruptDue := false } } := by
    rw [← hk₁, modifyTask, getElem?_modifyCell, if_pos rfl, hcell]
    rfl
  have hothers₁ : ∀ i : Nat, i ≠ a → k₁.cells[i]? = k.cells[i]? := fun i hi => by
    rw [← hk₁, modifyTask, getElem?_modifyCell, if_neg (Ne.symm hi)]
  have hshared : k₁.shared = k.shared := hk₁ ▸ rfl
  let k₂ : Scheduler σ ν := { k₁ with shared := w' }
  have hexec : exec a (ts.next none) k₁ = (none, k₂.settle a (.ended (r.map f))) := by
    rw [hnext]
    refine (hx _ a k₁ hshared).trans ?_
    change k₂.finish a (r.map f) = _
    have hts₂ : k₂.task? a = some { ts with waitingFor := none, interruptDue := false } := by
      change k₁.cells[a]?.bind _ = _
      rw [hcell₁, Option.bind_some, htask]
      rfl
    unfold Scheduler.finish
    simp only [hts₂, hagain, Bool.false_eq_true, if_false]
    cases r <;> rfl
  have hsettle := settle_pending (k := k₂) hcell₁ hfresh.status (.ended (r.map f))
  rw [hwatchers] at hsettle
  have hturn : k.turn a none = { k₂.modifyCell a fun cell =>
      { cell with status := .ended (r.map f), watchers := [], task := none } with
        ready := k₂.ready.push (.run a program) } := by
    unfold turn
    simp only [hts, hidle, Bool.false_eq_true, if_false, Option.bind_none, hk₁, hexec]
    exact hsettle
  have hcells : ∀ i : Nat, (k.turn a none).cells[i]? = if a = i then k₁.cells[i]?.map fun cell =>
      { cell with status := .ended (r.map f), watchers := [], task := none } else k₁.cells[i]? := by
    intro i
    rw [hturn]
    exact k₂.getElem?_modifyCell a i _
  refine ⟨?_, fun i hi => ?_, ?_, ?_, ?_, ?_, ?_, ?_⟩
  · rw [statusOf, hcells, if_pos rfl, hcell₁]
    rfl
  · rw [hcells, if_neg (Ne.symm hi), hothers₁ i hi]
  all_goals
    rw [hturn]
    simp only [k₂, ← hk₁]
    rfl

/-- What notices the end of a task for a signal. -/
def counting (value : ν) (c : Nat) : CellStatus ν → Task σ ν :=
  fun s => Act.toTask (fun _ => value) (Act.countEnd false c s)

/-- The end of a task is counted. -/
theorem run_counting {a c : Nat} {v value : ν} (hstatus : k.statusOf a = .ended (.ok v)) :
    k.doJob (.run a (counting value c)) = k.fire c := by
  have hnone : (k.fire c).task? k.cells.size = none := by
    rw [Scheduler.task?, ← size_fire k c, Array.getElem?_eq_none (le_refl _)]
    rfl
  change (exec k.cells.size (counting value c (k.statusOf a)) k).2 = _
  rw [hstatus]
  change ((k.fire c).finish k.cells.size (.ok value)).2 = _
  unfold Scheduler.finish
  rw [hnone]

/-! ### The wait for both -/

/-- The task `me` waits for the signal after the cells `n` and `n + 1`, which has still to be fired
so many times. -/
structure Waits (me n : Nat) (p : Peace) (w : σ) (clock : Rat)
    (next : Option Failure → Task σ ν) (jobs : Array (Job σ ν)) (count : Nat) (k : Scheduler σ ν) :
    Prop extends Hushed p k where
  shared : k.shared = w
  time : k.clock = clock
  ready : k.ready = jobs
  lt : me < n
  mine : ∃ cell ts, k.cells[me]? = some cell ∧ TaskCell cell ts ∧ Undisturbed ts ∧ ts.next = next
  signal : ∃ cell watch, k.cells[n + 2]? = some cell ∧ cell.status = .pending ∧ cell.count = count ∧
    cell.membersInterrupted = false ∧ cell.watchers = [(watch, .resume me)]

variable {next : Option Failure → Task σ ν} {jobs : Array (Job σ ν)} {count : Nat}
  {aim : Nat → Scheduler σ ν → Prop}

theorem Waits.pending (h : Waits me n p w clock next jobs count k) :
    (k.statusOf me).isDone = false := by
  obtain ⟨cell, ts, hcell, htask, -⟩ := h.mine
  rw [statusOf_eq hcell, htask.status]
  rfl

/-- One of the two tasks has ended. -/
theorem Waits.ended {a : Nat} {r : Ending ν} {program : CellStatus ν → Task σ ν}
    (h : Waits me n p w clock next jobs count k) (hends : Ended a r w' program k k')
    (ha : a = n ∨ a = n + 1) : Waits me n p w' clock next (jobs.push (.run a program)) count k' := by
  obtain ⟨cell, ts, hcell, hmine⟩ := h.mine
  obtain ⟨sc, watch, hsc, hsignal⟩ := h.signal
  have hlt := h.lt
  refine ⟨h.toHushed.same hends.clock hends.queue hends.timers hends.alarms, hends.shared,
    hends.clock.trans h.time, hends.ready.trans (by rw [h.ready]), hlt, ⟨cell, ts, ?_, hmine⟩, sc,
    watch, ?_, hsignal⟩
  · rw [hends.others me (by omega), hcell]
  · rw [hends.others (n + 2) (by omega), hsc]

theorem Waits.round (h : Waits me n p w clock next jobs count k) (hjobs : jobs.isEmpty = false) :
    ∃ k₀, k.round? = some (jobs.foldl doJob k₀) ∧ Waits me n p w clock next #[] count k₀ ∧
      k₀.cells = k.cells := by
  obtain ⟨k₀, hround, hhushed, hnone, hcells, hshared, hclock, -⟩ :=
    h.toHushed.round (by rw [h.ready]; exact hjobs)
  rw [h.ready] at hround
  refine ⟨k₀, hround, ⟨hhushed, hshared.trans h.shared, hclock.trans h.time, hnone, h.lt, ?_, ?_⟩,
    hcells⟩
  · rw [hcells]
    exact h.mine
  · rw [hcells]
    exact h.signal

/-- The first end leaves the task waiting. -/
theorem Waits.counted (h : Waits me n p w clock next jobs 2 k) :
    Waits me n p w clock next jobs 1 (k.fire (n + 2)) ∧
      ∀ c, (k.fire (n + 2)).statusOf c = k.statusOf c := by
  obtain ⟨cell, watch, hcell, hpending, hcount, hmembers, hwatchers⟩ := h.signal
  have hlt := h.lt
  have hfire : k.fire (n + 2) = k.modifyCell (n + 2) fun cell =>
      { cell with count := cell.count - 1 } := by
    unfold fire
    rw [hcell]
    simp only [hcount, Nat.one_lt_ofNat, if_true]
  rw [hfire]
  refine ⟨⟨h.toHushed.same rfl rfl rfl rfl, h.shared, h.time, h.ready, hlt, ?_, ?_⟩, fun c => ?_⟩
  · obtain ⟨mine, ts, hmine, hrest⟩ := h.mine
    refine ⟨mine, ts, ?_, hrest⟩
    rw [getElem?_modifyCell, if_neg (by omega)]
    exact hmine
  · refine ⟨{ cell with count := cell.count - 1 }, watch, ?_, hpending, ?_, hmembers, hwatchers⟩
    · rw [getElem?_modifyCell, if_pos rfl, hcell]
      rfl
    · rw [hcount]
  · unfold statusOf
    rw [getElem?_modifyCell]
    by_cases heq : n + 2 = c
    · subst heq
      rw [if_pos rfl, hcell]
      rfl
    · rw [if_neg heq]

/-- With the second end the task is called for. -/
theorem Waits.called (h : Waits me n p w clock next #[] 1 k) :
    Called me p w clock next (k.fire (n + 2)) ∧
      ∀ c, c ≠ n + 2 → (k.fire (n + 2)).statusOf c = k.statusOf c := by
  obtain ⟨cell, watch, hcell, hpending, hcount, hmembers, hwatchers⟩ := h.signal
  have hlt := h.lt
  have hfire : k.fire (n + 2) = { k.modifyCell (n + 2) fun cell =>
      { cell with status := .fired, watchers := [], task := none } with
        ready := #[.turn me (some (n + 2))] } := by
    unfold fire
    rw [hcell]
    simp only [hcount, lt_irrefl, hmembers, Bool.false_eq_true, if_false]
    rw [settle_pending hcell hpending, hwatchers, h.ready]
    rfl
  rw [hfire]
  have hcells : ∀ i : Nat, ({ k.modifyCell (n + 2) fun cell =>
      { cell with status := .fired, watchers := [], task := none } with
        ready := #[.turn me (some (n + 2))] } : Scheduler σ ν).cells[i]? =
      if n + 2 = i then k.cells[i]?.map fun cell =>
        { cell with status := .fired, watchers := [], task := none } else k.cells[i]? :=
    fun i => k.getElem?_modifyCell (n + 2) i _
  refine ⟨⟨h.toHushed.same rfl rfl rfl rfl, h.shared, h.time, ?_, some (n + 2), rfl, ?_⟩,
    fun c hc => ?_⟩
  · obtain ⟨mine, ts, hmine, hrest⟩ := h.mine
    refine ⟨mine, ts, ?_, hrest⟩
    rw [hcells, if_neg (by omega)]
    exact hmine
  · rw [Option.bind_some, statusOf, hcells, if_pos rfl, hcell]
    rfl
  · rw [statusOf, hcells, if_neg (Ne.symm hc)]
    rfl

/-- **Two tasks that come to their end at once** call for the task that waits for both. -/
theorem Waits.goesOn {x : Act σ ν α} {y : Act σ ν β} {f : α → ν} {g : β → ν} {a : α} {b : β}
    {value : ν} {w₁ w₂ : σ}
    (h : Waits me n p w clock next #[.turn n none, .turn (n + 1) none] 2 k)
    (hfirst : ∃ cell, k.cells[n]? = some cell ∧
      Fresh cell (Act.toTask f x) (counting value (n + 2)))
    (hsecond : ∃ cell, k.cells[n + 1]? = some cell ∧
      Fresh cell (Act.toTask g y) (counting value (n + 2)))
    (hx : Act.ComesTo x w (.ok a) w₁) (hy : Act.ComesTo y w₁ (.ok b) w₂) (haim : Patient me aim)
    {m : Nat} (hnext : ∀ k', Alone me p w₂ clock k' →
      k'.statusOf n = .ended (.ok (f a)) → k'.statusOf (n + 1) = .ended (.ok (g b)) →
        Aimed aim m (exec me (next none) k')) : aim (m + 3) k := by
  obtain ⟨k₀, hround, h₀, hcells⟩ := h.round rfl
  obtain ⟨first, hfirst, hfreshFirst⟩ := hfirst
  obtain ⟨second, hsecond, hfreshSecond⟩ := hsecond
  -- both have their turns
  have hends₁ := turn_atOnce (hcells ▸ hfirst) hfreshFirst (h₀.shared.symm ▸ hx)
  have h₁ := h₀.ended hends₁ (.inl rfl)
  have hsecond₁ : (k₀.turn n none).cells[n + 1]? = some second := by
    rw [hends₁.others (n + 1) (by omega), hcells]
    exact hsecond
  have hends₂ := turn_atOnce hsecond₁ hfreshSecond (h₁.shared.symm ▸ hy)
  have h₂ := h₁.ended hends₂ (.inr rfl)
  have hstatus₁ : ((k₀.turn n none).turn (n + 1) none).statusOf n = .ended (.ok (f a)) := by
    have hsame := hends₂.others n (by omega)
    rw [statusOf, hsame]
    exact hends₁.status
  refine haim.round _ _ _ h.pending hround ?_
  change aim (m + 2) ((k₀.turn n none).turn (n + 1) none)
  -- their ends are counted
  obtain ⟨k₃, hround₂, h₃, hcells₃⟩ := h₂.round rfl
  have hstatus₃ : ∀ c, k₃.statusOf c = ((k₀.turn n none).turn (n + 1) none).statusOf c := fun c => by
    rw [statusOf, statusOf, hcells₃]
  obtain ⟨h₄, hstatus₄⟩ := h₃.counted
  obtain ⟨hcalled, hstatus₅⟩ := h₄.called
  have hjobs : (#[.run n (counting value (n + 2)), .run (n + 1) (counting value (n + 2))] :
      Array (Job σ ν)).foldl doJob k₃ = (k₃.fire (n + 2)).fire (n + 2) := by
    change (k₃.doJob (.run n (counting value (n + 2)))).doJob
      (.run (n + 1) (counting value (n + 2))) = _
    rw [run_counting ((hstatus₃ n).trans hstatus₁), run_counting]
    rw [hstatus₄, hstatus₃]
    exact hends₂.status
  refine haim.round _ _ _ h₂.pending (hround₂.trans (congrArg some hjobs)) ?_
  -- and the task has its turn
  refine hcalled.goesOn haim fun k' hk' hstatuses => hnext k' hk' ?_ ?_
  · rw [hstatuses, hstatus₅ n (by omega), hstatus₄, hstatus₃]
    exact hstatus₁
  · rw [hstatuses, hstatus₅ (n + 1) (by omega), hstatus₄, hstatus₃]
    exact hends₂.status

/-! ### The start of both -/

/-- The cell of a task that has just come in. -/
def taskCell (body : Task σ ν) : Cell σ ν :=
  { task := some { next := fun | none => body | some f => .finish (.error f) } }

theorem fresh_taskCell (body : Task σ ν) (program : CellStatus ν → Task σ ν) (watch : Nat) :
    Fresh { taskCell body with watchers := [(watch, .run program)] } body program :=
  ⟨rfl, ⟨watch, rfl⟩, _, rfl, rfl, rfl, rfl⟩

theorem exec_starts (first second : Task σ ν) (value : ν)
    (next : Nat → Nat → Option Failure → Task σ ν) {b s : Nat}
    (hb : (k.cells.push (taskCell first)).size = b)
    (hs : ((k.cells.push (taskCell first)).push (taskCell second)).size = s) :
    exec me (.spawn false first fun a => .spawn false second fun b =>
        .call (.newSignal 2 [a, b]) fun s => .watch a (counting value s) fun _ =>
          .watch b (counting value s) fun _ => .wait (.cell s) (next a b)) k =
      exec me (.wait (.cell s) (next k.cells.size b))
        ((addWatcher { k with
          cells := ((k.cells.push (taskCell first)).push (taskCell second)).push
            { count := 2, members := [k.cells.size, b] }
          ready := (k.ready.push (.turn k.cells.size none)).push (.turn b none) }
          k.cells.size (.run (counting value s))).addWatcher b (.run (counting value s))) := by
  subst hb hs
  rfl

/-- **A task starts two others** and waits for both. -/
theorem Alone.starts (h : Alone me p w clock k) (first second : Task σ ν) (value : ν)
    (next : Nat → Nat → Option Failure → Task σ ν) : ∃ n k',
      exec me (.spawn false first fun a => .spawn false second fun b =>
        .call (.newSignal 2 [a, b]) fun s => .watch a (counting value s) fun _ =>
          .watch b (counting value s) fun _ => .wait (.cell s) (next a b)) k = (none, k') ∧
      Waits me n p w clock (next n (n + 1)) #[.turn n none, .turn (n + 1) none] 2 k' ∧
      (∃ cell, k'.cells[n]? = some cell ∧ Fresh cell first (counting value (n + 2))) ∧
      ∃ cell, k'.cells[n + 1]? = some cell ∧ Fresh cell second (counting value (n + 2)) := by
  obtain ⟨cell, ts, hcell, htask, hidle⟩ := h.mine
  have hlt : me < k.cells.size := (Array.getElem?_eq_some_iff.mp hcell).1
  generalize hn : k.cells.size = n at hlt
  let signal : Cell σ ν := { count := 2, members := [n, n + 1] }
  let program : CellStatus ν → Task σ ν := counting value (n + 2)
  -- the cells of both tasks and of the signal come after those that were there
  obtain ⟨k₃, hk₃⟩ : ∃ k₃, k₃ = ({ k with
      cells := ((k.cells.push (taskCell first)).push (taskCell second)).push signal
      ready := (k.ready.push (.turn n none)).push (.turn (n + 1) none) } : Scheduler σ ν) := ⟨_, rfl⟩
  have hcells₃ : ∀ i : Nat, k₃.cells[i]? = if i = n + 2 then some signal else
      if i = n + 1 then some (taskCell second) else if i = n then some (taskCell first) else
        k.cells[i]? := by
    intro i
    rw [hk₃]
    simp only [Array.getElem?_push, Array.size_push, hn]
  have hfirst₃ : k₃.cells[n]? = some (taskCell first) := by
    rw [hcells₃, if_neg (by omega), if_neg (by omega), if_pos rfl]
  have hsecond₃ : k₃.cells[n + 1]? = some (taskCell second) := by
    rw [hcells₃, if_neg (by omega), if_pos rfl]
  obtain ⟨hlies₄, ⟨watch₁, hfirst₄⟩, hrest₄⟩ := addWatcher_cells hfirst₃ rfl (.run program)
  generalize hk₄ : k₃.addWatcher n (.run program) = k₄ at *
  obtain ⟨hlies₅, ⟨watch₂, hsecond₅⟩, hrest₅⟩ :=
    addWatcher_cells ((hrest₄ (n + 1) (by omega)).trans hsecond₃) rfl (.run program)
  generalize hk₅ : k₄.addWatcher (n + 1) (.run program) = k₅ at *
  have hsignal₅ : k₅.cells[n + 2]? = some signal := by
    rw [hrest₅ _ (by omega), hrest₄ _ (by omega), hcells₃, if_pos rfl]
  have hmine₅ : k₅.cells[me]? = some cell := by
    rw [hrest₅ _ (by omega), hrest₄ _ (by omega), hcells₃, if_neg (by omega), if_neg (by omega),
      if_neg (by omega), hcell]
  obtain ⟨hlies₆, ⟨mine, hmine₆, htask₆⟩, ⟨watch₃, hsignal₆⟩, hrest₆⟩ := awaitCell_cells hmine₅ htask
    hidle.idle hsignal₅ rfl (by omega) (next n (n + 1))
  have hlies := (hlies₄.trans hlies₅).trans hlies₆
  have hhushed : Hushed p k₃ := h.toHushed.same (hk₃ ▸ rfl) (hk₃ ▸ rfl) (hk₃ ▸ rfl) (hk₃ ▸ rfl)
  refine ⟨n, k₅.awaitCell me (n + 2) (next n (n + 1)), ?_,
    ⟨hhushed.same hlies.clock hlies.queue hlies.timers hlies.alarms, ?_, ?_, ?_, hlt,
      ⟨mine, _, hmine₆, htask₆, ⟨hidle.idle, hidle.unasked⟩, rfl⟩, _, watch₃, hsignal₆, rfl, rfl, rfl,
      rfl⟩, ?_, ?_⟩
  · have hwait : exec me (.wait (.cell (n + 2)) (next n (n + 1))) k₅ =
        (none, k₅.awaitCell me (n + 2) (next n (n + 1))) := by
      refine if_neg (Bool.eq_false_iff.mp ?_)
      rw [statusOf_eq hsignal₅]
      rfl
    have hsize : (k.cells.push (taskCell first)).size = n + 1 := hn ▸ Array.size_push ..
    have hsize' : ((k.cells.push (taskCell first)).push (taskCell second)).size = n + 2 :=
      (Array.size_push ..).trans (congrArg (· + 1) hsize)
    rw [← hwait, ← hk₅, ← hk₄, hk₃]
    subst hn
    exact exec_starts first second value next hsize hsize'
  · rw [hlies.shared, hk₃]
    exact h.shared
  · rw [hlies.clock, hk₃]
    exact h.time
  · rw [hlies.ready, hk₃, h.idle]
    rfl
  · refine ⟨_, ?_, fresh_taskCell first program watch₁⟩
    rw [hrest₆ n (by omega) (by omega), hrest₅ n (by omega), hfirst₄]
    rfl
  · refine ⟨_, ?_, fresh_taskCell second program watch₂⟩
    rw [hrest₆ (n + 1) (by omega) (by omega), hsecond₅]
    rfl

end ChatCommands.Concurrency.Scheduler
