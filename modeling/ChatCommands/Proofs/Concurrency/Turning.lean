import ChatCommands.Proofs.Concurrency.Rhythm

/-!
Turns of tasks that wait for nothing but the time.

A task that is roused or struck gets its turn and goes on with the answer that its rest was to have.
Its program then takes it through steps that leave the rhythm of the crew as it is, up to its next
rest or its end.  Main statement: `Rhythm.turn`.
-/

namespace ChatCommands.Concurrency.Scheduler

variable {σ ν : Type} {P : Pact σ ν} {k k' : Scheduler σ ν} {rest : List (Job σ ν)}
  {crew : List Nat} {st : Nat → Stance} {me t a timer : Nat} {limit : Rat}

/-! ### Alarms that are dropped -/

theorem duty?_dropTimer (k : Scheduler σ ν) (timer t : Nat) : (k.dropTimer timer).duty? t =
    if t = timer then (k.duty? t).map fun x => (x.1, true) else k.duty? t := by
  unfold dropTimer
  split
  · rename_i tm htm
    split
    · rename_i hdropped
      split
      · rename_i heq
        subst heq
        simp [duty?, htm, hdropped]
      · rfl
    · unfold duty?
      rw [Array.getElem?_modify]
      by_cases heq : t = timer
      · subst heq
        rw [if_pos rfl, if_pos rfl, Option.map_map, Option.map_map]
        rfl
      · rw [if_neg heq, if_neg (Ne.symm heq)]
  · rename_i hnone
    split
    · rename_i heq
      subst heq
      simp [duty?, hnone]
    · rfl

/-- Only the timers are touched. -/
structure DropsTimer (k k' : Scheduler σ ν) : Prop where
  shared : k'.shared = k.shared
  cells : k'.cells = k.cells
  clock : k'.clock = k.clock
  alarms : k'.alarms = k.alarms
  queue : k'.queue = k.queue
  ready : k'.ready = k.ready
  size : k'.timers.size = k.timers.size

theorem dropsTimer (k : Scheduler σ ν) (timer : Nat) : DropsTimer k (k.dropTimer timer) := by
  unfold dropTimer
  split
  · split
    · exact ⟨rfl, rfl, rfl, rfl, rfl, rfl, rfl⟩
    · exact ⟨rfl, rfl, rfl, rfl, rfl, rfl, Array.size_modify⟩
  · exact ⟨rfl, rfl, rfl, rfl, rfl, rfl, rfl⟩

theorem DropsTimer.clockwork (h : DropsTimer k k') (hc : Clockwork rest k) : Clockwork rest k' :=
  hc.same h.clock h.queue h.size.ge (by rw [h.ready])

theorem DropsTimer.calls (h : DropsTimer k k') : calls rest k' = Scheduler.calls rest k := by
  rw [Scheduler.calls, Scheduler.calls, h.queue, h.ready]

/-- A timer that nobody else needs may be dropped. -/
theorem leavesBe_dropTimer (hP : P.Lawful) (t : Nat) (rest : List (Job σ ν)) {action : TimerAction}
    {dropped : Bool} (hduty : k.duty? timer = some (action, dropped)) (hnot : ¬ Concerns k t action) :
    LeavesBe P t rest rest k (k.dropTimer timer) := by
  have h := k.dropsTimer timer
  refine ⟨fun cell hcell => h.cells ▸ hcell, fun c cell hcell _ _ => h.cells ▸ hcell,
    fun i action' hi hof => ⟨?_, id⟩, fun i action' dropped' hi => ?_,
    fun a alarm ha _ => h.alarms ▸ ha, fun x hx => h.queue ▸ hx, fun j hj => h.ready ▸ hj,
    fun _ => id, h.clock, h.shared ▸ hP.refl t _⟩
  · rw [duty?_dropTimer, if_neg]
    · exact hi
    · rintro rfl
      cases hduty.symm.trans hi
      exact hnot hof
  · rw [duty?_dropTimer]
    split
    · exact ⟨true, by rw [hi]; rfl⟩
    · exact ⟨dropped', hi⟩

/-- **The busy task drops its alarm** before it has rung. -/
theorem Rhythm.dropAlarm (hP : P.Lawful) (h : Rhythm P crew st (some me) rest k)
    (hw : AtWork k crew me (st me)) (hhand : (st me).hand = .armed a limit) :
    (k.dropAlarm me a).1 = false ∧
      Rhythm P crew (hold st me .spent) (some me) rest (k.dropAlarm me a).2 ∧
      AtWork (k.dropAlarm me a).2 crew me (hold st me .spent me) := by
  obtain ⟨ts, hts, hgrip⟩ := hw.task?
  rw [hhand] at hgrip
  obtain ⟨hnone, timer, ha, hduty, -⟩ := hgrip
  have hdrop : k.dropAlarm me a = (false, k.dropTimer timer) := by
    simp [Scheduler.dropAlarm, ha]
  rw [hdrop]
  have hd := k.dropsTimer timer
  refine ⟨rfl, h.step hP hw.mine ⟨fun t ht => hold_of_ne st _ ht, hd.clockwork,
    fun j hj => .inl (hd.ready ▸ hj), fun t ht => ?_, fun i ht action hi => ?_, fun _ hl => ?_⟩ ?_
    fun hne => absurd rfl hne, ?_⟩
  · refine leavesBe_dropTimer hP t rest hduty ?_
    rintro ⟨alarm, ha', htask⟩
    cases ha.symm.trans ha'
    exact ht htask.symm
  · rw [duty?_dropTimer] at hi
    split at hi
    · rename_i heq
      rw [heq, hduty] at hi
      cases hi
    · rename_i hne
      refine .inr ⟨hd.calls ▸ ht, hi, fun howns => hne ?_⟩
      obtain ⟨a', limit', -, harmed, ha'⟩ := hw.owns howns
      rw [hhand] at harmed
      cases harmed
      cases ha.symm.trans ha'
      rfl
  · refine ⟨hl.sole, ?_, .inl ⟨me, hw.mine, by rw [hold_self]⟩⟩
    rw [hd.ready]
    exact hl.cleared
  · rw [waitsFor_hold]
    exact h.orderly.of_same hd.cells (by rw [hd.ready])
  · refine hw.grows hd.cells (by rw [hold_self]; exact hw.repose) fun requests hgrip => ?_
    rw [hhand] at hgrip
    rw [hold_self]
    exact hgrip.1

theorem task?_modifyTask (k : Scheduler σ ν) (t : Nat) (f : TaskState σ ν → TaskState σ ν) :
    (k.modifyTask t f).task? t = (k.task? t).map f := by
  unfold Scheduler.task? Scheduler.modifyTask
  rw [getElem?_modifyCell, if_pos rfl]
  cases k.cells[t]? <;> rfl

/-- What is done with the state of a task leaves the others alone. -/
theorem leavesBe_modifyTask (hP : P.Lawful) {me t : Nat} (ht : t ≠ me) (rest : List (Job σ ν))
    (hme : ∃ cell, k.cells[me]? = some cell ∧ cell.task ≠ none)
    (f : TaskState σ ν → TaskState σ ν) : LeavesBe P t rest rest k (k.modifyTask me f) :=
  leavesBe_of_grows hP t rest rfl
    (fun c cell hcell hne => by
      unfold modifyTask
      rw [getElem?_modifyCell, if_neg (Ne.symm hne)]
      exact hcell)
    hme ht (fun _ _ h => h) (fun _ _ h => h) (fun _ h => h) (fun _ h => h) rfl

theorem modifyTask_cell (k : Scheduler σ ν) {t : Nat} {cell : Cell σ ν} {ts : TaskState σ ν}
    (hcell : k.cells[t]? = some cell) (htask : TaskCell cell ts)
    {f : TaskState σ ν → TaskState σ ν} (hf : (f ts).again = ts.again) :
    ∃ cell', (k.modifyTask t f).cells[t]? = some cell' ∧ TaskCell cell' (f ts) := by
  refine ⟨{ cell with task := cell.task.map f }, ?_, htask.status, htask.watchers, ?_,
    hf.trans htask.again⟩
  · unfold modifyTask
    rw [getElem?_modifyCell, if_pos rfl, hcell]
    rfl
  · rw [htask.task]
    rfl

/-- **The busy task answers for its alarm.** -/
theorem Rhythm.answerAlarm (hP : P.Lawful) (h : Rhythm P crew st (some me) rest k)
    (hw : AtWork k crew me (st me)) (hhand : (st me).hand = .struck a limit) :
    (k.dropAlarm me a).1 = true ∧
      Rhythm P crew (hold st me .spent) (some me) rest (k.dropAlarm me a).2 ∧
      AtWork (k.dropAlarm me a).2 crew me (hold st me .spent me) := by
  obtain ⟨cell, ts, hcell, htask, hidle, hgrip⟩ := hw.cell
  rw [hhand] at hgrip
  obtain ⟨hone, timer, ha⟩ := hgrip
  have hts : k.task? me = some ts := by rw [Scheduler.task?, hcell, Option.bind_some, htask.task]
  have hdrop : k.dropAlarm me a =
      (true, k.modifyTask me fun s => { s with requests := s.requests - 1 }) := by
    simp [Scheduler.dropAlarm, ha, task?_modifyTask, hts, hone]
  rw [hdrop]
  obtain ⟨cell', hcell', htask'⟩ := k.modifyTask_cell hcell htask
    (f := fun s => { s with requests := s.requests - 1 }) rfl
  refine ⟨rfl, h.step hP hw.mine ⟨fun t ht => hold_of_ne st _ ht, fun hc => ⟨hc.order, hc.clock,
    hc.ahead, hc.known, hc.once⟩, fun j hj => .inl hj,
    fun t ht => leavesBe_modifyTask hP ht rest hw.isTask _, fun i ht action hi => ?_,
    fun _ hl => ⟨hl.sole, hl.cleared, .inl ⟨me, hw.mine, by rw [hold_self]⟩⟩⟩ ?_
    fun hne => absurd rfl hne, hw.mine, ⟨cell', _, hcell', htask', hidle, ?_⟩, ?_⟩
  · refine .inr ⟨ht, hi, fun howns => ?_⟩
    obtain ⟨a', limit', -, harmed, -⟩ := hw.owns howns
    rw [hhand] at harmed
    cases harmed
  · rw [waitsFor_hold]
    exact (k.keepsOrder_modifyTask me _).order _ _ _ h.orderly
  · rw [hold_self]
    change ts.requests - 1 = 0
    rw [hone]
  · rw [hold_self]
    exact hw.repose

/-! ### The end of a turn -/

theorem waitsFor_update (st : Nat → Stance) (me : Nat) (s : Stance) :
    (fun t => (Function.update st me s t).waitsFor) =
      Function.update (fun t => (st t).waitsFor) me s.waitsFor := by
  funext t
  by_cases ht : t = me
  · subst ht
    rw [Function.update_self, Function.update_self]
  · rw [Function.update_of_ne ht, Function.update_of_ne ht]

theorem AtWork.not_owns {s : Stance} (hw : AtWork k crew me s) (hhand : s.hand.Unarmed)
    {action : TimerAction} : ¬ Owns k me s timer action := by
  intro howns
  obtain ⟨a, limit, -, harmed, -⟩ := hw.owns howns
  rw [harmed] at hhand
  exact hhand

theorem Lone.update {s : Stance} (h : Lone crew st rest k) (hme : me ∈ crew)
    (hhand : s.hand = (st me).hand) : Lone crew (Function.update st me s) rest k := by
  refine { h with kept := h.kept.imp_left fun ⟨t, ht, hspent⟩ => ⟨me, hme, ?_⟩ }
  rw [h.sole t ht me hme] at hspent
  rw [Function.update_self, hhand, hspent]

/-- The stance of a task that is over. -/
def Stance.atEnd (s : Stance) : Stance := { s with rests := 0 }

/-- **The busy task comes to its end.** -/
theorem Rhythm.finish (hP : P.Lawful) (h : Rhythm P crew st (some me) rest k)
    (hw : AtWork k crew me (st me)) (hhand : (st me).hand.Unarmed) {r : Ending ν}
    (hdone : P.done me r k.shared) :
    (k.finish me r).1 = none ∧ (k.finish me r).2.shared = k.shared ∧
      Rhythm P crew (Function.update st me (st me).atEnd) none rest (k.finish me r).2 := by
  obtain ⟨cell, ts, hcell, htask, hidle, -⟩ := hw.cell
  have hts : k.task? me = some ts := by rw [Scheduler.task?, hcell, Option.bind_some, htask.task]
  have hfinish : k.finish me r = (none, k.settle me (.ended r)) := by
    unfold Scheduler.finish
    simp only [hts, hidle, htask.again]
    cases r <;> rfl
  have horder := (k.keepsOrder_finish me r).order _ _ _ h.orderly
  rw [hfinish] at horder ⊢
  have hsettle : k.settle me (.ended r) = k.modifyCell me fun cell =>
      { cell with status := .ended r, watchers := [], task := none } := by
    simp [settle, hcell, htask.status, CellStatus.isDone, htask.watchers, modifyCell]
  rw [hsettle] at horder ⊢
  have hcells := fun i => k.getElem?_modifyCell me i fun cell =>
    { cell with status := .ended r, watchers := [], task := none }
  refine ⟨rfl, rfl, h.step hP hw.mine ⟨fun t ht => Function.update_of_ne ht ..,
    fun hc => ⟨hc.order, hc.clock, hc.ahead, hc.known, hc.once⟩, fun j hj => .inl hj,
    fun t ht => ?_, fun i ht action hi => .inr ⟨ht, hi, hw.not_owns hhand⟩, fun _ hl => ?_⟩ ?_
    fun _ => .inr ?_⟩
  · refine leavesBe_of_grows hP t rest rfl (fun c cell hcell hne => ?_) hw.isTask ht (fun _ _ h => h)
      (fun _ _ h => h) (fun _ h => h) (fun _ h => h) rfl
    rw [hcells, if_neg (Ne.symm hne)]
    exact hcell
  · have hl' := hl.update (s := (st me).atEnd) hw.mine rfl
    exact ⟨hl'.sole, hl'.cleared, hl'.kept⟩
  · rw [waitsFor_update]
    exact horder.idle.congr fun t _ _ => by
      by_cases ht : t = me
      · subst ht
        rw [Function.update_self]
        rfl
      · rw [Function.update_of_ne ht]
  · rw [Function.update_self]
    have hover := hcells me
    rw [if_pos rfl, hcell, Option.map_some] at hover
    exact ⟨⟨_, r, hover, rfl, rfl, hdone⟩, hw.repose, hhand, rfl⟩

/-- **The busy task waits for its next turn.** -/
theorem Rhythm.yield (hP : P.Lawful) (h : Rhythm P crew st (some me) rest k)
    (hw : AtWork k crew me (st me)) (hhand : (st me).hand.MayRest .turn)
    {next : Option Failure → Task σ ν} {n : Nat}
    (hnext : Prepared P me ⟨.turn, 0, 0, (st me).hand, k.clock, n⟩ k.shared next) :
    Rhythm P crew (Function.update st me ⟨.turn, 0, 0, (st me).hand, k.clock, n⟩) none rest
      (k.awaitTurn me next) := by
  obtain ⟨cell, ts, hcell, htask, hidle, hgrip⟩ := hw.cell
  have hunarmed : (st me).hand.Unarmed := by
    cases hh : (st me).hand with
    | clean | spent => trivial
    | armed | struck => rw [hh] at hhand; exact hhand.elim
  have hsize : me < k.cells.size := (Array.getElem?_eq_some_iff.mp hcell).1
  obtain ⟨cell', hcell', htask'⟩ := k.modifyTask_cell hcell htask
    (f := fun s => { s with next, waitingFor := none }) rfl
  have htimers : timersOf (k.awaitTurn me next).ready.toList = timersOf k.ready.toList := by
    change timersOf (k.ready.push (.turn me none)).toList = _
    rw [Array.toList_push, timersOf_append]
    exact List.append_nil _
  refine h.step hP hw.mine ⟨fun t ht => Function.update_of_ne ht ..,
    fun hc => hc.same rfl rfl (le_refl _) ?_, fun j hj => ?_, fun t ht => ?_,
    fun i ht action hi => .inr ⟨?_, hi, hw.not_owns hunarmed⟩, fun _ hl => ?_⟩ ?_ fun _ => .inl ?_
  · rw [timersOf_append, timersOf_append, htimers]
  · rcases Array.mem_push.mp hj with hj | rfl
    · exact .inl hj
    · exact .inr hw.mine
  · have hsp := leavesBe_modifyTask hP ht rest hw.isTask fun s => { s with next, waitingFor := none }
    exact ⟨hsp.task, hsp.signal, hsp.timer, hsp.action, hsp.alarm, hsp.queue,
      fun j hj => Array.mem_push_of_mem _ (hsp.ready j hj), hsp.woken, hsp.clock, hsp.meanwhile⟩
  · unfold calls at ht ⊢
    rwa [timersOf_append, htimers, ← timersOf_append] at ht
  · have hl' := hl.update (s := ⟨.turn, 0, 0, (st me).hand, k.clock, n⟩) hw.mine rfl
    refine ⟨hl'.sole, ?_, ?_⟩
    · rw [htimers]
      exact hl'.cleared
    · rw [htimers]
      exact hl'.kept
  · rw [waitsFor_update]
    exact h.orderly.awaitTurn hsize next
  · rw [Function.update_self]
    refine ⟨cell', _, hcell', htask', hhand, nofun, hnext, .roused ⟨rfl, hidle, nofun, rfl,
      .inl ⟨?_, ?_⟩⟩⟩
    · exact mem_wakes.mpr (Array.mem_toList_iff.mpr Array.mem_push_self)
    · cases hh : (st me).hand with
      | clean | spent => rw [hh] at hgrip; exact hgrip
      | armed | struck => rw [hh] at hunarmed; exact hunarmed.elim

/-- The cell of a new signal. -/
def newCell : Cell σ ν := { count := 1, members := [] }

/-- Nothing has changed but the cells. -/
structure Lies (k k' : Scheduler σ ν) : Prop where
  shared : k'.shared = k.shared
  clock : k'.clock = k.clock
  ready : k'.ready = k.ready
  timers : k'.timers = k.timers
  queue : k'.queue = k.queue
  alarms : k'.alarms = k.alarms

theorem addWatcher_pending {c : Nat} (hc : (k.statusOf c).isDone = false) (w : Watcher σ ν) :
    k.addWatcher c w = modifyCell { k with watches := k.watches + 1 } c fun cell =>
      { cell with watchers := cell.watchers ++ [(k.watches, w)] } :=
  if_neg (Bool.eq_false_iff.mp hc)

theorem Lies.trans {k'' : Scheduler σ ν} (h : Lies k k') (h' : Lies k' k'') : Lies k k'' :=
  ⟨h'.shared.trans h.shared, h'.clock.trans h.clock, h'.ready.trans h.ready, h'.timers.trans h.timers,
    h'.queue.trans h.queue, h'.alarms.trans h.alarms⟩

/-- Someone more waits for a cell. -/
theorem addWatcher_cells {c : Nat} (hcell : k.cells[c]? = some cell) (hpending : cell.status = .pending)
    (watcher : Watcher σ ν) : Lies k (k.addWatcher c watcher) ∧
      (∃ watch, (k.addWatcher c watcher).cells[c]? =
        some { cell with watchers := cell.watchers ++ [(watch, watcher)] }) ∧
      ∀ i : Nat, i ≠ c → (k.addWatcher c watcher).cells[i]? = k.cells[i]? := by
  rw [addWatcher_pending (by rw [statusOf_eq hcell, hpending]; rfl)]
  refine ⟨⟨rfl, rfl, rfl, rfl, rfl, rfl⟩, ⟨k.watches, ?_⟩, fun i hi => ?_⟩
  · rw [getElem?_modifyCell, if_pos rfl]
    change k.cells[c]?.map _ = _
    rw [hcell]
    rfl
  · rw [getElem?_modifyCell, if_neg (Ne.symm hi)]

/-- The task `me` waits for a cell. -/
theorem awaitCell_cells {c : Nat} {sc : Cell σ ν} (hmine : k.cells[me]? = some cell)
    (htask : TaskCell cell ts) (hidle : ts.interruptDue = false) (hcell : k.cells[c]? = some sc)
    (hpending : sc.status = .pending) (hne : me ≠ c) (next : Option Failure → Task σ ν) :
    Lies k (k.awaitCell me c next) ∧
      (∃ cell', (k.awaitCell me c next).cells[me]? = some cell' ∧
        TaskCell cell' { ts with next, waitingFor := some c }) ∧
      (∃ watch, (k.awaitCell me c next).cells[c]? =
        some { sc with watchers := sc.watchers ++ [(watch, .resume me)] }) ∧
      ∀ i : Nat, i ≠ me → i ≠ c → (k.awaitCell me c next).cells[i]? = k.cells[i]? := by
  let asked := k.modifyTask me fun s => { s with next, waitingFor := some c }
  obtain ⟨cell', hcell', htask'⟩ := k.modifyTask_cell hmine htask
    (f := fun s => { s with next, waitingFor := some c }) rfl
  have hothers : ∀ i : Nat, i ≠ me → asked.cells[i]? = k.cells[i]? := fun i hi => by
    simp only [asked, modifyTask, getElem?_modifyCell, if_neg (Ne.symm hi)]
  have hasked : Lies k asked := ⟨rfl, rfl, rfl, rfl, rfl, rfl⟩
  have hts : k.task? me = some ts := by
    rw [Scheduler.task?, hmine, Option.bind_some, htask.task]
  have hawait : k.awaitCell me c next = asked.addWatcher c (.resume me) := by
    unfold Scheduler.awaitCell
    simp only [hts, Option.map_some, Option.getD_some, hidle, Bool.false_eq_true, if_false]
    rfl
  obtain ⟨hlies, hwatched, hrest⟩ :=
    addWatcher_cells ((hothers c hne.symm).trans hcell) hpending (.resume me)
  rw [hawait]
  exact ⟨hasked.trans hlies, ⟨cell', (hrest me hne).trans hcell', htask'⟩, hwatched,
    fun i hi hc => (hrest i hc).trans (hothers i hi)⟩

/-- Who waits for a new signal is the only one to watch it. -/
theorem awaitCell_new {k₂ : Scheduler σ ν} {cell : Cell σ ν} {ts : TaskState σ ν}
    (hcells : k₂.cells = k.cells.push newCell) (hcell : k.cells[me]? = some cell)
    (htask : TaskCell cell ts) (hidle : ts.interruptDue = false)
    (next : Option Failure → Task σ ν) :
    Lies k₂ (k₂.awaitCell me k.cells.size next) ∧
      (∀ (i : Nat) c, k.cells[i]? = some c → i ≠ me →
        (k₂.awaitCell me k.cells.size next).cells[i]? = some c) ∧
      (∃ cell', (k₂.awaitCell me k.cells.size next).cells[me]? = some cell' ∧
        TaskCell cell' { ts with next, waitingFor := some k.cells.size }) ∧
      ∃ c w, (k₂.awaitCell me k.cells.size next).cells[k.cells.size]? = some c ∧
        Signal c .pending ∧ c.watchers = [(w, .resume me)] := by
  have hlt : ∀ {i : Nat} {c}, k.cells[i]? = some c → i < k.cells.size :=
    fun hc => (Array.getElem?_eq_some_iff.mp hc).1
  have hold : ∀ (i : Nat) c, k.cells[i]? = some c → k₂.cells[i]? = some c := by
    intro i c hc
    rw [hcells, Array.getElem?_push, if_neg (Nat.ne_of_lt (hlt hc))]
    exact hc
  have hnew : k₂.cells[k.cells.size]? = some newCell := hcells ▸ Array.getElem?_push_size
  obtain ⟨hlies, hmine, ⟨watch, hwatched⟩, hrest⟩ :=
    awaitCell_cells (hold me cell hcell) htask hidle hnew rfl (Nat.ne_of_lt (hlt hcell)) next
  exact ⟨hlies, fun i c hc hi => (hrest i hi (Nat.ne_of_lt (hlt hc))).trans (hold i c hc), hmine, _,
    watch, hwatched, ⟨⟨le_refl 1, rfl, rfl⟩, rfl, rfl⟩, rfl⟩

/-- The busy task has got a new signal, and a timer for it if it is to be woken at some time. -/
structure Beds (rest : List (Job σ ν)) (s : Stance) (k k' : Scheduler σ ν) : Prop where
  shared : k'.shared = k.shared
  cells : k'.cells = k.cells.push newCell
  clock : k'.clock = k.clock
  alarms : k'.alarms = k.alarms
  ready : k'.ready = k.ready
  queue : ∀ x ∈ k.queue, x ∈ k'.queue
  duty : ∀ timer x, k.duty? timer = some x → k'.duty? timer = some x
  clockwork : Clockwork rest k'
  nap : ∀ due, s.repose = .until due → k'.duty? s.timer = some (.fire k.cells.size, false) ∧
    k'.Soon s.timer due
  owned : ∀ timer ∈ calls rest k', ∀ action, k'.duty? timer = some (action, false) →
    (timer = s.timer ∧ action = .fire k.cells.size ∧ ∃ due, s.repose = .until due) ∨
      timer ∈ calls rest k ∧ k.duty? timer = some (action, false)

theorem Beds.status {s : Stance} (hb : Beds rest s k k') :
    k'.statusOf k.cells.size = .pending :=
  statusOf_eq (hb.cells ▸ Array.getElem?_push_size)

theorem Soon.of_eq {due : Rat} (h : k.Soon timer due) (hclock : k'.clock = k.clock)
    (hqueue : ∀ x ∈ k.queue, x ∈ k'.queue) (hready : k'.ready = k.ready) : k'.Soon timer due :=
  h.imp (hqueue _) fun h => ⟨hready ▸ h.1, h.2.trans hclock.symm⟩

/-- **The busy task lies down.** -/
theorem Rhythm.lie (hP : P.Lawful) (h : Rhythm P crew st (some me) rest k)
    (hw : AtWork k crew me (st me)) {k₂ : Scheduler σ ν} {s : Stance} (hb : Beds rest s k k₂)
    (hsignal : s.signal = k.cells.size) (hhand : s.hand = (st me).hand) (hsince : s.since = k.clock)
    (hrepose : s.repose ≠ .turn) (hmay : s.hand.MayRest s.repose)
    {next : Option Failure → Task σ ν} (hnext : Prepared P me s k.shared next) :
    Rhythm P crew (Function.update st me s) none rest (k₂.awaitCell me k.cells.size next) ∧
      (k₂.awaitCell me k.cells.size next).shared = k.shared := by
  obtain ⟨cell, ts, hcell, htask, hidle, hgrip⟩ := hw.cell
  obtain ⟨hl, hold, ⟨cell', hcell', htask'⟩, hnew⟩ := awaitCell_new hb.cells hcell htask hidle next
  have hsize : me < k.cells.size := (Array.getElem?_eq_some_iff.mp hcell).1
  have hwaits : s.waitsFor = some k.cells.size := by
    unfold Stance.waitsFor
    cases hr : s.repose with
    | turn => exact absurd hr hrepose
    | «until» _ | forever => exact congrArg some hsignal
  have horder : Orderly (Function.update (fun t => (st t).waitsFor) me (some k.cells.size)) none rest
      (k₂.awaitCell me k.cells.size next) := by
    have hgrown : Orderly _ (some me) rest (k.addCell newCell).2 := h.orderly.addCell rfl
    have hsame : Orderly _ (some me) rest k₂ := hgrown.of_same hb.cells (by rw [hb.ready]; rfl)
    refine hsame.awaitCell ?_ ?_ next
    · rw [hb.cells, Array.size_push]
      exact Nat.lt_succ_of_lt hsize
    · rw [hb.status]
      rfl
  generalize k₂.awaitCell me k.cells.size next = k' at hl hold hcell' hnew horder
  have hqueue : ∀ x ∈ k.queue, x ∈ k'.queue := fun x hx => hl.queue ▸ hb.queue x hx
  have hready : k'.ready = k.ready := hl.ready.trans hb.ready
  have hclock : k'.clock = k.clock := hl.clock.trans hb.clock
  have hduties : ∀ i, k'.duty? i = k₂.duty? i := fun i => by rw [duty?, duty?, hl.timers]
  have halarms : k'.alarms = k.alarms := hl.alarms.trans hb.alarms
  have hcalls : calls rest k' = calls rest k₂ := by rw [calls, calls, hl.ready, hl.queue]
  refine ⟨h.step hP hw.mine ⟨fun t ht => Function.update_of_ne ht .., fun _ => hb.clockwork.same
    hl.clock hl.queue (by rw [hl.timers]) (by rw [hl.ready]), fun j hj => .inl (hready ▸ hj),
    fun t ht => ?_, fun i ht action hi => ?_, fun _ hlone => ?_⟩ ?_ fun _ => .inl ?_,
    hl.shared.trans hb.shared⟩
  · exact leavesBe_of_grows hP t rest (hl.shared.trans hb.shared) hold hw.isTask ht
      (fun i x hi => (hduties i).trans (hb.duty i x hi)) (fun a alarm ha => halarms ▸ ha) hqueue
      (fun j hj => hready ▸ hj) hclock
  · rw [Function.update_self]
    rw [hduties] at hi
    rcases hb.owned i (hcalls ▸ ht) action hi with ⟨rfl, rfl, hdue⟩ | ⟨ht, hi⟩
    · exact .inl ⟨rfl, hsignal, hdue⟩
    · by_cases howns : Owns k me (st me) i action
      · -- it keeps its alarm
        obtain ⟨a, limit, rfl, harmed, ha⟩ := hw.owns howns
        exact .inl ⟨⟨limit, hhand.trans harmed⟩, halarms ▸ ha⟩
      · exact .inr ⟨ht, hi, howns⟩
  · have hl' := hlone.update (s := s) hw.mine hhand
    refine ⟨hl'.sole, by rw [hready]; exact hl'.cleared, ?_⟩
    rw [hready]
    exact hl'.kept.imp_right fun hkept i hi => by
      obtain ⟨action, hduty⟩ := hkept i hi
      exact ⟨action, (hduties i).trans (hb.duty i _ hduty)⟩
  · rw [waitsFor_update, hwaits]
    exact horder
  · rw [Function.update_self]
    obtain ⟨c, w, hc, hpending, hwatch⟩ := hnew
    have hsoon : ∀ i due, k.Soon i due → k'.Soon i due := fun i due hs =>
      hs.of_eq hclock hqueue hready
    refine ⟨cell', _, hcell', htask', hmay, fun due hdue => ⟨false, ?_⟩, ?_, .new ⟨?_, hidle,
      ⟨c, w, hsignal ▸ hc, hpending, hwatch⟩, hrepose, fun due hdue => ?_, ?_⟩ ?_⟩
    · rw [hduties, hsignal]
      exact (hb.nap due hdue).1
    · rwa [hl.shared.trans hb.shared]
    · rw [hsignal]
    · obtain ⟨hduty, hsoon⟩ := hb.nap due hdue
      rw [hduties, hsignal]
      exact ⟨hduty, hsoon.of_eq hl.clock (fun x hx => hl.queue ▸ hx) hl.ready⟩
    · rw [hhand]
      refine hgrip.imp (fun a alarm ha _ => halarms ▸ ha) fun a i due hi _ hs => ⟨?_, hsoon i due hs⟩
      exact (hduties i).trans (hb.duty i _ hi)
    · rw [hclock, hsince]

theorem beds_addCell (h : Clockwork rest k) {s : Stance} (hrepose : ∀ due, s.repose ≠ .until due) :
    Beds rest s k (k.addCell newCell).2 where
  shared := rfl
  cells := rfl
  clock := rfl
  alarms := rfl
  ready := rfl
  queue _ hx := hx
  duty _ _ hi := hi
  clockwork := h.same rfl rfl (le_refl _) (.refl _)
  nap due hdue := absurd hdue (hrepose due)
  owned _ ht _ hi := .inr ⟨ht, hi⟩

theorem beds_addTimer (h : Clockwork rest k) {s : Stance} {d : Rat} (hd : 0 < d)
    (htimer : s.timer = k.timers.size) (hrepose : s.repose = .until (dueAfter k.clock d)) :
    Beds rest s k ((k.addCell newCell).2.addTimer d (.fire k.cells.size)).2 := by
  have hgrown : Clockwork rest (k.addCell newCell).2 := h.same rfl rfl (le_refl _) (.refl _)
  have hnew := newTimer_addTimer hgrown (h.dueAfter_eq hd).2 (.fire k.cells.size)
  refine ⟨rfl, rfl, rfl, rfl, rfl, hnew.queue, fun _ _ => hnew.old, hnew.clockwork, fun due hdue => ?_,
    fun i ht action hi => ?_⟩
  · rw [hrepose] at hdue
    cases hdue
    rw [htimer]
    exact ⟨(hnew.duty _).trans (if_pos rfl), hnew.soon⟩
  · rw [hnew.duty] at hi
    split at hi
    · rename_i heq
      cases hi
      exact .inl ⟨heq.trans htimer.symm, rfl, _, hrepose⟩
    · rename_i hne
      refine .inr ⟨?_, hi⟩
      exact (List.mem_append.mp (hnew.calls.mem_iff.mp ht)).resolve_right fun hin =>
        hne (List.mem_singleton.mp hin)

theorem Beds.exec_wait {s : Stance} {k₂ : Scheduler σ ν} (hb : Beds rest s k k₂) (me : Nat)
    (next : Option Failure → Task σ ν) : exec me (.wait (.cell k.cells.size) next) k₂ =
      (none, k₂.awaitCell me k.cells.size next) := by
  have hpending : (k₂.statusOf k.cells.size).isDone = false := by
    rw [hb.status]
    rfl
  exact if_neg (Bool.eq_false_iff.mp hpending)

theorem exec_sleep (k : Scheduler σ ν) (me : Nat) (d : Rat) (next : Option Failure → Task σ ν) :
    exec me (.call (.newSignal 1 []) fun signal => .call (.fireAfter d signal) fun timer =>
      .wait (.cell signal) fun answer => .call (.dropTimer timer) fun _ => next answer) k =
    exec me (.wait (.cell k.cells.size) fun answer => .call (.dropTimer k.timers.size) fun _ =>
      next answer) ((k.addCell newCell).2.addTimer d (.fire k.cells.size)).2 :=
  rfl

theorem exec_hang (k : Scheduler σ ν) (me : Nat) (next : Option Failure → Task σ ν) :
    exec me (.call (.newSignal 1 []) fun signal => .wait (.cell signal) next) k =
      exec me (.wait (.cell k.cells.size) next) (k.addCell newCell).2 :=
  rfl

/-! ### Turns -/

/-- The program of the busy task has been run up to its next rest, after which it rests at most `n`
times more, or to its end. -/
structure Turned (P : Pact σ ν) (crew : List Nat) (st : Nat → Stance) (me n : Nat)
    (rest : List (Job σ ν)) (result : Option (Task σ ν) × Scheduler σ ν) : Prop where
  ended : result.1 = none
  holds : P.holds result.2.shared
  rhythm : ∃ s : Stance, s.rests ≤ n ∧
    Rhythm P crew (Function.update st me s) none rest result.2

theorem Turned.congr {st' : Nat → Stance} {n : Nat} {result : Option (Task σ ν) × Scheduler σ ν}
    (h : Turned P crew st' me n rest result) (hst : ∀ t, t ≠ me → st' t = st t) :
    Turned P crew st me n rest result := by
  obtain ⟨s, hs, hr⟩ := h.rhythm
  refine { h with rhythm := ⟨s, hs, ?_⟩ }
  have heq : Function.update st' me s = Function.update st me s := by
    funext t
    by_cases ht : t = me
    · subst ht
      rw [Function.update_self, Function.update_self]
    · rw [Function.update_of_ne ht, Function.update_of_ne ht, hst t ht]
  rwa [← heq]

/-- **A program that keeps the pact** takes the crew through its turn. -/
theorem exec_paced (hP : P.Lawful) {task : Task σ ν} {n : Nat} {j : Juncture σ}
    (ht : task.Paced P me n j) : ∀ (st : Nat → Stance) (k : Scheduler σ ν),
      Rhythm P crew st (some me) rest k → AtWork k crew me (st me) → j.shared = k.shared →
      j.clock = k.clock → j.hand = (st me).hand → Turned P crew st me n rest (exec me task k) := by
  induction ht with
  | @finish r n j hhand hholds hdone =>
    intro st k h hw hshared hclock hj
    obtain ⟨shared, clock, hand⟩ := j
    subst hshared hclock hj
    obtain ⟨hnone, hsame, hr⟩ := h.finish hP hw hhand hdone
    exact ⟨hnone, hsame.symm ▸ hholds, _, Nat.zero_le _, hr⟩
  | @look next n j _ ih =>
    intro st k h hw hshared hclock hj
    obtain ⟨shared, clock, hand⟩ := j
    subst hshared
    exact ih st k h hw rfl hclock hj
  | @put s next n j hothers _ ih =>
    intro st k h hw hshared hclock hj
    obtain ⟨shared, clock, hand⟩ := j
    subst hshared
    obtain ⟨h', hw'⟩ := h.put hP hw hothers
    exact ih st _ h' hw' rfl hclock hj
  | @now next n j _ ih =>
    intro st k h hw hshared hclock hj
    obtain ⟨shared, clock, hand⟩ := j
    subst hclock
    exact ih st k h hw hshared rfl hj
  | @setAlarm d next n j hhand halone _ ih =>
    intro st k h hw hshared hclock hj
    obtain ⟨shared, clock, hand⟩ := j
    subst hshared hclock hj
    obtain ⟨h', hw'⟩ := h.setAlarm hP hw hhand halone d
    obtain ⟨ha, hnew, -⟩ := newTimer_setAlarm h.clockwork hw hhand d
    have hgo := ih (k.setAlarm me d).1 _ _ h' hw' hnew.shared.symm hnew.clock.symm
      (by rw [hold_self, ha])
    exact hgo.congr fun t ht => hold_of_ne st _ ht
  | @dropAlarm a limit next n j hhand _ ih =>
    intro st k h hw hshared hclock hj
    obtain ⟨shared, clock, hand⟩ := j
    subst hshared hclock hj
    obtain ⟨hfalse, h', hw'⟩ := h.dropAlarm hP hw hhand
    have hgo := ih _ _ h' hw' (congrArg Scene.shared (k.scene_dropAlarm me a)).symm
      (k.leavesTimers_dropAlarm me a).clock.symm (by rw [hold_self])
    change Turned P crew st me n rest (exec me (next (k.dropAlarm me a).1) (k.dropAlarm me a).2)
    rw [hfalse]
    exact hgo.congr fun t ht => hold_of_ne st _ ht
  | @answerAlarm a limit next n j hhand _ ih =>
    intro st k h hw hshared hclock hj
    obtain ⟨shared, clock, hand⟩ := j
    subst hshared hclock hj
    obtain ⟨htrue, h', hw'⟩ := h.answerAlarm hP hw hhand
    have hgo := ih _ _ h' hw' (congrArg Scene.shared (k.scene_dropAlarm me a)).symm
      (k.leavesTimers_dropAlarm me a).clock.symm (by rw [hold_self])
    change Turned P crew st me n rest (exec me (next (k.dropAlarm me a).1) (k.dropAlarm me a).2)
    rw [htrue]
    exact hgo.congr fun t ht => hold_of_ne st _ ht
  | @yield next n j hhand hholds hnext _ =>
    intro st k h hw hshared hclock hj
    obtain ⟨shared, clock, hand⟩ := j
    subst hshared hclock hj
    exact ⟨rfl, hholds, ⟨.turn, 0, 0, (st me).hand, k.clock, n + 1⟩, le_refl _,
      h.yield hP hw hhand ⟨next, n, rfl, rfl, hnext⟩⟩
  | @sleep d next n j hd hhand hholds hnext _ =>
    intro st k h hw hshared hclock hj
    obtain ⟨shared, clock, hand⟩ := j
    subst hshared hclock hj
    let s : Stance := ⟨.until (dueAfter k.clock d), k.cells.size, k.timers.size, (st me).hand,
      k.clock, n + 1⟩
    have hb : Beds rest s k ((k.addCell newCell).2.addTimer d (.fire k.cells.size)).2 :=
      beds_addTimer h.clockwork hd rfl rfl
    obtain ⟨hr, hshared⟩ := h.lie hP hw hb rfl rfl rfl nofun hhand ⟨next, n, rfl, rfl, hnext⟩
    rw [exec_sleep, hb.exec_wait]
    exact ⟨rfl, hshared.symm ▸ hholds, s, le_refl _, hr⟩
  | @hang next n j hhand hholds hnext _ =>
    intro st k h hw hshared hclock hj
    obtain ⟨shared, clock, hand⟩ := j
    subst hshared hclock hj
    let s : Stance := ⟨.forever, k.cells.size, 0, (st me).hand, k.clock, n + 1⟩
    have hb : Beds rest s k (k.addCell newCell).2 := beds_addCell h.clockwork nofun
    obtain ⟨hr, hshared⟩ := h.lie hP hw hb rfl rfl rfl nofun hhand ⟨next, n, rfl, rfl, hnext⟩
    rw [exec_hang, hb.exec_wait]
    exact ⟨rfl, hshared.symm ▸ hholds, s, le_refl _, hr⟩

theorem Grip.soon {requests : Nat} {hand : Hand} (h : Grip k t requests k.Later hand) :
    Grip k t requests k.Soon hand :=
  h.imp (fun _ _ ha _ => ha) fun _ _ _ hi _ hl => ⟨hi, .inl hl.1⟩

/-- What a task goes on with whose job comes up, and what it then has in hand. -/
theorem RestsAs.goesOn {s : Stance} {x : Option Nat} {cell : Cell σ ν} {ts : TaskState σ ν}
    (h : RestsAs P (.turn t x :: rest) k t s cell ts) (hx : s.waitsFor = x)
    (hdone : ∀ c, x = some c → (k.statusOf c).isDone = true)
    (hlast : (t, s.waitsFor) ∉ wakes k.ready.toList) :
    ∃ answer hand, (if ts.interruptDue then some .interrupted else
        x.bind fun c => failureOf (k.statusOf c)) = answer ∧
      Wakes P.alone s.since s.hand s.repose answer hand k.clock ∧
      Grip k t ts.requests k.Soon hand ∧
      (∀ c, x = some c → ∃ cell, k.cells[c]? = some cell ∧ cell.status ≠ .pending) ∧
      ∀ a limit timer, s.hand = .armed a limit → k.alarms[a]? = some ⟨t, 0, timer, false⟩ →
        hand = .armed a limit := by
  have hawake : ∀ place, Asleep k t s ts place → False := by
    intro place ha
    obtain ⟨c, w, hc, hpending, -⟩ := ha.signal
    have hwaits : x = some s.signal := by
      rw [← hx]
      unfold Stance.waitsFor
      cases hr : s.repose with
      | turn => exact absurd hr ha.repose
      | «until» _ | forever => rfl
    have hd := hdone _ hwaits
    rw [statusOf_eq hc, hpending.status] at hd
    cases hd
  cases h.phase with
  | new ha => exact (hawake _ ha).elim
  | old ha => exact (hawake _ ha).elim
  | roused hr =>
    obtain ⟨-, hgrip⟩ := hr.called.resolve_left fun hc => hlast hc.1
    have hfired : ∀ c, x = some c → ∃ cell, k.cells[c]? = some cell ∧ Signal cell .fired := by
      intro c hc
      exact hr.signal c (hx.trans hc)
    have hnone : (x.bind fun c => failureOf (k.statusOf c)) = none := by
      cases hc : x with
      | none => rfl
      | some c =>
        obtain ⟨cell, hcell, hsignal⟩ := hfired c hc
        change failureOf (k.statusOf c) = none
        rw [statusOf_eq hcell, hsignal.status]
        rfl
    have hstatus : ∀ c, x = some c → ∃ cell, k.cells[c]? = some cell ∧ cell.status ≠ .pending := by
      intro c hc
      obtain ⟨cell, hcell, hsignal⟩ := hfired c hc
      exact ⟨cell, hcell, by rw [hsignal.status]; nofun⟩
    have htime := hr.onTime
    have hmay := h.mayRest
    unfold OnTime at htime
    rw [hr.idle, if_neg Bool.false_ne_true, hnone]
    -- what it has in hand is what it had, but for an alarm that was dropped before
    cases hhand : s.hand with
    | clean | spent =>
      have hfree := hgrip.soon
      rw [hhand] at hfree
      refine ⟨none, .clean, rfl, ?_, hfree, hstatus, nofun⟩
      cases hrepose : s.repose with
      | turn =>
        rw [hrepose] at htime
        rw [htime]
        exact .turn trivial
      | «until» due =>
        rw [hrepose] at htime
        obtain ⟨hdue, hle, hexact⟩ := htime
        refine .rested trivial hdue hle fun hal => ?_
        have hex := hexact hal due hrepose
        rwa [hhand] at hex
      | forever => rw [hrepose] at htime; exact htime.elim
    | armed a limit =>
      have hsoon := hgrip.soon
      rw [hhand] at hsoon hgrip hmay
      obtain ⟨-, timer, -, -, hlater⟩ := hgrip
      refine ⟨none, .armed a limit, rfl, ?_, hsoon, hstatus, fun a' limit' _ heq _ => by cases heq; rfl⟩
      cases hrepose : s.repose with
      | turn => rw [hrepose] at hmay; exact hmay.elim
      | «until» due =>
        rw [hrepose] at htime
        obtain ⟨hdue, hle, hexact⟩ := htime
        refine .inTime hdue hle hlater.2 fun hal => ?_
        have hex : k.clock = min due limit := by
          have hex := hexact hal due hrepose
          rwa [hhand] at hex
        -- the alarm is not due, so it is not what has brought the clock forward
        rcases min_choice due limit with hmin | hmin
        · exact hex.trans hmin
        · exact absurd (.inl (hex.trans hmin).ge) hlater.2
      | forever => rw [hrepose] at htime; exact htime.elim
    | struck a limit => rw [hhand] at hmay; exact hmay.elim
  | struck hs =>
    obtain ⟨a, limit, timer, hhand, ha, hwakes⟩ := hs.rung
    obtain ⟨c, hc, hsignal⟩ := hs.signal
    have hrepose : s.repose ≠ .turn := by
      intro heq
      have hmay := h.mayRest
      rw [heq, hhand] at hmay
      exact hmay
    have hwaits : x = some s.signal := by
      rw [← hx]
      unfold Stance.waitsFor
      cases hr : s.repose with
      | turn => exact absurd hr hrepose
      | «until» _ | forever => rfl
    refine ⟨some .interrupted, .struck a limit, ?_, hwakes, ⟨hs.requests, timer, ha⟩,
      fun c' hc' => ?_, fun a' limit' timer' harmed ha' => ?_⟩
    · rcases hsignal with ⟨-, hdue⟩ | hsignal
      · rw [if_pos hdue]
      · rw [hwaits]
        change (if _ then _ else failureOf (k.statusOf s.signal)) = _
        rw [statusOf_eq hc, hsignal.status]
        exact ite_self _
    · rw [hwaits] at hc'
      cases hc'
      refine ⟨c, hc, ?_⟩
      rcases hsignal with ⟨hsignal, -⟩ | hsignal
      · rw [hsignal.status]; nofun
      · rw [hsignal.status]; nofun
    · rw [hhand] at harmed
      cases harmed
      cases ha.symm.trans ha'

/-- A job for another task is done with. -/
theorem leavesBe_skip (hP : P.Lawful) {j : Job σ ν} (hwoken : ∀ c, j ≠ .turn t c)
    (htimer : ∀ timer action, j = .timer timer → k.duty? timer = some (action, false) →
      ¬ Concerns k t action) : LeavesBe P t (j :: rest) rest k k where
  task _ h := h
  signal _ _ h _ _ := h
  timer i action hi hof := by
    refine ⟨hi, fun hin => ?_⟩
    rcases List.mem_cons.mp hin with heq | hin
    · exact absurd hof (htimer i action heq.symm hi)
    · exact hin
  action _ _ dropped hi := ⟨dropped, hi⟩
  alarm _ _ ha _ := ha
  queue _ hx := hx
  ready _ hj := hj
  woken c hc := by
    rcases List.mem_cons.mp (mem_wakes.mp hc) with heq | hin
    · exact absurd heq.symm (hwoken c)
    · exact mem_wakes.mpr hin
  clock := rfl
  meanwhile := hP.refl t _

theorem calls_turn (x : Option Nat) (rest : List (Job σ ν)) (k : Scheduler σ ν) :
    calls (.turn t x :: rest) k = calls rest k :=
  rfl

/-- The stance of a task whose turn has begun. -/
def Stance.atWork (s : Stance) (hand : Hand) (n : Nat) : Stance :=
  { s with repose := .turn, hand, rests := n }

/-- Of a task whose turn begins, the timer is dropped that was to wake it. -/
def begin (k : Scheduler σ ν) (t : Nat) (s : Stance) : Scheduler σ ν :=
  let k := k.modifyTask t fun s => { s with waitingFor := none, interruptDue := false }
  match s.repose with
  | .until _ => k.dropTimer s.timer
  | .turn | .forever => k

theorem exec_resume (k : Scheduler σ ν) (t : Nat) (s : Stance) (next : Option Failure → Task σ ν)
    (answer : Option Failure) : exec t (s.resume next answer)
      (k.modifyTask t fun s => { s with waitingFor := none, interruptDue := false }) =
        exec t (next answer) (k.begin t s) := by
  unfold Stance.resume begin
  cases s.repose <;> rfl

/-- What the beginning of a turn changes. -/
theorem begin_eq (k : Scheduler σ ν) (t : Nat) (s : Stance) :
    DropsTimer (k.modifyTask t fun s => { s with waitingFor := none, interruptDue := false })
        (k.begin t s) ∧
      (∀ i action, (k.begin t s).duty? i = some (action, false) →
        k.duty? i = some (action, false) ∧ ∀ due, s.repose = .until due → i ≠ s.timer) ∧
      ∀ i, (∀ due, s.repose = .until due → i ≠ s.timer) → (k.begin t s).duty? i = k.duty? i := by
  unfold begin
  cases s.repose with
  | turn | forever =>
    exact ⟨⟨rfl, rfl, rfl, rfl, rfl, rfl, rfl⟩, fun i action hi => ⟨hi, nofun⟩, fun _ _ => rfl⟩
  | «until» due =>
    refine ⟨dropsTimer _ _, fun i action hi => ?_, fun i hi => ?_⟩
    · rw [duty?_dropTimer] at hi
      split at hi
      · obtain ⟨x, -, heq⟩ := Option.map_eq_some_iff.mp hi
        cases heq
      · rename_i hne
        exact ⟨hi, fun _ _ => hne⟩
    · exact (duty?_dropTimer ..).trans (if_neg (hi due rfl))

theorem getElem?_modifyTask (k : Scheduler σ ν) {t i : Nat} (f : TaskState σ ν → TaskState σ ν)
    (hi : i ≠ t) : (k.modifyTask t f).cells[i]? = k.cells[i]? :=
  (k.getElem?_modifyCell t i _).trans (if_neg (Ne.symm hi))

/-- **A task goes on.** -/
theorem Rhythm.begin (hP : P.Lawful) {x : Option Nat} {cell : Cell σ ν} {ts : TaskState σ ν}
    {hand : Hand} (h : Rhythm P crew st none (.turn t x :: rest) k) (ht : t ∈ crew)
    (hrests : RestsAs P (.turn t x :: rest) k t (st t) cell ts)
    (horder : Orderly (fun t => (st t).waitsFor) (some t) rest k)
    (hgrip : Grip k t ts.requests k.Soon hand) (hx : (st t).waitsFor = x)
    (hdone : ∀ c, x = some c → ∃ cell, k.cells[c]? = some cell ∧ cell.status ≠ .pending)
    (hkept : ∀ a limit timer, (st t).hand = .armed a limit →
      k.alarms[a]? = some ⟨t, 0, timer, false⟩ → hand = .armed a limit) (n : Nat) :
    Rhythm P crew (Function.update st t ((st t).atWork hand n)) (some t) rest (k.begin t (st t)) ∧
      AtWork (k.begin t (st t)) crew t ((st t).atWork hand n) := by
  let f : TaskState σ ν → TaskState σ ν := fun s =>
    { s with waitingFor := none, interruptDue := false }
  obtain ⟨hd, hduty, hsame⟩ := k.begin_eq t (st t)
  obtain ⟨cell', hcell', htask'⟩ := k.modifyTask_cell hrests.found hrests.task (f := f) rfl
  have hspares : ∀ t', t' ≠ t → LeavesBe P t' (.turn t x :: rest) rest k (k.begin t (st t)) := by
    intro t' ht'
    have hskip : LeavesBe P t' (.turn t x :: rest) rest k k :=
      leavesBe_skip hP (fun c heq => ht' (by cases heq; rfl)) nofun
    have hmodify : LeavesBe P t' rest rest k (k.modifyTask t f) := leavesBe_modifyTask hP ht' rest
      ⟨cell, hrests.found, by rw [hrests.task.task]; nofun⟩ f
    refine (hskip.trans hP hmodify).trans hP ?_
    unfold Scheduler.begin
    cases hrepose : (st t).repose with
    | turn | forever => exact .refl hP t' rest _
    | «until» due =>
      obtain ⟨dropped, hfire⟩ := hrests.timer due hrepose
      refine leavesBe_dropTimer hP t' rest (k := k.modifyTask t f) hfire ?_
      -- nobody else waits for the signal of the timer
      rintro ⟨c, w, hc, hpending, -⟩
      obtain ⟨c', hc', hstatus⟩ := hdone (st t).signal (by rw [← hx, Stance.waitsFor, hrepose])
      by_cases heq : (st t).signal = t
      · rw [heq, hcell'] at hc
        cases hc
        exact absurd (htask'.task.symm.trans hpending.task) nofun
      · rw [getElem?_modifyTask k f heq, hc'] at hc
        cases hc
        exact hstatus hpending.status
  refine ⟨⟨?_, ?_, fun j hj => ?_, fun t' ht' hbusy => ?_, fun i hi => ?_, fun i hi action hduty' => ?_,
    fun hal => ?_⟩, ht, ⟨cell', f ts, hd.cells ▸ hcell', htask', rfl, ?_⟩, rfl⟩
  · have hasked := (k.keepsOrder_modifyTask t f).order _ _ _ (horder.update none)
    rw [waitsFor_update]
    exact hasked.of_same hd.cells (by rw [hd.ready])
  · refine h.clockwork.same hd.clock hd.queue hd.size.ge ?_
    rw [hd.ready]
    exact .refl _
  · rw [hd.ready] at hj
    exact h.jobs j (List.mem_cons_of_mem _ hj)
  · have hne : t' ≠ t := fun heq => hbusy (congrArg some heq.symm)
    rw [Function.update_of_ne hne]
    exact (h.stand ht').imp (·.spared hP (hspares t' hne)) (·.spared hP (hspares t' hne))
  · rw [hd.shared]
    exact h.fresh i hi
  · obtain ⟨hold, hnap⟩ := hduty i action hduty'
    rw [hd.calls] at hi
    obtain ⟨t', ht', howns⟩ := h.owned i hi action hold
    refine ⟨t', ht', ?_⟩
    by_cases heq : t' = t
    · subst heq
      rw [Function.update_self]
      cases action with
      | fire c =>
        obtain ⟨htimer, -, due, hdue⟩ := howns
        exact absurd htimer.symm (hnap due hdue)
      | ring a =>
        obtain ⟨⟨limit, harmed⟩, ha⟩ := howns
        exact ⟨⟨limit, hkept a limit i harmed ha⟩, hd.alarms ▸ ha⟩
    · rw [Function.update_of_ne heq]
      exact howns.congr fun a alarm ha => hd.alarms ▸ ha
  · have hl := h.lone hal
    have hcleared : timersOf k.ready.toList = [] := hl.cleared nofun
    refine ⟨hl.sole, fun _ => ?_, .inr fun i hi => ?_⟩
    · rw [hd.ready]
      exact hcleared
    · rw [hd.ready] at hi
      rw [show timersOf (k.modifyTask t _).ready.toList = timersOf k.ready.toList from rfl,
        hcleared] at hi
      cases hi
  · refine hgrip.imp (fun a alarm ha _ => hd.alarms ▸ ha) fun a timer due hi hof hs => ⟨?_, ?_⟩
    · refine (hsame timer fun due hdue heq => ?_).trans hi
      obtain ⟨dropped, hfire⟩ := hrests.timer due hdue
      cases hfire.symm.trans (heq ▸ hi)
    · exact hs.of_eq hd.clock (fun x hx => hd.queue ▸ hx) hd.ready

/-- A turn that nobody takes. -/
theorem Rhythm.skipTurn (hP : P.Lawful) {x : Option Nat}
    (h : Rhythm P crew st none (.turn t x :: rest) k) (hover : Over P k t (st t)) :
    Rhythm P crew st none rest k := by
  refine ⟨h.orderly.skip, h.clockwork.same rfl rfl (le_refl _) (.refl _),
    fun j hj => h.jobs j (List.mem_cons_of_mem _ hj), fun t' ht' _ => ?_, h.fresh, h.owned,
    fun hal => ⟨(h.lone hal).sole, fun _ => (h.lone hal).cleared nofun, (h.lone hal).kept⟩⟩
  by_cases heq : t' = t
  · exact .inr (heq ▸ hover)
  · have hskip : LeavesBe P t' (.turn t x :: rest) rest k k :=
      leavesBe_skip hP (fun c hc => heq (by cases hc; rfl)) nofun
    exact (h.stand ht').imp (·.spared hP hskip) (·.spared hP hskip)

/-- **A turn.**  A task that is over is left alone; any other rests less often after it. -/
theorem Rhythm.turn (hP : P.Lawful) {x : Option Nat} (hholds : P.holds k.shared)
    (h : Rhythm P crew st none (.turn t x :: rest) k) :
    (k.turn t x = k ∧ Rhythm P crew st none rest k) ∨
      P.holds (k.turn t x).shared ∧ ∃ s : Stance, s.rests < (st t).rests ∧
        Rhythm P crew (Function.update st t s) none rest (k.turn t x) := by
  have ht : t ∈ crew := h.jobs (.turn t x) (List.mem_append_left _ List.mem_cons_self)
  rcases h.stand ht with ⟨cell, ts, hrests⟩ | hover
  · right
    have hts : k.task? t = some ts := by
      rw [Scheduler.task?, hrests.found, Option.bind_some, hrests.task.task]
    obtain ⟨horder, -, hx, hdone⟩ := h.orderly.turn (by rw [Live, hts]; rfl)
    have hlast : (t, (st t).waitsFor) ∉ wakes k.ready.toList := by
      intro hin
      refine horder.not_woken (List.mem_map.mpr ⟨(t, (st t).waitsFor), ?_, rfl⟩)
      rw [wakes_append]
      exact List.mem_append_right _ hin
    obtain ⟨answer, hand, hanswer, hwakes, hgrip, hstatus, hkept⟩ := hrests.goesOn hx hdone hlast
    obtain ⟨next, n, hnext, hn, hgo⟩ := hrests.prepared
    obtain ⟨hbegun, hwork⟩ := h.begin hP ht hrests horder hgrip hx hstatus hkept n
    have hd := (k.begin_eq t (st t)).1
    have hturned := exec_paced hP (hgo answer ⟨k.shared, k.clock, hand⟩ hholds (hP.refl t _) hwakes)
      _ _ hbegun (by rw [Function.update_self]; exact hwork) hd.shared.symm hd.clock.symm
      (by rw [Function.update_self]; rfl)
    have heq : k.turn t x = (exec t (next answer) (k.begin t (st t))).2 := by
      unfold Scheduler.turn
      simp only [hts, hanswer, hnext, exec_resume]
      split
      · rename_i heq
        rw [heq]
      · rename_i heq
        have hover := hturned.ended
        rw [heq] at hover
        cases hover
    rw [heq]
    obtain ⟨s, hs, hr⟩ := hturned.rhythm
    rw [Function.update_idem] at hr
    exact ⟨hturned.holds, s, hn ▸ Nat.lt_succ_of_le hs, hr⟩
  · obtain ⟨cell, r, hcell, htask, -⟩ := hover.ended
    left
    have hts : k.task? t = none := by rw [Scheduler.task?, hcell, Option.bind_some, htask]
    refine ⟨?_, h.skipTurn hP hover⟩
    unfold Scheduler.turn
    rw [hts]

end ChatCommands.Concurrency.Scheduler
