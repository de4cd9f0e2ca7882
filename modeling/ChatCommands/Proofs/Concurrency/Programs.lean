import ChatCommands.Concurrency.Scheduler

/-!
The programs that a scheduler holds.

A scheduler holds programs in three places: what its tasks do next, what they start over with, and
the reactions that wait for a cell or are ready to be run.  Apart from a task that is given its turn
no operation makes up a program; so a property of all programs survives every operation, as does the
shared state.
-/

namespace ChatCommands.Concurrency

variable {σ ν : Type}

/-- A property of the programs in each of the places where a scheduler holds programs.  For the
programs of a task it may depend on the task. -/
structure Programs (σ ν : Type) where
  next : (task : Nat) → (Option Failure → Task σ ν) → Prop
  again : (task : Nat) → Task σ ν → Prop
  reaction : (CellStatus ν → Task σ ν) → Prop

namespace Programs

variable (P : Programs σ ν)

/-- The same, but for what a busy task was to do next. -/
def except (busy : Option Nat) : Programs σ ν :=
  { P with next := fun c program => busy = some c ∨ P.next c program }

def TaskOk (t : Nat) (s : TaskState σ ν) : Prop :=
  P.next t s.next ∧ ∀ body, s.again = some body → P.again t body

def WatcherOk : Watcher σ ν → Prop
  | .resume _ => True
  | .run program => P.reaction program

/-- The programs of a cell have their property; only a task that has not ended has any. -/
structure CellOk (c : Nat) (cell : Cell σ ν) : Prop where
  task : ∀ s, cell.task = some s → P.TaskOk c s ∧ cell.status.isDone = false
  watchers : ∀ w ∈ cell.watchers, P.WatcherOk w.2

def JobOk : Job σ ν → Prop
  | .run _ program => P.reaction program
  | .turn .. | .timer _ => True

end Programs

namespace Scheduler

/-- The shared state is `s`, and all programs have their property. -/
structure Holds (P : Programs σ ν) (s : σ) (k : Scheduler σ ν) : Prop where
  shared : k.shared = s
  cells : ∀ (c : Nat) cell, k.cells[c]? = some cell → P.CellOk c cell
  ready : ∀ j ∈ k.ready, P.JobOk j

namespace Holds

variable {P : Programs σ ν} {s : σ} {k : Scheduler σ ν}

/-- The programs have another property that follows from theirs. -/
theorem imp {P' : Programs σ ν} (h : Holds P s k)
    (hnext : ∀ c < k.cells.size, ∀ program, P.next c program → P'.next c program)
    (hagain : ∀ c < k.cells.size, ∀ body, P.again c body → P'.again c body)
    (hreaction : ∀ program, P.reaction program → P'.reaction program) :
    Holds P' s k := by
  refine ⟨h.shared, fun c cell hc => ⟨fun ts hts => ?_, fun w hw => ?_⟩, fun j hj => ?_⟩
  · have hsize : c < k.cells.size := (Array.getElem?_eq_some_iff.mp hc).1
    obtain ⟨⟨hn, ha⟩, hdone⟩ := (h.cells c cell hc).task ts hts
    exact ⟨⟨hnext c hsize _ hn, fun body hbody => hagain c hsize body (ha body hbody)⟩, hdone⟩
  · have hok := (h.cells c cell hc).watchers w hw
    rcases w with ⟨_, _ | program⟩
    · trivial
    · exact hreaction program hok
  · have hok := h.ready j hj
    cases j with
    | run c program => exact hreaction program hok
    | turn t wokenBy => trivial
    | timer t => trivial

theorem except (h : Holds P s k) (busy : Option Nat) : Holds (P.except busy) s k :=
  h.imp (fun _ _ _ hn => .inr hn) (fun _ _ _ ha => ha) fun _ hr => hr

theorem put (h : Holds P s k) (s' : σ) : Holds P s' { k with shared := s' } :=
  ⟨rfl, h.cells, h.ready⟩

theorem push (h : Holds P s k) {j : Job σ ν} (hj : P.JobOk j) :
    Holds P s { k with ready := k.ready.push j } := by
  refine ⟨h.shared, h.cells, fun i hi => ?_⟩
  rcases Array.mem_push.mp hi with hi | rfl
  · exact h.ready i hi
  · exact hj

theorem modifyCell (h : Holds P s k) (c : Nat) {f : Cell σ ν → Cell σ ν}
    (hf : ∀ cell, P.CellOk c cell → P.CellOk c (f cell)) : Holds P s (k.modifyCell c f) := by
  refine ⟨h.shared, fun i cell hi => ?_, h.ready⟩
  rw [Scheduler.modifyCell, Array.getElem?_modify] at hi
  split at hi
  · rename_i heq
    subst heq
    obtain ⟨cell', hc, rfl⟩ := Option.map_eq_some_iff.mp hi
    exact hf cell' (h.cells _ cell' hc)
  · exact h.cells i cell hi

theorem modifyTask (h : Holds P s k) (t : Nat) {f : TaskState σ ν → TaskState σ ν}
    (hf : ∀ ts, P.TaskOk t ts → P.TaskOk t (f ts)) : Holds P s (k.modifyTask t f) := by
  refine h.modifyCell t fun cell hc => ⟨fun ts hts => ?_, hc.watchers⟩
  obtain ⟨ts', hts', rfl⟩ := Option.map_eq_some_iff.mp hts
  exact ⟨hf ts' (hc.task ts' hts').1, (hc.task ts' hts').2⟩

theorem task (h : Holds P s k) {t : Nat} {ts : TaskState σ ν} (ht : k.task? t = some ts) :
    P.TaskOk t ts := by
  obtain ⟨cell, hc, hts⟩ := Option.bind_eq_some_iff.mp ht
  exact ((h.cells t cell hc).task ts hts).1

theorem jobOf {c : Nat} {w : Watcher σ ν} (hw : P.WatcherOk w) : P.JobOk (jobOf c w) := by
  cases w with
  | resume t => trivial
  | run program => exact hw

theorem settle (h : Holds P s k) (c : Nat) (status : CellStatus ν) :
    Holds P s (k.settle c status) := by
  unfold Scheduler.settle
  split
  · rename_i cell hc
    split
    · exact h
    · have hwatchers : ∀ w ∈ cell.watchers, P.JobOk (Scheduler.jobOf c w.2) :=
        fun w hw => jobOf ((h.cells c cell hc).watchers w hw)
      have hdone := h.modifyCell c (f := fun cell =>
        { cell with status, watchers := [], task := none }) fun _ _ => ⟨by simp, by simp⟩
      refine ⟨hdone.shared, hdone.cells, ?_⟩
      -- the jobs of the watchers are pushed one by one
      change ∀ j ∈ cell.watchers.foldl (fun r w => r.push (Scheduler.jobOf c w.2)) k.ready, _
      generalize cell.watchers = ws at hwatchers
      have hready := h.ready
      generalize k.ready = r at hready
      induction ws generalizing r with
      | nil => exact hready
      | cons w ws ih =>
        refine ih (fun w' hw' => hwatchers w' (List.mem_cons_of_mem w hw')) _ fun j hj => ?_
        rcases Array.mem_push.mp hj with hj | rfl
        · exact hready j hj
        · exact hwatchers w List.mem_cons_self
  · exact h

theorem fire (h : Holds P s k) (c : Nat) : Holds P s (k.fire c) := by
  unfold Scheduler.fire
  split
  · split
    · exact h.modifyCell c fun _ hc => ⟨hc.task, hc.watchers⟩
    · split
      · exact h.settle c _
      · exact h.settle c _
  · exact h

theorem addWatcher (h : Holds P s k) (c : Nat) {w : Watcher σ ν} (hw : P.WatcherOk w) :
    Holds P s (k.addWatcher c w) := by
  have h' : Holds P s { k with watches := k.watches + 1 } := ⟨h.shared, h.cells, h.ready⟩
  unfold Scheduler.addWatcher
  simp only []
  split
  · exact h'.push (jobOf hw)
  · refine h'.modifyCell c fun cell hc => ⟨hc.task, fun x hx => ?_⟩
    rcases List.mem_append.mp hx with hx | hx
    · exact hc.watchers x hx
    · rw [List.mem_singleton.mp hx]
      exact hw

theorem addCell (h : Holds P s k) {cell : Cell σ ν} (hc : P.CellOk k.cells.size cell) :
    Holds P s (k.addCell cell).2 := by
  refine ⟨h.shared, fun i cell' hi => ?_, h.ready⟩
  rw [Scheduler.addCell, Array.getElem?_push] at hi
  split at hi
  · rename_i heq
    cases hi
    exact heq ▸ hc
  · exact h.cells i cell' hi

theorem addTask (h : Holds P s k) (repeated : Bool) {body : Task σ ν}
    (hfirst : P.next k.cells.size fun | none => body | some f => .finish (.error f))
    (hagain : repeated = true → P.again k.cells.size body) :
    Holds P s (k.addTask repeated body).2 := by
  refine (h.addCell ⟨?_, by simp⟩).push trivial
  rintro ts hts
  cases hts
  refine ⟨⟨hfirst, fun body' hbody => ?_⟩, rfl⟩
  cases repeated with
  | true =>
    cases hbody
    exact hagain rfl
  | false => cases hbody

theorem addTimer (h : Holds P s k) (delay : Rat) (action : TimerAction) :
    Holds P s (k.addTimer delay action).2 :=
  ⟨h.shared, h.cells, h.ready⟩

theorem dropTimer (h : Holds P s k) (t : Nat) : Holds P s (k.dropTimer t) := by
  unfold Scheduler.dropTimer
  split
  · split
    · exact h
    · exact ⟨h.shared, h.cells, h.ready⟩
  · exact h

theorem interruptCell (fuel : Nat) : ∀ {k : Scheduler σ ν}, Holds P s k → ∀ c,
    Holds P s (interruptCell fuel k c).2 := by
  induction fuel with
  | zero => exact fun h _ => h
  | succ fuel ih =>
    intro k h c
    unfold Scheduler.interruptCell
    split
    · exact h
    · exact h
    · rename_i cell hfuel hc
      cases hfuel
      split
      · exact h
      · split
        · rename_i task _
          have h' := h.modifyTask c (f := fun ts => { ts with requests := ts.requests + 1 })
            fun _ hts => hts
          cases hw : task.waitingFor with
          | none => exact h'.modifyTask c fun _ hts => hts
          | some w =>
            have h'' := ih h' w
            simp only []
            split
            · exact h''
            · exact h''.modifyTask c fun _ hts => hts
        · split
          · exact h.settle c _
          · have hfold : ∀ (ms : List Nat) (any : Bool) (k : Scheduler σ ν), Holds P s k →
                Holds P s (ms.foldl (fun (acc : Bool × Scheduler σ ν) m =>
                  (acc.1 || (Scheduler.interruptCell fuel acc.2 m).1,
                    (Scheduler.interruptCell fuel acc.2 m).2)) (any, k)).2 := by
              intro ms
              induction ms with
              | nil => exact fun _ _ h => h
              | cons m ms ihm => exact fun _ _ h => ihm _ _ (ih h m)
            exact (hfold _ _ _ h).modifyCell c fun _ hc => ⟨hc.task, hc.watchers⟩

theorem interrupt (h : Holds P s k) (t : Nat) : Holds P s (k.interrupt t) :=
  interruptCell _ h t

theorem setAlarm (h : Holds P s k) (me : Nat) (delay : Rat) : Holds P s (k.setAlarm me delay).2 := by
  unfold Scheduler.setAlarm
  simp only []
  split
  · have h' := h.push (j := .timer k.timers.size) trivial
    exact ⟨h'.shared, h'.cells, h'.ready⟩
  · exact ⟨h.shared, h.cells, h.ready⟩

theorem dropAlarm (h : Holds P s k) (me a : Nat) : Holds P s (k.dropAlarm me a).2 := by
  unfold Scheduler.dropAlarm
  split
  · split
    · exact h.modifyTask me fun _ hts => hts
    · exact h.dropTimer _
  · exact h

theorem perform (h : Holds P s k) (me : Nat) (c : Call ν) : Holds P s (k.perform me c).2 := by
  cases c with
  | now => exact h
  | newSignal count members => exact h.addCell ⟨by simp, by simp⟩
  | fire signal => exact h.fire signal
  | fail signal f => exact h.settle signal _
  | status cell => exact h
  | fireAfter delay signal => exact h.addTimer delay _
  | dropTimer timer => exact h.dropTimer timer
  | setAlarm delay => exact h.setAlarm me delay
  | dropAlarm alarm => exact h.dropAlarm me alarm
  | interrupt task => exact h.interrupt task
  | unwatch cell watch =>
    exact h.modifyCell cell fun _ hc =>
      ⟨hc.task, fun w hw => hc.watchers w (List.mem_filter.mp hw).1⟩

/-! ### Turns -/

/-- Once a busy task has no program left there is nothing to be excepted. -/
theorem of_task?_eq_none {me : Nat} (h : Holds (P.except (some me)) s k)
    (hnone : k.task? me = none) : Holds P s k := by
  refine ⟨h.shared, fun c cell hc => ⟨fun ts hts => ?_, (h.cells c cell hc).watchers⟩, h.ready⟩
  obtain ⟨⟨hn, ha⟩, hdone⟩ := (h.cells c cell hc).task ts hts
  rcases hn with heq | hn
  · cases heq
    simp [task?, hc, hts] at hnone
  · exact ⟨⟨hn, ha⟩, hdone⟩

/-- A busy task comes to wait: what it does next is no longer excepted. -/
theorem modifyNext {me : Nat} (h : Holds (P.except (some me)) s k)
    {next : Option Failure → Task σ ν} (hn : P.next me next) {f : TaskState σ ν → TaskState σ ν}
    (hf : ∀ ts, (f ts).next = next ∧ (f ts).again = ts.again) : Holds P s (k.modifyTask me f) := by
  refine ⟨h.shared, fun c cell hc => ?_, h.ready⟩
  rw [Scheduler.modifyTask, Scheduler.modifyCell, Array.getElem?_modify] at hc
  split at hc
  · rename_i heq
    subst heq
    obtain ⟨cell', hc', rfl⟩ := Option.map_eq_some_iff.mp hc
    refine ⟨fun ts hts => ?_, (h.cells _ cell' hc').watchers⟩
    obtain ⟨ts', hts', rfl⟩ := Option.map_eq_some_iff.mp hts
    obtain ⟨⟨-, ha⟩, hdone⟩ := (h.cells _ cell' hc').task ts' hts'
    refine ⟨⟨(hf ts').1 ▸ hn, ?_⟩, hdone⟩
    rw [(hf ts').2]
    exact ha
  · rename_i hne
    refine ⟨fun ts hts => ?_, (h.cells c cell hc).watchers⟩
    obtain ⟨⟨hn', ha⟩, hdone⟩ := (h.cells c cell hc).task ts hts
    exact ⟨⟨hn'.resolve_left fun heq => hne (Option.some.inj heq), ha⟩, hdone⟩

theorem awaitTurn {me : Nat} (h : Holds (P.except (some me)) s k)
    {next : Option Failure → Task σ ν} (hn : P.next me next) : Holds P s (k.awaitTurn me next) := by
  have h' := h.modifyNext hn (f := fun s => { s with next, waitingFor := none }) fun _ => ⟨rfl, rfl⟩
  exact h'.push (j := .turn me none) trivial

theorem awaitCell {me : Nat} (h : Holds (P.except (some me)) s k) (c : Nat)
    {next : Option Failure → Task σ ν} (hn : P.next me next) :
    Holds P s (k.awaitCell me c next) := by
  have hnext := h.modifyNext hn (f := fun s => { s with next, waitingFor := some c })
    fun _ => ⟨rfl, rfl⟩
  have h' := hnext.addWatcher c (w := .resume me) trivial
  unfold Scheduler.awaitCell
  simp only []
  split
  · split
    · exact (interruptCell _ h' c).modifyTask me fun _ hts => hts
    · exact interruptCell _ h' c
  · exact h'

theorem task?_settle {me : Nat} {ts : TaskState σ ν} (h : Holds P s k)
    (hts : k.task? me = some ts) (status : CellStatus ν) : (k.settle me status).task? me = none := by
  obtain ⟨cell, hc, htask⟩ := Option.bind_eq_some_iff.mp hts
  have hdone := ((h.cells me cell hc).task ts htask).2
  simp [Scheduler.settle, Scheduler.modifyCell, task?, hc, hdone, Array.getElem?_modify]

/-- The task has come to its end, or is to start over. -/
theorem finish {busy : Option Nat} {me : Nat} (h : Holds (P.except busy) s k)
    (hbusy : ∀ c, busy = some c → c = me) (r : Ending ν) :
    (∀ body, (k.finish me r).1 = some body →
      Holds (P.except busy) s (k.finish me r).2 ∧ P.again me body) ∧
    ((k.finish me r).1 = none → Holds P s (k.finish me r).2) := by
  have hme : Holds (P.except (some me)) s k :=
    h.imp (fun c _ _ hn => hn.imp_left fun heq => congrArg some (hbusy c heq).symm)
      (fun _ _ _ ha => ha) fun _ hr => hr
  unfold Scheduler.finish
  split
  · rename_i ts hts
    have hsettle := fun status => (hme.settle me status).of_task?_eq_none (h.task?_settle hts status)
    split
    · exact ⟨by simp, fun _ => hsettle _⟩
    · split
      · rename_i body hbody
        refine ⟨fun body' heq => ?_, by simp⟩
        cases heq
        exact ⟨h, (h.task hts).2 body hbody⟩
      · exact ⟨by simp, fun _ => hsettle _⟩
  · rename_i hnone
    exact ⟨by simp, fun _ => hme.of_task?_eq_none hnone⟩

/-! ### Timers -/

theorem ring (h : Holds P s k) (t : Nat) : Holds P s (k.ring t) := by
  unfold Scheduler.ring
  split
  · split
    · exact h
    · split
      · exact h.fire _
      · split
        · rename_i alarm _
          have h' := h.interrupt alarm.task
          exact ⟨h'.shared, h'.cells, h'.ready⟩
        · exact h
  · exact h

theorem skipDropped (fuel : Nat) : ∀ {k : Scheduler σ ν}, Holds P s k →
    Holds P s (Scheduler.skipDropped fuel k) := by
  induction fuel with
  | zero => exact fun h => h
  | succ fuel ih =>
    intro k h
    unfold Scheduler.skipDropped
    split
    · split
      · exact ih ⟨h.shared, h.cells, h.ready⟩
      · exact h
    · exact h

theorem tidy (h : Holds P s k) : Holds P s k.tidy := by
  unfold Scheduler.tidy
  split
  · have hfold : ∀ (xs : List (Rat × Nat)) (k : Scheduler σ ν), Holds P s k →
        Holds P s (xs.foldl (fun k x => k.unqueue x.2) k) := by
      intro xs
      induction xs with
      | nil => exact fun _ h => h
      | cons x xs ih => exact fun _ h => ih _ ⟨h.shared, h.cells, h.ready⟩
    have h' := hfold (k.queue.filter fun x => k.isDropped x.2).toList k h
    rw [Array.foldl_toList] at h'
    exact ⟨h'.shared, h'.cells, h'.ready⟩
  · exact h.skipDropped _

theorem release (limit : Rat) (fuel : Nat) : ∀ {k : Scheduler σ ν}, Holds P s k →
    Holds P s (Scheduler.release limit fuel k) := by
  induction fuel with
  | zero => exact fun h => h
  | succ fuel ih =>
    intro k h
    unfold Scheduler.release
    split
    · rename_i t _
      split
      · refine ih ?_
        have h' := h.push (j := .timer t) trivial
        exact ⟨h'.shared, h'.cells, h'.ready⟩
      · exact h
    · exact h

theorem advance (h : Holds P s k) : Holds P s k.advance := by
  unfold Scheduler.advance
  split
  · exact ⟨h.shared, h.cells, h.ready⟩
  · exact h

theorem collect (h : Holds P s k) : Holds P s k.collect := h.tidy.advance.release _ _

end Holds

end Scheduler

end ChatCommands.Concurrency
