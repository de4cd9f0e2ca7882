import ChatCommands.Proofs.Concurrency.Custody
import ChatCommands.Proofs.Concurrency.Moments

/-!
What a timetable says holds in every state that a scheduler reaches.

If every task that arrives obeys a timetable then so does every program that ever comes to be, and
what the timetable says holds between any two turns.  What was fixed at one moment of a run stays
fixed: an event that is counted after a round came about no earlier than that round.  Main statements:
`Reachable.inTime` and `Onward.inTime`.
-/

namespace ChatCommands.Concurrency

variable {σ ν : Type} {R : Timetable σ}

namespace Timetable

/-- A program that will go on when it has been answered obeys the timetable from then on. -/
def Poised (R : Timetable σ) (what : Awaited) (m : Moment σ)
    (program : Option Failure → Task σ ν) : Prop :=
  ∀ answer m', R.holds m' → m.Later m' → what.Allows m' answer →
    (program answer).Obeys R (fun _ => R.holds) m'

/-- A program that will be run obeys the timetable from then on. -/
def Prepared (R : Timetable σ) (m : Moment σ) (body : Task σ ν) : Prop :=
  ∀ m', R.holds m' → m.Later m' → body.Obeys R (fun _ => R.holds) m'

/-- The programs that obey the timetable, if the tasks wait for these cells. -/
def programs (R : Timetable σ) (waits : Nat → Option Nat) (m : Moment σ) : Programs σ ν where
  next t := R.Poised (Commons.awaited (waits t)) m
  again _ := R.Prepared m
  reaction program := (∀ status, (program status).Prompt) ∧ ∀ status, R.Prepared m (program status)

variable {m m' : Moment σ}

theorem Poised.mono {what : Awaited} {program : Option Failure → Task σ ν} (hl : m.Later m')
    (h : R.Poised what m program) : R.Poised what m' program :=
  fun answer x hx hl' ha => h answer x hx (hl.trans hl') ha

theorem Prepared.mono {body : Task σ ν} (hl : m.Later m') (h : R.Prepared m body) :
    R.Prepared m' body :=
  fun x hx hl' => h x hx (hl.trans hl')

/-- What a task begins with: it can be interrupted before. -/
theorem Prepared.first {what : Awaited} {body : Task σ ν} (h : R.Prepared m body) :
    R.Poised what m fun
      | none => body
      | some f => .finish (.error f) := by
  intro answer x hx hl _
  cases answer with
  | none => exact h x hx hl
  | some f => exact hx

end Timetable

open Timetable

namespace Scheduler

variable {k k' k'' : Scheduler σ ν}

/-! ### Firm signals -/

/-- The cell is a signal that has not ended in a fault. -/
structure Firm (k : Scheduler σ ν) (c : Nat) : Prop where
  lt : c < k.cells.size
  dead : ¬ k.Live c
  sound : ∀ f, k.statusOf c ≠ .ended (.error (.fault f))

/-- An operation that ends no cells in a fault but loose ones, and starts no task in an old cell. -/
structure Spares (loose : Nat → Prop) (k k' : Scheduler σ ν) : Prop where
  size : k.cells.size ≤ k'.cells.size
  live : ∀ c < k.cells.size, k'.Live c → k.Live c
  faults : ∀ c < k.cells.size, ∀ f, k'.statusOf c = .ended (.error (.fault f)) →
    k.statusOf c = .ended (.error (.fault f)) ∨ loose c

variable {loose : Nat → Prop} {c : Nat}

theorem Firm.step (h : Firm k c) (hop : Spares loose k k') (hc : ¬ loose c) : Firm k' c where
  lt := Nat.lt_of_lt_of_le h.lt hop.size
  dead hlive := h.dead (hop.live c h.lt hlive)
  sound f heq := (hop.faults c h.lt f heq).elim (h.sound f) hc

theorem spares_of_drifts (hdrift : k.scene.Drifts loose k'.scene)
    (hlive : ∀ c < k.cells.size, k'.Live c → k.Live c) : Spares loose k k' := by
  refine ⟨hdrift.size, hlive, fun c hc f heq => ?_⟩
  have hstatus : k'.scene.status c = .ended (.error (.fault f)) := heq
  rcases hdrift.status c hc with hsame | ⟨-, hint | ⟨hloose, -⟩⟩
  · exact .inl (hsame.symm.trans hstatus)
  · cases hint.symm.trans hstatus
  · exact .inr hloose

theorem spares_settle (k : Scheduler σ ν) (c : Nat) {s : CellStatus ν} (hs : s.isDone = true) :
    Spares (fun i => i = c ∧ ∃ f, s = .ended (.error (.fault f))) k (k.settle c s) := by
  have hscene := k.scene_settle c s
  refine ⟨Nat.le_of_eq (congrArg Scene.size hscene).symm,
    fun i _ => (k.keepsOrder_settle c hs).live i, fun i _ f heq => ?_⟩
  have hstatus : k.scene.settle c s |>.status i |> (· = .ended (.error (.fault f))) := by
    rw [← hscene]
    exact heq
  by_cases hi : i = c
  · subst hi
    by_cases hdone : (k.statusOf i).isDone = true
    · refine .inl ?_
      simpa [Scene.settle, scene, hdone] using hstatus
    · refine .inr ⟨rfl, f, ?_⟩
      simpa [Scene.settle, scene, hdone] using hstatus
  · refine .inl ?_
    simpa [Scene.settle, scene, hi] using hstatus

theorem Spares.mono {loose' : Nat → Prop} (h : Spares loose k k') (hl : ∀ c, loose c → loose' c) :
    Spares loose' k k' :=
  { h with faults := fun c hc f heq => (h.faults c hc f heq).imp_right (hl c) }

/-- Whoever fires a signal does not end it in a fault. -/
theorem spares_fire (k : Scheduler σ ν) (c : Nat) : Spares (fun _ => False) k (k.fire c) := by
  unfold fire
  split
  · split
    · refine spares_of_drifts ((k.drifts_modifyCell c (fun _ => rfl) fun cell _ h =>
        ⟨Nat.le_trans (Nat.sub_le _ _) h.count, h.members, h.membersInterrupted⟩)) fun i _ => ?_
      exact (k.keepsOrder_modifyCell c (f := fun cell => { cell with count := cell.count - 1 })
        fun cell => ⟨rfl, .refl _, id⟩).live i
    · split
      · exact (k.spares_settle c rfl).mono fun _ ⟨_, _, heq⟩ => nomatch heq
      · exact (k.spares_settle c rfl).mono fun _ ⟨_, _, heq⟩ => nomatch heq
  · exact spares_of_drifts (.refl _ _) fun _ _ h => h

theorem spares_ring (k : Scheduler σ ν) (t : Nat) : Spares (fun _ => False) k (k.ring t) := by
  have hlive := (k.keepsOrder_ring t).live
  unfold ring at hlive ⊢
  split
  · rename_i timer _
    split
    · exact spares_of_drifts (.refl _ _) fun _ _ h => h
    · split
      · exact k.spares_fire _
      · split
        · rename_i alarm _
          have hdrift := k.drifts_interrupt alarm.task
          exact spares_of_drifts ⟨hdrift.shared, hdrift.size, hdrift.plain, hdrift.status⟩
            fun i _ => (k.keepsOrder_interrupt alarm.task).live i
        · exact spares_of_drifts (.refl _ _) fun _ _ h => h
  · exact spares_of_drifts (.refl _ _) fun _ _ h => h

/-- A primitive step ends no signal in a fault but one that it fails. -/
theorem spares_perform (k : Scheduler σ ν) (me : Nat) (c : Call ν) :
    Spares (fun i => ∃ f, c = .fail i (.fault f)) k (k.perform me c).2 := by
  have hlive : ∀ i < k.cells.size, (k.perform me c).2.Live i → k.Live i :=
    fun i _ => k.live_perform me c i
  have hanswer := k.answer_perform me c
  cases c with
  | fire signal => exact (k.spares_fire signal).mono fun _ => False.elim
  | fail signal f =>
    refine (k.spares_settle signal rfl).mono ?_
    rintro _ ⟨rfl, g, heq⟩
    cases heq
    exact ⟨g, rfl⟩
  | fireAfter delay signal => exact spares_of_drifts (.refl _ _) hlive
  | now | status | newSignal | dropTimer | setAlarm | dropAlarm | interrupt | unwatch =>
    exact spares_of_drifts (hanswer.drifts fun i hi => nomatch hi) hlive

theorem firm_addCell (k : Scheduler σ ν) {cell : Cell σ ν} (htask : cell.task = none)
    (hsound : ∀ f, cell.status ≠ .ended (.error (.fault f))) :
    Firm (k.addCell cell).2 k.cells.size := by
  have hself : (k.addCell cell).2.cells[k.cells.size]? = some cell := Array.getElem?_push_size
  refine ⟨?_, fun hlive => ?_, fun f hstatus => ?_⟩
  · exact Nat.lt_of_lt_of_eq (Nat.lt_succ_self _) (Array.size_push _).symm
  · obtain ⟨cell', hcell, hsome⟩ := live_iff.mp hlive
    cases hself.symm.trans hcell
    rw [htask] at hsome
    cases hsome
  · exact hsound f ((statusOf_eq hself).symm.trans hstatus)

/-! ### Numbers of cells -/

theorem size_settle (k : Scheduler σ ν) (c : Nat) (s : CellStatus ν) :
    (k.settle c s).cells.size = k.cells.size :=
  congrArg Scene.size (k.scene_settle c s)

theorem size_fire (k : Scheduler σ ν) (c : Nat) : (k.fire c).cells.size = k.cells.size := by
  unfold fire
  split
  · split
    · exact Array.size_modify
    · split
      · exact k.size_settle c _
      · exact k.size_settle c _
  · rfl

theorem size_finish (k : Scheduler σ ν) (me : Nat) (r : Ending ν) :
    (k.finish me r).2.cells.size = k.cells.size := by
  unfold finish
  split
  · split
    · exact k.size_settle me _
    · split
      · rfl
      · exact k.size_settle me _
  · rfl

theorem size_interruptCell (fuel : Nat) (k : Scheduler σ ν) (c : Nat) :
    (interruptCell fuel k c).2.cells.size = k.cells.size := by
  obtain ⟨hdrift, hsame⟩ := interruptCell_drifts fuel k c
  have hnone := hsame k.cells.size
  rw [Array.getElem?_eq_none (Nat.le_refl _), Option.map_none, Option.map_eq_none_iff,
    Array.getElem?_eq_none_iff] at hnone
  exact Nat.le_antisymm hnone hdrift.size

theorem size_modifyTask (k : Scheduler σ ν) (t : Nat) (f : TaskState σ ν → TaskState σ ν) :
    (k.modifyTask t f).cells.size = k.cells.size :=
  Array.size_modify

theorem size_awaitCell (k : Scheduler σ ν) (me c : Nat) (next : Option Failure → Task σ ν) :
    (k.awaitCell me c next).cells.size = k.cells.size := by
  let waiting := (k.modifyTask me fun s => { s with next, waitingFor := some c }).addWatcher c
    (.resume me)
  have hwaiting : waiting.cells.size = k.cells.size :=
    (congrArg Scene.size (scene_addWatcher _ c _)).trans (k.size_modifyTask me _)
  have hpassed : ∀ fuel, (interruptCell fuel waiting c).2.cells.size = k.cells.size := fun fuel =>
    (size_interruptCell fuel waiting c).trans hwaiting
  unfold awaitCell
  simp only []
  split
  · split
    · rw [size_modifyTask]
      exact hpassed _
    · exact hpassed _
  · exact hwaiting

theorem size_ring (k : Scheduler σ ν) (t : Nat) : (k.ring t).cells.size = k.cells.size := by
  unfold ring
  split
  · split
    · rfl
    · split
      · exact k.size_fire _
      · split
        · exact size_interruptCell _ k _
        · rfl
  · rfl

/-! ### Programs in time -/

/-- All programs obey the timetable from the moment `m` on, where nothing is said of what a busy task
was to do next, and the scheduler is as `m` says; the jobs of `rest` are still to be done. -/
structure InTime (R : Timetable σ) (waits : Nat → Option Nat) (busy : Option Nat)
    (rest : List (Job σ ν)) (m : Moment σ) (k : Scheduler σ ν) : Prop where
  orderly : Orderly waits busy rest k
  programs : Holds ((R.programs waits m).except busy) m.shared k
  jobs : ∀ j ∈ rest, (R.programs waits m).JobOk j
  clock : k.clock = m.clock
  size : k.cells.size = m.size
  punctual : Punctual m.dues rest k
  firm : ∀ c, m.firm c → Firm k c

variable {waits waits' : Nat → Option Nat} {busy busy' : Option Nat} {rest : List (Job σ ν)}
  {m m' : Moment σ} {me : Nat}

/-- What an operation leads to, if the programs then are those that there were or that obey the
timetable from then on. -/
theorem InTime.of (h : InTime R waits busy rest m k) (hl : m.Later m')
    (horder : Orderly waits' busy' rest k')
    (hop : Holds ((R.programs waits' m).except busy') m'.shared k') (hclock : k'.clock = m'.clock)
    (hsize : k'.cells.size = m'.size) (hpunctual : Punctual m'.dues rest k')
    (hfirm : ∀ c, m'.firm c → Firm k' c) : InTime R waits' busy' rest m' k' := by
  have hmono : ∀ program : CellStatus ν → Task σ ν, (R.programs waits' m).reaction program →
      (R.programs waits' m').reaction program := fun program hr =>
    ⟨hr.1, fun status => (hr.2 status).mono hl⟩
  refine ⟨horder, ?_, fun j hj => jobOk_imp hmono (h.jobs j hj), hclock, hsize, hpunctual, hfirm⟩
  exact hop.imp (fun t _ program hn => hn.imp_right fun hn => Timetable.Poised.mono hl hn)
    (fun t _ body ha => Timetable.Prepared.mono hl ha) hmono

/-- Firm signals stay firm under an operation that spares them. -/
theorem InTime.stayFirm (h : InTime R waits busy rest m k) (hop : Spares loose k k')
    (hloose : ∀ c, loose c → ¬ m.firm c) : ∀ c, m.firm c → Firm k' c :=
  fun c hc => (h.firm c hc).step hop fun hl => hloose c hl hc

/-- No cell is to be settled by a task that is firm. -/
theorem InTime.not_live (h : InTime R waits busy rest m k) {c : Nat} (hc : k.Live c) : ¬ m.firm c :=
  fun hf => (h.firm c hf).dead hc

/-- What the program of `me` has come to: it waits, or has ended, or is to start over. -/
structure Come (R : Timetable σ) (busy : Option Nat) (rest : List (Job σ ν)) (me : Nat)
    (m : Moment σ) (result : Option (Task σ ν) × Scheduler σ ν) : Prop where
  ended : result.1 = none → ∃ m' waits, m.Later m' ∧ R.holds m' ∧
    InTime R waits none rest m' result.2
  again : ∀ body, result.1 = some body → busy = some me ∧ me < result.2.cells.size ∧
    ∃ m' waits, m.Later m' ∧ R.holds m' ∧ InTime R waits busy rest m' result.2 ∧ R.Prepared m' body

theorem Come.after {result : Option (Task σ ν) × Scheduler σ ν} (h : Come R busy rest me m' result)
    (hl : m.Later m') : Come R busy rest me m result := by
  refine ⟨fun hnone => ?_, fun body hbody => ?_⟩
  · obtain ⟨m'', waits, hl', hm, hin⟩ := h.ended hnone
    exact ⟨m'', waits, hl.trans hl', hm, hin⟩
  · obtain ⟨hbusy, hlt, m'', waits, hl', hrest⟩ := h.again body hbody
    exact ⟨hbusy, hlt, m'', waits, hl.trans hl', hrest⟩

theorem come_finish (h : InTime R waits busy rest m k)
    (hme : busy = some me ∧ me < k.cells.size ∨ busy = none ∧ ¬ k.Live me) (r : Ending ν)
    (hm : R.holds m) : Come R busy rest me m (k.finish me r) := by
  have hbusy : ∀ c, busy = some c → c = me := by
    rintro c rfl
    rcases hme with ⟨heq, -⟩ | ⟨heq, -⟩
    · exact Option.some.inj heq
    · cases heq
  obtain ⟨hagain, hover⟩ := h.programs.finish hbusy r
  have horder := k.keepsOrder_finish me r
  have hdrift := k.drifts_finish me r
  have hleaves := k.leavesTimers_finish me r
  have hsize := k.size_finish me r
  have hfirm : ∀ c, m.firm c → Firm (k.finish me r).2 c :=
    h.stayFirm (spares_of_drifts hdrift fun c _ => horder.live c) fun c hc =>
      h.not_live (hc.1 ▸ hc.2)
  have hafter : ∀ busy', Orderly waits busy' rest (k.finish me r).2 →
      Holds ((R.programs waits m).except busy') m.shared (k.finish me r).2 →
      InTime R waits busy' rest m (k.finish me r).2 := fun busy' horder' hop =>
    h.of (.refl m) horder' hop (hleaves.clock.trans h.clock) (hsize.trans h.size)
      (h.punctual.step hleaves) hfirm
  refine ⟨fun hnone => ⟨m, waits, .refl m, hm, hafter none ?_ ((hover hnone).except none)⟩,
    fun body hbody => ?_⟩
  · exact (horder.order _ _ _ h.orderly).idle
  · obtain ⟨hop, hbody'⟩ := hagain body hbody
    rcases hme with ⟨hb, hlt⟩ | ⟨-, hlive⟩
    · exact ⟨hb, hsize ▸ hlt, m, waits, .refl m, hm,
        hafter busy (horder.order _ _ _ h.orderly) hop, hbody'⟩
    · -- one that is no task does not start over
      have hnone : k.task? me = none := by
        cases hts : k.task? me with
        | none => rfl
        | some ts => exact absurd (by simp [Live, hts]) hlive
      unfold finish at hbody
      rw [hnone] at hbody
      cases hbody

/-- **A primitive step** gives what the moment says. -/
theorem InTime.perform (h : InTime R waits busy rest m k) (me : Nat) {c : Call ν}
    (hc : c.Respects m) (isFirm : Prop) : ∃ m', c.Gives isFirm m (k.perform me c).1 m' ∧
      InTime R waits busy rest m' (k.perform me c).2 := by
  have horder : Orderly waits busy rest (k.perform me c).2 := by
    cases c with
    | fireAfter delay signal =>
      exact ⟨h.orderly.quiet, h.orderly.watched, h.orderly.once, h.orderly.woken, h.orderly.single⟩
    | _ => exact (k.keepsOrder_perform me rfl).order _ _ _ h.orderly
  have hop := h.programs.perform me c
  have hfirm : ∀ i, m.firm i → Firm (k.perform me c).2 i := by
    refine h.stayFirm (k.spares_perform me c) ?_
    rintro i ⟨f, rfl⟩
    exact hc.2
  have hleaves : LeavesTimers k (k.perform me c).2 → (k.perform me c).2.cells.size = k.cells.size →
      InTime R waits busy rest m (k.perform me c).2 := fun hleaves hsize =>
    h.of (.refl m) horder hop (hleaves.clock.trans h.clock) (hsize.trans h.size)
      (h.punctual.step hleaves) hfirm
  cases c with
  | now => exact ⟨m, rfl, hleaves (.refl k) rfl⟩
  | newSignal count members =>
    refine ⟨m.cell isFirm, ⟨h.size, rfl⟩, h.of (m.later_cell isFirm) horder hop h.clock ?_
      (h.punctual.step (k.leavesTimers_addCell _)) fun i hi => ?_⟩
    · exact (Array.size_push _).trans (congrArg (· + 1) h.size)
    · by_cases heq : i = m.size
      · rw [heq, ← h.size]
        exact k.firm_addCell rfl fun f => by simp only []; split <;> nofun
      · have hold : Function.update m.firm m.size isFirm i := hi
        rw [Function.update_of_ne heq] at hold
        exact hfirm i hold
  | fire signal => exact ⟨m, rfl, hleaves (k.leavesTimers_fire signal) (k.size_fire signal)⟩
  | fail signal f =>
    exact ⟨m, rfl, hleaves (k.leavesTimers_settle signal _) (k.size_settle signal _)⟩
  | status cell => exact ⟨m, rfl, hleaves (.refl k) rfl⟩
  | fireAfter delay signal =>
    exact ⟨m, rfl, h.of (.refl m) horder hop h.clock h.size (h.punctual.addTimer delay signal) hfirm⟩
  | dropTimer timer =>
    exact ⟨m, rfl, hleaves (k.leavesTimers_dropTimer timer)
      (congrArg Scene.size (k.scene_dropTimer timer))⟩
  | setAlarm delay =>
    refine ⟨m.alarm delay, ⟨h.punctual.alarms.symm, rfl⟩, h.of (m.later_alarm delay) horder hop ?_ ?_ ?_
      hfirm⟩
    · exact (k.clock_setAlarm me delay).trans h.clock
    · exact (congrArg Scene.size (k.scene_setAlarm me delay)).trans h.size
    · have hset := h.punctual.setAlarm me delay
      rw [h.clock] at hset
      exact hset
  | dropAlarm a =>
    refine ⟨m, ⟨fun hexpired => ?_, rfl⟩, hleaves (k.leavesTimers_dropAlarm me a)
      (congrArg Scene.size (k.scene_dropAlarm me a))⟩
    obtain ⟨due, hdue, hclock⟩ := h.punctual.dropAlarm hexpired
    exact ⟨due, hdue, h.clock ▸ hclock⟩
  | interrupt task =>
    exact ⟨m, rfl, hleaves (k.leavesTimers_interrupt task) (size_interruptCell _ k task)⟩
  | unwatch cell watch =>
    exact ⟨m, rfl, hleaves (k.leavesTimers_modifyCell cell _) Array.size_modify⟩

theorem InTime.spawn (h : InTime R waits busy rest m k) (hme : ∀ me, busy = some me → me < k.cells.size)
    (repeated : Bool) {body : Task σ ν} (hbody : R.Prepared m body) :
    InTime R (Function.update waits k.cells.size none) busy rest (m.cell False)
      (k.addTask repeated body).2 := by
  have hl := m.later_cell False
  have hprograms : Holds ((R.programs (Function.update waits k.cells.size none) m).except busy)
      m.shared k := by
    refine h.programs.imp (fun t ht program hn => hn.imp_right fun hn => ?_) (fun _ _ _ ha => ha)
      fun _ hr => hr
    change R.Poised (Commons.awaited (Function.update waits k.cells.size none t)) m program
    rw [Function.update_of_ne (Nat.ne_of_lt ht)]
    exact hn
  have hspares : Spares (fun _ => False) k (k.addTask repeated body).2 := by
    refine spares_of_drifts ?_ fun c hc hlive => ?_
    · rw [scene_addTask]
      exact Scene.drifts_push _ _ _
    · obtain ⟨cell, hcell, htask⟩ := live_iff.mp hlive
      change (k.cells.push _)[c]? = some cell at hcell
      rw [Array.getElem?_push, if_neg (Nat.ne_of_lt hc)] at hcell
      exact live_iff.mpr ⟨cell, hcell, htask⟩
  refine h.of hl (h.orderly.addTask hme repeated body) (hprograms.addTask repeated
    (.inr hbody.first) fun _ => hbody) h.clock ?_ (h.punctual.step (k.leavesTimers_addTask _ _))
    fun c hc => ?_
  · exact (Array.size_push _).trans (congrArg (· + 1) h.size)
  · by_cases heq : c = m.size
    · subst heq
      change Function.update m.firm m.size False m.size at hc
      rw [Function.update_self] at hc
      exact hc.elim
    · change Function.update m.firm m.size False c at hc
      rw [Function.update_of_ne heq] at hc
      exact h.stayFirm hspares (fun _ => False.elim) c hc

theorem InTime.wait (h : InTime R waits (some me) rest m k) (x : Option Nat)
    {next : Option Failure → Task σ ν} (hnext : R.Poised (Commons.awaited x) m next)
    (horder : Orderly (Function.update waits me x) none rest k')
    (hop : ∀ P : Programs σ ν, Holds (P.except (some me)) m.shared k → P.next me next →
      Holds P m.shared k')
    (hleaves : LeavesTimers k k') (hsize : k'.cells.size = k.cells.size)
    (hspares : Spares (fun _ => False) k k') :
    InTime R (Function.update waits me x) none rest m k' := by
  have hprograms : Holds ((R.programs (Function.update waits me x) m).except (some me)) m.shared
      k := by
    refine h.programs.imp (fun t _ program hn => ?_) (fun _ _ _ ha => ha) fun _ hr => hr
    rcases hn with hn | hn
    · exact .inl hn
    · by_cases ht : t = me
      · exact .inl (congrArg some ht.symm)
      · right
        change R.Poised (Commons.awaited (Function.update waits me x t)) m program
        rw [Function.update_of_ne ht]
        exact hn
  have hself : (R.programs (Function.update waits me x) m).next me next := by
    change R.Poised (Commons.awaited (Function.update waits me x me)) m next
    rw [Function.update_self]
    exact hnext
  exact h.of (.refl m) horder ((hop _ hprograms hself).except none) (hleaves.clock.trans h.clock)
    (hsize.trans h.size) (h.punctual.step hleaves) (h.stayFirm hspares fun _ => False.elim)

theorem InTime.awaitTurn (h : InTime R waits (some me) rest m k) (hme : me < k.cells.size)
    {next : Option Failure → Task σ ν} (hnext : R.Poised .turn m next) :
    InTime R (Function.update waits me none) none rest m (k.awaitTurn me next) := by
  have horder := k.keepsOrder_modifyTask me fun s => { s with next, waitingFor := none }
  have hscene := k.scene_awaitTurn me next
  exact h.wait none hnext (h.orderly.awaitTurn hme next) (fun P hp hn => hp.awaitTurn hn)
    (k.leavesTimers_awaitTurn me next) (congrArg Scene.size hscene)
    (spares_of_drifts (hscene ▸ .refl _ _) fun c _ => horder.live c)

/-- A firm signal that is done has not ended in a fault. -/
theorem InTime.allows (h : InTime R waits busy rest m k) {x : Option Nat} {answer : Option Failure}
    (ha : answer = some .interrupted ∨ answer = x.bind fun c => failureOf (k.statusOf c)) :
    (Commons.awaited x).Allows m answer := by
  cases x with
  | none => trivial
  | some c =>
    intro hc f heq
    rcases ha with rfl | rfl
    · cases heq
    · have hstatus : k.statusOf c = .ended (.error (.fault f)) := by
        have hfailure : failureOf (k.statusOf c) = some (.fault f) := heq
        unfold failureOf at hfailure
        split at hfailure
        · rename_i g hg
          cases hfailure
          exact hg
        · cases hfailure
      exact (h.firm c hc).sound f hstatus

/-- **A program that obeys the timetable** leaves programs behind that obey it. -/
theorem exec_come (me : Nat) (busy : Option Nat) (t : Task σ ν) :
    ∀ (k : Scheduler σ ν) (waits : Nat → Option Nat) (m : Moment σ), InTime R waits busy rest m k →
      Acts busy me t k → t.Obeys R (fun _ => R.holds) m → Come R busy rest me m (exec me t k) := by
  induction t with
  | finish r =>
    exact fun k waits m h hme ht =>
      come_finish h (hme.imp_right fun hme => ⟨hme.1, hme.2.1⟩) r ht
  | look next ih =>
    intro k waits m h hme ht
    have hshared : k.shared = m.shared := h.programs.shared
    exact ih k.shared k waits m h (hme.imp_right fun hme => ⟨hme.1, hme.2.1, hme.2.2 _⟩)
      (hshared.symm ▸ ht)
  | put s next ih =>
    intro k waits m h hme ht
    have horder : KeepsOrder k { k with shared := s } := keepsOrder_of_cells rfl rfl fun _ h => h
    have hput : InTime R waits busy rest (R.put m s) { k with shared := s } :=
      h.of (later_put m s) (horder.order _ _ _ h.orderly) (h.programs.put s) h.clock h.size
        (h.punctual.step (k.leavesTimers_put s)) fun c hc => ⟨(h.firm c hc).lt, (h.firm c hc).dead,
          (h.firm c hc).sound⟩
    exact (ih _ waits _ hput hme ht).after (later_put m s)
  | call c next ih =>
    intro k waits m h hme ht
    obtain ⟨hc, isFirm, hnext⟩ := ht
    obtain ⟨m', hgives, hafter⟩ := h.perform me hc isFirm
    have hsize : k.cells.size ≤ (k.perform me c).2.cells.size := (k.spares_perform me c).size
    refine (ih (k.perform me c).1 (k.perform me c).2 waits m' hafter ?_
      (hnext _ m' hgives)).after hgives.later
    exact hme.imp (fun hme => ⟨hme.1, Nat.lt_of_lt_of_le hme.2 hsize⟩)
      fun hme => ⟨hme.1, fun hl => hme.2.1 (k.live_perform me c me hl), hme.2.2 _⟩
  | spawn repeated body next _ ih =>
    intro k waits m h hme ht
    obtain ⟨hbody, hnext⟩ := ht
    rcases hme with ⟨rfl, hlt⟩ | ⟨-, -, hprompt⟩
    · have hspawn := h.spawn (fun i hi => Option.some.inj hi ▸ hlt) repeated hbody
      have hnumber : (k.addTask repeated body).1 = m.size := h.size
      refine (ih (k.addTask repeated body).1 (k.addTask repeated body).2 _ _ hspawn (.inl ⟨rfl, ?_⟩)
        (hnumber.symm ▸ hnext)).after (m.later_cell False)
      exact Nat.lt_of_lt_of_eq (Nat.lt_succ_of_lt hlt) (Array.size_push _).symm
    · cases hprompt
  | watch c reaction next _ ih =>
    intro k waits m h hme ht
    obtain ⟨hprompt, hreaction, hnext⟩ := ht
    rcases hme with ⟨rfl, hlt⟩ | ⟨-, -, hprompt'⟩
    · have hscene := k.scene_addWatcher c (.run reaction)
      have hsize : (k.addWatcher c (.run reaction)).cells.size = k.cells.size :=
        congrArg Scene.size hscene
      have hop : Holds ((R.programs waits m).except (some me)) m.shared
          (k.addWatcher c (.run reaction)) :=
        h.programs.addWatcher c ⟨hprompt, fun status => hreaction status⟩
      have horder := k.keepsOrder_addReaction c reaction
      have hleaves := k.leavesTimers_addWatcher c (.run reaction)
      have hafter := h.of (.refl m) (horder.order _ _ _ h.orderly) hop (hleaves.clock.trans h.clock)
        (hsize.trans h.size) (h.punctual.step hleaves) (h.stayFirm
          (spares_of_drifts (hscene ▸ .refl _ _) fun i _ => horder.live i) fun _ => False.elim)
      exact ih _ _ waits m hafter (.inl ⟨rfl, hsize ▸ hlt⟩) (hnext _)
    · cases hprompt'
  | wait what next ih =>
    intro k waits m h hme ht
    obtain ⟨hm, hnext⟩ := ht
    rcases hme with ⟨rfl, hlt⟩ | ⟨-, -, hprompt⟩
    · have hover : ∀ waits' {k' : Scheduler σ ν}, InTime R waits' none rest m k' →
          Come R (some me) rest me m (none, k') :=
        fun waits' _ h => ⟨fun _ => ⟨m, waits', .refl m, hm, h⟩, nofun⟩
      cases what with
      | turn => exact hover _ (h.awaitTurn hlt hnext)
      | cell c =>
        unfold exec
        split
        · exact ih _ k waits m h (.inl ⟨rfl, hlt⟩)
            (hnext _ m hm (.refl m) (h.allows (x := some c) (.inr rfl)))
        · rename_i hpending
          exact hover _ (h.wait (some c) hnext
            (h.orderly.awaitCell hlt (Bool.eq_false_iff.mpr hpending) next)
            (fun P hp hn => hp.awaitCell c hn) (k.leavesTimers_awaitCell me c next)
            (k.size_awaitCell me c next)
            (spares_of_drifts (k.drifts_awaitCell me c next) fun i _ =>
              (k.awaitCell_keeps me c next).1 i))
    · cases hprompt

/-! ### Turns -/

/-- No task has its turn, and what the timetable says holds at the moment `m`. -/
def Stands (R : Timetable σ) (rest : List (Job σ ν)) (m : Moment σ) (k : Scheduler σ ν) : Prop :=
  R.holds m ∧ ∃ waits, InTime R waits none rest m k

/-- Some time after the moment `m` no task has its turn. -/
def Goes (R : Timetable σ) (rest : List (Job σ ν)) (m : Moment σ) (k : Scheduler σ ν) : Prop :=
  ∃ m', m.Later m' ∧ Stands R rest m' k

theorem Goes.after (h : Goes R rest m' k) (hl : m.Later m') : Goes R rest m k := by
  obtain ⟨m'', hl', h⟩ := h
  exact ⟨m'', hl.trans hl', h⟩

theorem Come.goes {k' : Scheduler σ ν} (h : Come R busy rest me m (none, k')) : Goes R rest m k' := by
  obtain ⟨m', waits, hl, hm, hin⟩ := h.ended rfl
  exact ⟨m', hl, hm, waits, hin⟩

/-- A job that gives nobody a turn has been taken up. -/
theorem InTime.skip {j : Job σ ν} (h : InTime R waits busy (j :: rest) m k) :
    InTime R waits busy rest m k :=
  { h with
    orderly := h.orderly.skip
    jobs := fun i hi => h.jobs i (List.mem_cons_of_mem _ hi)
    punctual := ⟨h.punctual.alarms, h.punctual.queued,
      fun t ht => h.punctual.called t (List.mem_cons_of_mem _ ht), h.punctual.rung⟩ }

theorem InTime.take {t : Nat} {x : Option Nat} (h : InTime R waits none (.turn t x :: rest) m k)
    (hlive : k.Live t) : InTime R waits (some t) rest m k :=
  { h.skip with
    orderly := (h.orderly.turn hlive).1
    programs := h.programs.imp (fun _ _ _ hn => .inr (hn.resolve_left nofun)) (fun _ _ _ ha => ha)
      fun _ hr => hr }

theorem Stands.turn {t : Nat} {x : Option Nat} (h : Stands R (.turn t x :: rest) m k) :
    Goes R rest m (k.turn t x) := by
  obtain ⟨hm, waits, h⟩ := h
  unfold Scheduler.turn
  split
  · rename_i ts hts
    have hlive : k.Live t := by simp [Live, hts]
    obtain ⟨-, hlt, hx, -⟩ := h.orderly.turn hlive
    have hnext : R.Poised (Commons.awaited x) m ts.next := by
      rw [← hx]
      rcases (h.programs.task hts).1 with hnone | hnext
      · cases hnone
      · exact hnext
    let begun := k.modifyTask t fun s => { s with waitingFor := none, interruptDue := false }
    have htaken := h.take hlive
    have horder : KeepsOrder k begun := k.keepsOrder_modifyTask t _
    have hscene : begun.scene = k.scene := k.scene_modifyTask t _
    have hleaves : LeavesTimers k begun := k.leavesTimers_modifyTask t _
    have hsize : begun.cells.size = k.cells.size := k.size_modifyTask t _
    have hbegun : InTime R waits (some t) rest m begun :=
      htaken.of (.refl m) (horder.order _ _ _ htaken.orderly)
        (htaken.programs.modifyTask t fun _ hts => hts) (hleaves.clock.trans h.clock)
        (hsize.trans h.size) (htaken.punctual.step hleaves)
        (htaken.stayFirm (spares_of_drifts (hscene ▸ .refl _ _) fun c _ => horder.live c)
          fun _ => False.elim)
    have hcome : ∀ answer, (Commons.awaited x).Allows m answer →
        Come R (some t) rest t m (exec t (ts.next answer) begun) := fun answer ha =>
      exec_come t (some t) _ begun waits m hbegun (.inl ⟨rfl, hsize ▸ hlt⟩)
        (hnext answer m hm (.refl m) ha)
    simp only []
    have hanswer : (Commons.awaited x).Allows m (if ts.interruptDue = true then some .interrupted
        else x.bind fun c => failureOf (k.statusOf c)) := by
      refine h.allows ?_
      split
      · exact .inl rfl
      · exact .inr rfl
    have hfirst := hcome _ hanswer
    split
    · rename_i k' heq
      rw [heq] at hfirst
      exact hfirst.goes
    · rename_i body k' heq
      rw [heq] at hfirst
      obtain ⟨-, hme, m', waits', hl, hm', hin, hbody⟩ := hfirst.again body rfl
      have hsecond : Come R (some t) rest t m' (exec t body k') :=
        exec_come t (some t) body k' waits' m' hin (.inl ⟨rfl, hme⟩) (hbody m' hm' (.refl m'))
      -- what the task starts over with ends at once: it waits for its next turn
      split
      · rename_i k'' heq'
        rw [heq'] at hsecond
        exact hsecond.goes.after hl
      · rename_i body' k'' heq'
        rw [heq'] at hsecond
        obtain ⟨-, hme', m'', waits'', hl', hm'', hin', hbody'⟩ := hsecond.again body' rfl
        exact ⟨m'', hl.trans hl', hm'', _, hin'.awaitTurn hme' hbody'.first⟩
  · exact ⟨m, .refl m, hm, waits, h.skip⟩

theorem Stands.doJob {j : Job σ ν} (h : Stands R (j :: rest) m k) : Goes R rest m (k.doJob j) := by
  cases j with
  | turn t x => exact h.turn
  | run c program =>
    obtain ⟨hm, waits, h⟩ := h
    obtain ⟨hprompt, hreaction⟩ := h.jobs _ List.mem_cons_self
    -- a reaction goes by the number of the next cell, which no task has
    have hdead : ¬ k.Live k.cells.size := by
      rw [live_iff]
      rintro ⟨cell, hc, -⟩
      rw [Array.getElem?_eq_none (Nat.le_refl _)] at hc
      cases hc
    have hcome : Come R none rest k.cells.size m
        (exec k.cells.size (program (k.statusOf c)) k) :=
      exec_come _ none _ k waits m h.skip (.inr ⟨rfl, hdead, hprompt _⟩)
        (hreaction _ m hm (.refl m))
    cases hbody : (exec k.cells.size (program (k.statusOf c)) k).1 with
    | none =>
      obtain ⟨m', waits', hl, hm', hin⟩ := hcome.ended hbody
      exact ⟨m', hl, hm', waits', hin⟩
    | some body => cases (hcome.again body hbody).1
  | timer t =>
    obtain ⟨hm, waits, h⟩ := h
    have hclock : (k.ring t).clock = k.clock := by
      unfold Scheduler.ring
      split
      · split
        · rfl
        · split
          · exact (k.leavesTimers_fire _).clock
          · split
            · exact (k.leavesTimers_interrupt _).clock
            · rfl
      · rfl
    exact ⟨m, .refl m, hm, waits, h.skip.of (.refl m) ((k.keepsOrder_ring t).order _ _ _ h.skip.orderly)
      (h.skip.programs.ring t) (hclock.trans h.clock) ((k.size_ring t).trans h.size)
      h.punctual.ring (h.stayFirm (k.spares_ring t) fun _ => False.elim)⟩

/-! ### Rounds -/

theorem Stands.doJobs (js rest : List (Job σ ν)) : ∀ {m : Moment σ} {k : Scheduler σ ν},
    Stands R (js ++ rest) m k → Goes R rest m (js.foldl Scheduler.doJob k) := by
  induction js with
  | nil => exact fun {m} {k} h => ⟨m, .refl m, h⟩
  | cons j js ih =>
    intro m k h
    obtain ⟨m', hl, h'⟩ := h.doJob
    exact (ih h').after hl

/-- The moment at which the next round begins. -/
def dawn (k : Scheduler σ ν) (m : Moment σ) : Moment σ := { m with clock := k.collect.clock }

theorem InTime.later_dawn (h : InTime R waits busy rest m k) : m.Later (k.dawn m) := by
  have hle := k.collect_le
  rw [h.clock] at hle
  refine { Moment.Later.refl m with clock := hle, since := fun n t hn ht => ?_ }
  change m.stamps[n]? = some t at ht
  rw [List.getElem?_eq_none hn] at ht
  cases ht

/-- The jobs that were ready are those to be done. -/
theorem Stands.dawn (h : Stands R [] m k) :
    Stands R k.collect.ready.toList (k.dawn m) { k.collect with ready := #[] } := by
  obtain ⟨hm, waits, h⟩ := h
  have hl := h.later_dawn
  have horder : Orderly waits none [] k.collect := k.keepsOrder_collect.order _ _ _ h.orderly
  have hprograms := h.programs.collect
  have hlist : k.collect.ready.toList ++ (#[] : Array (Job σ ν)).toList =
      [] ++ k.collect.ready.toList := List.append_nil _
  have hmono : ∀ program : CellStatus ν → Task σ ν, (R.programs waits m).reaction program →
      (R.programs waits (k.dawn m)).reaction program := fun program hr =>
    ⟨hr.1, fun status => (hr.2 status).mono hl⟩
  have hscene := k.scene_collect
  have hsize : k.collect.cells.size = k.cells.size := congrArg Scene.size hscene
  refine ⟨R.lasts hm hl rfl rfl, waits, ⟨horder.quiet, horder.watched, horder.once, ?_, ?_⟩, ?_, ?_,
    rfl, hsize.trans h.size, h.punctual.collect.takeReady, fun c hc => ?_⟩
  · exact fun w hw => horder.woken w (hlist ▸ hw)
  · exact fun t ht => hlist ▸ horder.single t ht
  · refine Holds.imp ⟨hprograms.shared, hprograms.cells, fun _ hj => absurd hj (Array.not_mem_empty _)⟩
      (fun t _ program hn => hn.imp_right fun hn => Timetable.Poised.mono hl hn)
      (fun t _ body ha => Timetable.Prepared.mono hl ha) hmono
  · exact fun j hj => jobOk_imp hmono (hprograms.ready j (Array.mem_toList_iff.mp hj))
  · have hspares : Spares (fun _ => False) k k.collect :=
      spares_of_drifts (hscene ▸ .refl _ _) fun c _ => k.keepsOrder_collect.live c
    have hfirm := h.stayFirm hspares (fun _ => False.elim) c hc
    exact ⟨hfirm.lt, hfirm.dead, hfirm.sound⟩

/-- **Between any two jobs of the next round** what the timetable says holds. -/
theorem Stands.amid (h : Stands R [] m k) (jobs : Nat) :
    Goes R (k.collect.ready.toList.drop jobs) (k.dawn m) (k.amid jobs) := by
  refine Stands.doJobs _ _ ?_
  rw [List.take_append_drop]
  exact h.dawn

theorem Stands.round (h : Stands R [] m k) (hround : k.round? = some k') :
    Goes R [] (k.dawn m) k' := by
  unfold Scheduler.round? at hround
  simp only [] at hround
  split at hround
  · cases hround
  · cases hround
    have hall := h.amid k.collect.ready.size
    rwa [amid_size, ← Array.length_toList, List.drop_length] at hall

theorem Stands.addTask (h : Stands R [] m k) {body : Task σ ν}
    (hbody : ∀ m, R.holds m → body.Obeys R (fun _ => R.holds) m) :
    Goes R [] m (k.addTask false body).2 := by
  obtain ⟨hm, waits, h⟩ := h
  have hl := m.later_cell False
  exact ⟨m.cell False, hl, R.lasts hm hl rfl rfl, _, h.spawn nofun false fun m' hm' _ => hbody m' hm'⟩

/-! ### Runs -/

/-- The moment at which a run begins. -/
def outset (s : σ) : Moment σ := { shared := s }

theorem stands_outset {s : σ} (h : R.holds (outset s)) :
    Stands R [] (outset s) ({ shared := s } : Scheduler σ ν) := by
  have hnocell : ∀ {c : Nat} {cell : Cell σ ν}, (#[] : Array (Cell σ ν))[c]? ≠ some cell := by simp
  refine ⟨h, fun _ => none, ⟨?_, ?_, ?_, ?_, ?_⟩, ⟨rfl, ?_, ?_⟩, ?_, rfl, rfl, punctual_start s, ?_⟩
  · exact fun _ _ hc => absurd hc hnocell
  · exact fun _ _ hc => absurd hc hnocell
  · exact fun _ _ hc => absurd hc hnocell
  · exact fun _ hw => absurd hw List.not_mem_nil
  · intro t ht
    obtain ⟨cell, hc, -⟩ := live_iff.mp ht
    exact absurd hc hnocell
  · exact fun _ _ hc => absurd hc hnocell
  · exact fun _ hj => absurd hj (Array.not_mem_empty _)
  · exact fun _ hj => absurd hj List.not_mem_nil
  · exact fun _ hc => hc.elim

/-- The states that come after `k` in a run in which tasks of `arrivals` come in at any time. -/
inductive Onward (arrivals : Task σ ν → Prop) (k : Scheduler σ ν) : Scheduler σ ν → Prop
  | here : Onward arrivals k k
  | arrive {k' : Scheduler σ ν} {body : Task σ ν} (h : Onward arrivals k k') (hbody : arrivals body) :
    Onward arrivals k (k'.addTask false body).2
  | round {k' k'' : Scheduler σ ν} (h : Onward arrivals k k') (hround : k'.round? = some k'') :
    Onward arrivals k k''

section

variable {arrivals : Task σ ν → Prop}
  (harrivals : ∀ body, arrivals body → ∀ m, R.holds m → body.Obeys R (fun _ => R.holds) m)

include harrivals

/-- **What the timetable says holds from a moment on**, if every task that arrives obeys it. -/
theorem Onward.inTime (h : Onward arrivals k k') (hk : Stands R [] m k) : Goes R [] m k' := by
  induction h with
  | here => exact ⟨m, .refl m, hk⟩
  | arrive _ hbody ih =>
    obtain ⟨m', hl, h'⟩ := ih
    exact (h'.addTask (harrivals _ hbody)).after hl
  | round _ hround ih =>
    obtain ⟨m', hl, hm', waits, h'⟩ := ih
    exact (Stands.round ⟨hm', waits, h'⟩ hround).after (hl.trans h'.later_dawn)

/-- **What the timetable says holds in every reachable state**, if it holds at the start. -/
theorem Reachable.inTime {start : σ → Prop} (hstart : ∀ s, start s → R.holds (outset s))
    (h : Reachable start arrivals k) : ∃ m, Stands R [] m k := by
  induction h with
  | start hs => exact ⟨_, stands_outset (hstart _ hs)⟩
  | arrive _ hbody ih =>
    obtain ⟨m, h'⟩ := ih
    obtain ⟨m', -, h''⟩ := h'.addTask (harrivals _ hbody)
    exact ⟨m', h''⟩
  | round _ hround ih =>
    obtain ⟨m, h'⟩ := ih
    obtain ⟨m', -, h''⟩ := h'.round hround
    exact ⟨m', h''⟩

end

end Scheduler

end ChatCommands.Concurrency
