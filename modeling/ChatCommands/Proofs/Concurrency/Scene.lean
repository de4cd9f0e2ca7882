import ChatCommands.Concurrency.Scheduler
import Mathlib.Logic.Function.Basic

/-!
Scenes: what programs can find out about a scheduler.

A scene has the shared state and the statuses of the cells.  Each operation on a scheduler is
described here by what it does to the scene; the programs, the queue of timers and the jobs that are
ready do not come into it.  Cells only ever drift: new ones come, done ones stay as they are, and a
pending one may be interrupted at any time, as the task that waits for it may be.
-/

namespace ChatCommands.Concurrency

variable {σ ν : Type}

/-- What programs can find out about a scheduler. -/
@[ext]
structure Scene (σ ν : Type) where
  shared : σ
  /-- The number of cells, which is the number of the next one. -/
  size : Nat
  status : Nat → CellStatus ν
  /-- The first attempt to fire the cell fires it. -/
  plain : Nat → Prop

namespace Scene

variable {sc sc' sc'' : Scene σ ν} {loose loose' : Nat → Prop}

/-- The shared state is another one. -/
def put (sc : Scene σ ν) (s : σ) : Scene σ ν := { sc with shared := s }

/-- Something happens to a cell, unless something has happened to it before. -/
def settle (sc : Scene σ ν) (c : Nat) (s : CellStatus ν) : Scene σ ν :=
  { sc with
    status := Function.update sc.status c (if (sc.status c).isDone then sc.status c else s) }

/-- There is one more cell. -/
def push (sc : Scene σ ν) (s : CellStatus ν) (isPlain : Prop) : Scene σ ν :=
  { sc with
    size := sc.size + 1
    status := Function.update sc.status sc.size s
    plain := Function.update sc.plain sc.size isPlain }

/-- What may have become of the cells if the loose ones can be settled by anyone. -/
structure Drifts (loose : Nat → Prop) (sc sc' : Scene σ ν) : Prop where
  shared : sc'.shared = sc.shared
  size : sc.size ≤ sc'.size
  plain : ∀ c, c < sc.size → sc.plain c → sc'.plain c
  status : ∀ c, c < sc.size → sc'.status c = sc.status c ∨
    sc.status c = .pending ∧ (sc'.status c = .ended (.error .interrupted) ∨
      loose c ∧ (sc'.status c).isDone = true)

theorem Drifts.refl (loose : Nat → Prop) (sc : Scene σ ν) : Drifts loose sc sc :=
  ⟨rfl, Nat.le_refl _, fun _ _ h => h, fun _ _ => .inl rfl⟩

theorem Drifts.mono (h : Drifts loose sc sc') (hl : ∀ c, loose c → loose' c) :
    Drifts loose' sc sc' := by
  refine { h with status := fun c hc => ?_ }
  rcases h.status c hc with heq | ⟨hp, hi | ⟨hloose, hdone⟩⟩
  · exact .inl heq
  · exact .inr ⟨hp, .inl hi⟩
  · exact .inr ⟨hp, .inr ⟨hl c hloose, hdone⟩⟩

/-- What is done stays as it is. -/
theorem Drifts.done (h : Drifts loose sc sc') {c : Nat} (hc : c < sc.size)
    (hdone : (sc.status c).isDone = true) : sc'.status c = sc.status c := by
  rcases h.status c hc with heq | ⟨hp, -⟩
  · exact heq
  · rw [hp] at hdone
    cases hdone

theorem Drifts.trans (h : Drifts loose sc sc') (h' : Drifts loose sc' sc'') :
    Drifts loose sc sc'' := by
  have hlt : ∀ c, c < sc.size → c < sc'.size := fun c hc => Nat.lt_of_lt_of_le hc h.size
  refine ⟨h'.shared.trans h.shared, Nat.le_trans h.size h'.size,
    fun c hc hp => h'.plain c (hlt c hc) (h.plain c hc hp), fun c hc => ?_⟩
  have hc' := hlt c hc
  rcases h.status c hc with heq | ⟨hp, hnew⟩
  · rw [← heq]
    exact h'.status c hc'
  · have hdone : (sc'.status c).isDone = true := by
      rcases hnew with hi | ⟨-, hdone⟩
      · rw [hi]; rfl
      · exact hdone
    rw [h'.done hc' hdone]
    exact .inr ⟨hp, hnew⟩

theorem drifts_settle (sc : Scene σ ν) (c : Nat) {s : CellStatus ν} (hs : s.isDone = true) :
    Drifts (· = c) sc (sc.settle c s) := by
  refine ⟨rfl, Nat.le_refl _, fun _ _ h => h, fun i _ => ?_⟩
  by_cases hi : i = c
  · subst hi
    by_cases hdone : (sc.status i).isDone = true
    · simp [settle, hdone]
    · right
      cases hstatus : sc.status i with
      | pending =>
        refine ⟨rfl, .inr ⟨rfl, ?_⟩⟩
        simpa [settle, hstatus, CellStatus.isDone] using hs
      | fired | ended _ => simp [hstatus, CellStatus.isDone] at hdone
  · simp [settle, hi]

theorem drifts_settle_interrupted (sc : Scene σ ν) (c : Nat) :
    Drifts (fun _ => False) sc (sc.settle c (.ended (.error .interrupted))) := by
  have h := drifts_settle sc c (s := .ended (.error .interrupted)) rfl
  refine { h with status := fun i hi => ?_ }
  rcases h.status i hi with heq | ⟨hp, hint | ⟨rfl, -⟩⟩
  · exact .inl heq
  · exact .inr ⟨hp, .inl hint⟩
  · exact .inr ⟨hp, .inl (by simp [settle, hp, CellStatus.isDone])⟩

theorem drifts_push (sc : Scene σ ν) (s : CellStatus ν) (isPlain : Prop) :
    Drifts (fun _ => False) sc (sc.push s isPlain) := by
  refine ⟨rfl, Nat.le_succ _, fun c hc h => ?_, fun c hc => .inl ?_⟩
  · change Function.update sc.plain sc.size isPlain c
    rwa [Function.update_of_ne (Nat.ne_of_lt hc)]
  · exact Function.update_of_ne (Nat.ne_of_lt hc) ..

end Scene

/-- What a primitive step answers, and the scene after it. -/
def Call.Answer : (c : Call ν) → Scene σ ν → c.Reply → Scene σ ν → Prop
  | .newSignal count members, sc, reply, sc' =>
    reply = sc.size ∧
      sc' = sc.push (if count = 0 then .fired else .pending) (count ≤ 1 ∧ members = [])
  | .fire s, sc, _, sc' => sc.Drifts (· = s) sc' ∧ (sc.plain s → sc' = sc.settle s .fired)
  | .fail s f, sc, _, sc' => sc' = sc.settle s (.ended (.error f))
  | .status c, sc, reply, sc' => reply = sc.status c ∧ sc' = sc
  | .interrupt _, sc, _, sc' => sc.Drifts (fun _ => False) sc'
  | .now, sc, _, sc' | .fireAfter .., sc, _, sc' | .dropTimer _, sc, _, sc'
  | .setAlarm _, sc, _, sc' | .dropAlarm _, sc, _, sc' | .unwatch .., sc, _, sc' => sc' = sc

/-- The signal that a timer of the step is to fire. -/
def Call.timed? : Call ν → Option Nat
  | .fireAfter _ s => some s
  | _ => none

/-- The cell that a step settles, or has settled by a timer. -/
def Call.target? : Call ν → Option Nat
  | .fire s | .fail s _ | .fireAfter _ s => some s
  | _ => none

/-- A step by which someone settles known cells only is a drift. -/
theorem Call.Answer.drifts {c : Call ν} {sc sc' : Scene σ ν} {reply : c.Reply}
    {known : Nat → Prop} (h : c.Answer sc reply sc') (hc : ∀ i, c.target? = some i → known i) :
    sc.Drifts known sc' := by
  cases c with
  | now | fireAfter | dropTimer | setAlarm | dropAlarm | unwatch => exact h ▸ .refl _ _
  | status => exact h.2 ▸ .refl _ _
  | newSignal => exact h.2 ▸ (Scene.drifts_push ..).mono fun _ => False.elim
  | fire => exact h.1.mono fun i hi => hi ▸ hc _ rfl
  | fail => exact h ▸ (Scene.drifts_settle _ _ rfl).mono fun i hi => hi ▸ hc _ rfl
  | interrupt => exact h.mono fun _ => False.elim

/-- With what someone who waits may go on. -/
def Awaited.Answered : Awaited → Option Failure → Scene σ ν → Prop
  | .turn, answer, _ => answer = none ∨ answer = some .interrupted
  | .cell c, answer, sc => (sc.status c).isDone = true ∧
    (answer = Scheduler.failureOf (sc.status c) ∨ answer = some .interrupted)

namespace Scheduler

variable {k : Scheduler σ ν}

/-- The first attempt to fire the cell fires it. -/
structure Plain (cell : Cell σ ν) : Prop where
  count : cell.count ≤ 1
  members : cell.members = []
  membersInterrupted : cell.membersInterrupted = false

/-- The scene of a scheduler. -/
def scene (k : Scheduler σ ν) : Scene σ ν where
  shared := k.shared
  size := k.cells.size
  status := k.statusOf
  plain c := ∃ cell, k.cells[c]? = some cell ∧ Plain cell

theorem statusOf_eq {c : Nat} {cell : Cell σ ν} (h : k.cells[c]? = some cell) :
    k.statusOf c = cell.status := by
  simp [statusOf, h]

theorem getElem?_modifyCell (k : Scheduler σ ν) (c i : Nat) (f : Cell σ ν → Cell σ ν) :
    (k.modifyCell c f).cells[i]? = if c = i then k.cells[i]?.map f else k.cells[i]? :=
  Array.getElem?_modify

/-- A change of a cell that leaves its status and its plainness alone. -/
theorem scene_modifyCell (k : Scheduler σ ν) (c : Nat) {f : Cell σ ν → Cell σ ν}
    (hstatus : ∀ cell, (f cell).status = cell.status)
    (hplain : ∀ cell, k.cells[c]? = some cell → (Plain (f cell) ↔ Plain cell)) :
    (k.modifyCell c f).scene = k.scene := by
  ext i
  · rfl
  · exact Array.size_modify
  · change statusOf _ i = statusOf k i
    unfold statusOf
    rw [getElem?_modifyCell]
    by_cases hi : c = i
    · subst hi
      cases hc : k.cells[c]? with
      | none => simp
      | some cell => simp [hstatus]
    · simp [hi]
  · change (∃ cell, (k.modifyCell c f).cells[i]? = some cell ∧ Plain cell) ↔
      ∃ cell, k.cells[i]? = some cell ∧ Plain cell
    rw [getElem?_modifyCell]
    by_cases hi : c = i
    · subst hi
      cases hc : k.cells[c]? with
      | none => simp
      | some cell => simpa using hplain cell hc
    · simp [hi]

theorem scene_modifyTask (k : Scheduler σ ν) (t : Nat) (f : TaskState σ ν → TaskState σ ν) :
    (k.modifyTask t f).scene = k.scene :=
  k.scene_modifyCell t (fun _ => rfl) fun _ _ =>
    ⟨fun h => ⟨h.count, h.members, h.membersInterrupted⟩,
      fun h => ⟨h.count, h.members, h.membersInterrupted⟩⟩

theorem scene_settle (k : Scheduler σ ν) (c : Nat) (s : CellStatus ν) :
    (k.settle c s).scene = k.scene.settle c s := by
  have hsame : (k.statusOf c).isDone = true → k.scene = k.scene.settle c s := by
    intro hdone
    have hdone' : (k.scene.status c).isDone = true := hdone
    rw [Scene.settle, hdone', if_pos rfl, Function.update_eq_self]
  unfold settle
  split
  · rename_i cell hc
    have hstatus := statusOf_eq hc
    split
    · rename_i hdone
      exact hsame (hstatus ▸ hdone)
    · rename_i hpending
      have hpending' : (k.scene.status c).isDone = false := by
        change (k.statusOf c).isDone = false
        rw [hstatus]
        exact Bool.eq_false_iff.mpr hpending
      ext i
      · rfl
      · exact Array.size_modify
      · change statusOf (k.modifyCell c fun cell =>
          { cell with status := s, watchers := [], task := none }) i = _
        unfold statusOf
        rw [getElem?_modifyCell, Scene.settle, hpending']
        by_cases hi : c = i
        · subst hi
          simp [hc]
        · simp [hi, Ne.symm hi, scene, statusOf]
      · change (∃ cell', (k.modifyCell c fun cell =>
          { cell with status := s, watchers := [], task := none }).cells[i]? = some cell' ∧
            Plain cell') ↔ ∃ cell', k.cells[i]? = some cell' ∧ Plain cell'
        rw [getElem?_modifyCell]
        by_cases hi : c = i
        · subst hi
          rw [hc, if_pos rfl]
          constructor
          · rintro ⟨cell', heq, h⟩
            cases heq
            exact ⟨cell, rfl, h.count, h.members, h.membersInterrupted⟩
          · rintro ⟨cell', heq, h⟩
            cases heq
            exact ⟨_, rfl, h.count, h.members, h.membersInterrupted⟩
        · simp [hi]
  · rename_i hc
    exact hsame (by simp [statusOf, hc, CellStatus.isDone])

/-- A cell that is changed without anything happening to it. -/
theorem drifts_modifyCell (k : Scheduler σ ν) (c : Nat) {f : Cell σ ν → Cell σ ν}
    (hstatus : ∀ cell, (f cell).status = cell.status) (hplain : ∀ cell,
      k.cells[c]? = some cell → Plain cell → Plain (f cell)) :
    Scene.Drifts (fun _ => False) k.scene (k.modifyCell c f).scene := by
  refine ⟨rfl, Nat.le_of_eq Array.size_modify.symm, fun i _ hp => ?_, fun i _ => .inl ?_⟩
  · obtain ⟨cell, hc, h⟩ := hp
    change ∃ cell, (k.modifyCell c f).cells[i]? = some cell ∧ Plain cell
    rw [getElem?_modifyCell, hc]
    split
    · rename_i heq
      subst heq
      exact ⟨f cell, rfl, hplain cell hc h⟩
    · exact ⟨cell, rfl, h⟩
  · change statusOf _ i = statusOf k i
    unfold statusOf
    rw [getElem?_modifyCell]
    by_cases hi : c = i
    · subst hi
      cases hc : k.cells[c]? with
      | none => simp
      | some cell => simp [hstatus]
    · simp [hi]

theorem drifts_fire (k : Scheduler σ ν) (c : Nat) :
    Scene.Drifts (· = c) k.scene (k.fire c).scene := by
  unfold fire
  split
  · split
    · have h := k.drifts_modifyCell c (f := fun cell => { cell with count := cell.count - 1 })
        (fun _ => rfl) fun cell _ h =>
          ⟨Nat.le_trans (Nat.sub_le _ _) h.count, h.members, h.membersInterrupted⟩
      exact h.mono fun _ => False.elim
    · split
      · rw [scene_settle]
        exact Scene.drifts_settle _ c rfl
      · rw [scene_settle]
        exact Scene.drifts_settle _ c rfl
  · exact .refl _ _

theorem scene_fire {c : Nat} (h : k.scene.plain c) :
    (k.fire c).scene = k.scene.settle c .fired := by
  obtain ⟨cell, hc, h⟩ := h
  unfold fire
  rw [hc]
  simp only [if_neg (Nat.not_lt.mpr h.count), h.membersInterrupted, Bool.false_eq_true, if_false]
  exact k.scene_settle c .fired

theorem scene_addWatcher (k : Scheduler σ ν) (c : Nat) (w : Watcher σ ν) :
    (k.addWatcher c w).scene = k.scene := by
  unfold addWatcher
  simp only []
  split
  · rfl
  · exact scene_modifyCell _ c (fun _ => rfl) fun _ _ =>
      ⟨fun h => ⟨h.count, h.members, h.membersInterrupted⟩,
        fun h => ⟨h.count, h.members, h.membersInterrupted⟩⟩

theorem scene_addCell (k : Scheduler σ ν) (cell : Cell σ ν) :
    (k.addCell cell).2.scene = k.scene.push cell.status (Plain cell) := by
  have hcells : ∀ i, (k.addCell cell).2.cells[i]? =
      if i = k.cells.size then some cell else k.cells[i]? := fun i => Array.getElem?_push
  ext i
  · rfl
  · exact Array.size_push ..
  · change statusOf _ i = Function.update k.statusOf k.cells.size cell.status i
    unfold statusOf
    rw [hcells]
    by_cases hi : i = k.cells.size
    · subst hi
      simp
    · simp [hi]
  · change (∃ cell', (k.addCell cell).2.cells[i]? = some cell' ∧ Plain cell') ↔
      Function.update k.scene.plain k.cells.size (Plain cell) i
    rw [hcells]
    by_cases hi : i = k.cells.size
    · subst hi
      simp
    · simp [hi, scene]

theorem scene_addTask (k : Scheduler σ ν) (repeated : Bool) (body : Task σ ν) :
    (k.addTask repeated body).2.scene = k.scene.push .pending True := by
  refine (scene_addCell k _).trans (congrArg _ (propext ⟨fun _ => trivial, fun _ => ?_⟩))
  exact ⟨Nat.le_refl 1, rfl, rfl⟩

theorem scene_dropTimer (k : Scheduler σ ν) (t : Nat) : (k.dropTimer t).scene = k.scene := by
  unfold dropTimer
  split
  · split <;> rfl
  · rfl

theorem scene_setAlarm (k : Scheduler σ ν) (me : Nat) (delay : Rat) :
    (k.setAlarm me delay).2.scene = k.scene := by
  unfold setAlarm
  simp only []
  split <;> rfl

theorem scene_dropAlarm (k : Scheduler σ ν) (me a : Nat) :
    (k.dropAlarm me a).2.scene = k.scene := by
  unfold dropAlarm
  split
  · split
    · exact k.scene_modifyTask me _
    · exact k.scene_dropTimer _
  · rfl

/-- The members of the cells are as they were. -/
def SameMembers (k k' : Scheduler σ ν) : Prop :=
  ∀ i : Nat, k'.cells[i]?.map Cell.members = k.cells[i]?.map Cell.members

theorem sameMembers_modifyCell (k : Scheduler σ ν) (c : Nat) {f : Cell σ ν → Cell σ ν}
    (hf : ∀ cell, (f cell).members = cell.members) : SameMembers k (k.modifyCell c f) := by
  intro i
  rw [getElem?_modifyCell]
  split
  · cases k.cells[i]? with
    | none => rfl
    | some cell => exact congrArg some (hf cell)
  · rfl

theorem sameMembers_settle (k : Scheduler σ ν) (c : Nat) (s : CellStatus ν) :
    SameMembers k (k.settle c s) := by
  unfold settle
  split
  · split
    · exact fun _ => rfl
    · exact k.sameMembers_modifyCell c (f := fun cell =>
        { cell with status := s, watchers := [], task := none }) fun _ => rfl
  · exact fun _ => rfl

/-- **An interruption settles cells as interrupted**, and does nothing else that programs see. -/
theorem interruptCell_drifts (fuel : Nat) : ∀ (k : Scheduler σ ν) (c : Nat),
    Scene.Drifts (fun _ => False) k.scene (interruptCell fuel k c).2.scene ∧
      SameMembers k (interruptCell fuel k c).2 := by
  induction fuel with
  | zero => exact fun _ _ => ⟨.refl _ _, fun _ => rfl⟩
  | succ fuel ih =>
    intro k c
    unfold interruptCell
    split
    · exact ⟨.refl _ _, fun _ => rfl⟩
    · exact ⟨.refl _ _, fun _ => rfl⟩
    · rename_i cell hfuel hc
      cases hfuel
      split
      · exact ⟨.refl _ _, fun _ => rfl⟩
      · split
        · rename_i task _
          let asked := k.modifyTask c fun s => { s with requests := s.requests + 1 }
          have hasked : asked.scene = k.scene := k.scene_modifyTask c _
          have hmembers : SameMembers k asked := k.sameMembers_modifyCell c fun _ => rfl
          -- what comes of passing the interruption on, and the note that it is due if that fails
          have hdue : ∀ k' : Scheduler σ ν, Scene.Drifts (fun _ => False) k.scene k'.scene ∧
              SameMembers k k' → Scene.Drifts (fun _ => False) k.scene
                (k'.modifyTask c fun s => { s with interruptDue := true }).scene ∧
              SameMembers k (k'.modifyTask c fun s => { s with interruptDue := true }) := by
            intro k' h
            rw [scene_modifyTask]
            have hsame : SameMembers k' (k'.modifyTask c fun s => { s with interruptDue := true }) :=
              k'.sameMembers_modifyCell c fun _ => rfl
            exact ⟨h.1, fun i => (hsame i).trans (h.2 i)⟩
          cases hw : task.waitingFor with
          | none => exact hdue asked ⟨hasked ▸ .refl _ _, hmembers⟩
          | some w =>
            obtain ⟨hdrift, hsame⟩ := ih asked w
            rw [hasked] at hdrift
            have hpassed : SameMembers k (interruptCell fuel asked w).2 :=
              fun i => (hsame i).trans (hmembers i)
            simp only []
            split
            · exact ⟨hdrift, hpassed⟩
            · exact hdue _ ⟨hdrift, hpassed⟩
        · split
          · rw [scene_settle]
            exact ⟨Scene.drifts_settle_interrupted _ c, k.sameMembers_settle c _⟩
          · rename_i hnonempty
            have hfold : ∀ (ms : List Nat) (any : Bool) (k' : Scheduler σ ν),
                Scene.Drifts (fun _ => False) k.scene k'.scene ∧ SameMembers k k' →
                Scene.Drifts (fun _ => False) k.scene
                  (ms.foldl (fun (acc : Bool × Scheduler σ ν) m =>
                    (acc.1 || (interruptCell fuel acc.2 m).1,
                      (interruptCell fuel acc.2 m).2)) (any, k')).2.scene ∧
                SameMembers k (ms.foldl (fun (acc : Bool × Scheduler σ ν) m =>
                    (acc.1 || (interruptCell fuel acc.2 m).1,
                      (interruptCell fuel acc.2 m).2)) (any, k')).2 := by
              intro ms
              induction ms with
              | nil => exact fun _ _ h => h
              | cons m ms ihm =>
                intro any k' h
                obtain ⟨hdrift, hsame⟩ := ih k' m
                exact ihm _ _ ⟨h.1.trans hdrift, fun i => (hsame i).trans (h.2 i)⟩
            obtain ⟨hdrift, hsame⟩ := hfold cell.members false k ⟨.refl _ _, fun _ => rfl⟩
            refine ⟨hdrift.trans (drifts_modifyCell _ c (fun _ => rfl) fun cell' hc' h => ?_),
              fun i => Eq.trans (sameMembers_modifyCell _ c (f := fun cell =>
                { cell with membersInterrupted := cell.membersInterrupted || _ })
                (fun _ => rfl) i) (hsame i)⟩
            -- a cell with members is not plain
            have heq := hsame c
            rw [hc', hc] at heq
            rw [← Option.some.inj heq, h.members] at hnonempty
            exact absurd rfl hnonempty

theorem drifts_interrupt (k : Scheduler σ ν) (t : Nat) :
    Scene.Drifts (fun _ => False) k.scene (k.interrupt t).scene :=
  (interruptCell_drifts _ k t).1

/-- **Primitive steps answer as the scene says.** -/
theorem answer_perform (k : Scheduler σ ν) (me : Nat) (c : Call ν) :
    c.Answer k.scene (k.perform me c).1 (k.perform me c).2.scene := by
  cases c with
  | now => exact rfl
  | newSignal count members =>
    refine ⟨rfl, (k.scene_addCell _).trans (congrArg _ (propext ?_))⟩
    exact ⟨fun h => ⟨h.count, h.members⟩, fun h => ⟨h.1, h.2, rfl⟩⟩
  | fire signal => exact ⟨k.drifts_fire signal, fun h => scene_fire h⟩
  | fail signal f => exact k.scene_settle signal _
  | status cell => exact ⟨rfl, rfl⟩
  | fireAfter delay signal => exact rfl
  | dropTimer timer => exact k.scene_dropTimer timer
  | setAlarm delay => exact k.scene_setAlarm me delay
  | dropAlarm alarm => exact k.scene_dropAlarm me alarm
  | interrupt task => exact k.drifts_interrupt task
  | unwatch cell watch =>
    exact k.scene_modifyCell cell (fun _ => rfl) fun _ _ =>
      ⟨fun h => ⟨h.count, h.members, h.membersInterrupted⟩,
        fun h => ⟨h.count, h.members, h.membersInterrupted⟩⟩

/-! ### Turns and rounds -/

theorem scene_awaitTurn (k : Scheduler σ ν) (me : Nat) (next : Option Failure → Task σ ν) :
    (k.awaitTurn me next).scene = k.scene :=
  k.scene_modifyTask me _

theorem drifts_awaitCell (k : Scheduler σ ν) (me c : Nat) (next : Option Failure → Task σ ν) :
    Scene.Drifts (fun _ => False) k.scene (k.awaitCell me c next).scene := by
  have h := (k.modifyTask me fun s => { s with next, waitingFor := some c }).scene_addWatcher c
    (.resume me)
  rw [scene_modifyTask] at h
  unfold awaitCell
  simp only []
  split
  · have hdrift := (interruptCell_drifts
      (((k.modifyTask me fun s => { s with next, waitingFor := some c }).addWatcher c
        (.resume me)).cells.size + 1)
      ((k.modifyTask me fun s => { s with next, waitingFor := some c }).addWatcher c
        (.resume me)) c).1
    rw [h] at hdrift
    split
    · rw [scene_modifyTask]
      exact hdrift
    · exact hdrift
  · rw [h]
    exact .refl _ _

theorem drifts_finish (k : Scheduler σ ν) (me : Nat) (r : Ending ν) :
    Scene.Drifts (fun c => c = me ∧ (k.task? me).isSome) k.scene (k.finish me r).2.scene := by
  unfold finish
  split
  · rename_i ts hts
    have hsettle : ∀ s : CellStatus ν, s.isDone = true →
        Scene.Drifts (fun c => c = me ∧ (k.task? me).isSome) k.scene (k.settle me s).scene := by
      intro s hs
      rw [scene_settle]
      exact (Scene.drifts_settle _ me hs).mono fun c hc => ⟨hc, by simp [hts]⟩
    split
    · exact hsettle _ rfl
    · split
      · exact .refl _ _
      · exact hsettle _ rfl
  · exact .refl _ _

/-- What a timer does settles its own signal. -/
theorem drifts_ring (k : Scheduler σ ν) (t : Nat) :
    Scene.Drifts (fun c => k.timers[t]?.map (·.action) = some (.fire c)) k.scene
      (k.ring t).scene := by
  unfold ring
  split
  · rename_i timer ht
    split
    · exact .refl _ _
    · split
      · rename_i s haction
        refine (k.drifts_fire s).mono fun c hc => ?_
        rw [ht, hc, ← haction]
        rfl
      · split
        · rename_i alarm _
          exact (k.drifts_interrupt alarm.task).mono fun _ => False.elim
        · exact .refl _ _
  · exact .refl _ _

theorem scene_skipDropped (fuel : Nat) : ∀ k : Scheduler σ ν,
    (skipDropped fuel k).scene = k.scene := by
  induction fuel with
  | zero => exact fun _ => rfl
  | succ fuel ih =>
    intro k
    unfold skipDropped
    split
    · split
      · exact ih _
      · rfl
    · rfl

theorem scene_release (limit : Rat) (fuel : Nat) : ∀ k : Scheduler σ ν,
    (release limit fuel k).scene = k.scene := by
  induction fuel with
  | zero => exact fun _ => rfl
  | succ fuel ih =>
    intro k
    unfold release
    split
    · split
      · exact ih _
      · rfl
    · rfl

theorem scene_tidy (k : Scheduler σ ν) : k.tidy.scene = k.scene := by
  have hfold : ∀ (xs : List (Rat × Nat)) (k : Scheduler σ ν),
      (xs.foldl (fun k x => k.unqueue x.2) k).scene = k.scene := by
    intro xs
    induction xs with
    | nil => exact fun _ => rfl
    | cons x xs ih => exact fun k => ih (k.unqueue x.2)
  unfold tidy
  split
  · have h := hfold (k.queue.filter fun x => k.isDropped x.2).toList k
    rwa [Array.foldl_toList] at h
  · exact k.scene_skipDropped _

/-- Between rounds nothing happens that programs see, apart from the time. -/
theorem scene_collect (k : Scheduler σ ν) : k.collect.scene = k.scene := by
  have hadvance : k.tidy.advance.scene = k.tidy.scene := by
    unfold advance
    split <;> rfl
  exact (scene_release _ _ _).trans (hadvance.trans k.scene_tidy)

end Scheduler

end ChatCommands.Concurrency
