import ChatCommands.Proofs.Concurrency.Commons
import ChatCommands.Proofs.Concurrency.Programs
import ChatCommands.Proofs.Concurrency.Reachable
import ChatCommands.Proofs.Concurrency.Wakers
import Mathlib.Algebra.BigOperators.Group.Finset.Basic
import Mathlib.Algebra.Order.Group.Multiset

/-!
What a commons says holds in every state that a scheduler reaches.

Each task has stakes in its custody while it waits, and the one that has its turn has its own at hand.
If every task that arrives tends the commons, then so does every program that ever comes to be, with
the stakes of the task to which it belongs; and what the commons says holds of the scene and of all
stakes between any two turns.  Main statement: `Reachable.commons`.
-/

namespace ChatCommands.Concurrency

variable {σ ν κ : Type} {C : Commons σ ν κ}

namespace Commons

/-! ### Stakes -/

/-- The stakes of all tasks that wait. -/
def held (own : Nat → Multiset κ) (n : Nat) : Multiset κ := ∑ t ∈ Finset.range n, own t

variable {own : Nat → Multiset κ} {n t : Nat}

theorem held_take (ht : t < n) : held own n = own t + held (Function.update own t 0) n := by
  have hmem : t ∈ Finset.range n := Finset.mem_range.mpr ht
  have hothers : ∑ i ∈ (Finset.range n).erase t, Function.update own t 0 i =
      ∑ i ∈ (Finset.range n).erase t, own i :=
    Finset.sum_congr rfl fun i hi => Function.update_of_ne (Finset.ne_of_mem_erase hi) ..
  rw [held, held, ← Finset.add_sum_erase _ own hmem, ← Finset.add_sum_erase _ _ hmem, hothers,
    Function.update_self, zero_add]

theorem held_give (ht : t < n) (hnone : own t = 0) (a : Multiset κ) :
    held (Function.update own t a) n = a + held own n := by
  have hback : Function.update (Function.update own t a) t 0 = own := by
    rw [Function.update_idem, ← hnone, Function.update_eq_self]
  rw [held_take ht, Function.update_self, hback]

theorem held_new (hnone : own n = 0) (a : Multiset κ) :
    held (Function.update own n a) (n + 1) = a + held own n := by
  have hheld : held own (n + 1) = held own n := by
    rw [held, Finset.sum_range_succ, hnone, add_zero, held]
  rw [held_give (Nat.lt_succ_self n) hnone, hheld]

theorem held_of_unborn {n' : Nat} (hle : n ≤ n') (h : ∀ t, n ≤ t → own t = 0) :
    held own n' = held own n := by
  induction hle with
  | refl => rfl
  | step hle ih => rw [held, Finset.sum_range_succ, h _ hle, add_zero, ← held, ih]

/-! ### Programs -/

/-- What a task waits for, by the cell if there is one. -/
def awaited : Option Nat → Awaited
  | none => .turn
  | some c => .cell c

/-- A program that will go on when it has been answered tends the commons from then on. -/
def Poised (C : Commons σ ν κ) (a : Multiset κ) (what : Awaited) (sc : Scene σ ν) (g : Multiset κ)
    (program : Option Failure → Task σ ν) : Prop :=
  ∀ answer x, C.holds x.scene x.total → x.own = a → C.Later sc g x.scene x.total →
    what.Answered answer x.scene → (program answer).Tends C C.Ended x

/-- A program that will be run without stakes tends the commons from then on. -/
def Unstaked (C : Commons σ ν κ) (sc : Scene σ ν) (g : Multiset κ) (body : Task σ ν) : Prop :=
  ∀ x, C.holds x.scene x.total → x.own = 0 → C.Later sc g x.scene x.total → body.Tends C C.Ended x

/-- The programs that tend the commons, if the tasks have these stakes and wait for these cells. -/
def programs (C : Commons σ ν κ) (own : Nat → Multiset κ) (waits : Nat → Option Nat)
    (sc : Scene σ ν) (g : Multiset κ) : Programs σ ν where
  next t := Poised C (own t) (awaited (waits t)) sc g
  again _ := Unstaked C sc g
  reaction program := (∀ status, (program status).Prompt) ∧ ∀ status, Unstaked C sc g (program status)

theorem Poised.mono {a : Multiset κ} {what : Awaited} {sc sc' : Scene σ ν} {g g' : Multiset κ}
    {program : Option Failure → Task σ ν} (hl : C.Later sc g sc' g')
    (h : Poised C a what sc g program) : Poised C a what sc' g' program :=
  fun answer x hh hown hl' => h answer x hh hown (hl.trans hl')

theorem Unstaked.mono {sc sc' : Scene σ ν} {g g' : Multiset κ} {body : Task σ ν}
    (hl : C.Later sc g sc' g') (h : Unstaked C sc g body) : Unstaked C sc' g' body :=
  fun x hh hown hl' => h x hh hown (hl.trans hl')

/-- What a task begins with: it can be interrupted before. -/
theorem poised_first {a : Multiset κ} {sc : Scene σ ν} {g : Multiset κ} {body : Task σ ν}
    (hfewer : ∀ sc g, C.holds sc (a + g) → C.holds sc g)
    (h : ∀ x, C.holds x.scene x.total → x.own = a → C.Later sc g x.scene x.total →
      body.Tends C C.Ended x) : Poised C a .turn sc g fun
      | none => body
      | some f => .finish (.error f) := by
  intro answer x hh hown hl _
  cases answer with
  | none => exact h x hh hown hl
  | some f =>
    subst hown
    exact hfewer _ _ hh

/-! ### Schedulers -/

end Commons

namespace Scheduler

open Commons

/-- The stakes of the tasks of a scheduler, without the one that has its turn. -/
def stakes (own : Nat → Multiset κ) (k : Scheduler σ ν) : Multiset κ := held own k.cells.size

/-- All programs tend the commons, where the busy task, of which nothing else is said, has the stakes
`a`; the jobs of `rest` are still to be done. -/
structure Tended (C : Commons σ ν κ) (own : Nat → Multiset κ) (waits : Nat → Option Nat)
    (busy : Option Nat) (rest : List (Job σ ν)) (a : Multiset κ) (k : Scheduler σ ν) : Prop where
  orderly : Orderly waits busy rest k
  programs : Holds ((C.programs own waits k.scene (a + k.stakes own)).except busy) k.shared k
  jobs : ∀ j ∈ rest, (C.programs own waits k.scene (a + k.stakes own)).JobOk j
  timed : ∀ s, k.Timed s → C.loose k.cells.size (a + k.stakes own) s
  live : ∀ t, k.Live t → C.loose k.cells.size (a + k.stakes own) t
  unborn : ∀ t, k.cells.size ≤ t → own t = 0
  spent : ∀ t, busy = some t → own t = 0

variable {own : Nat → Multiset κ} {waits : Nat → Option Nat} {busy : Option Nat}
  {rest : List (Job σ ν)} {a : Multiset κ} {k k' : Scheduler σ ν} {me : Nat}

theorem jobOk_imp {P P' : Programs σ ν} (h : ∀ program, P.reaction program → P'.reaction program)
    {j : Job σ ν} (hj : P.JobOk j) : P'.JobOk j := by
  cases j with
  | run c program => exact h program hj
  | turn t wokenBy => trivial
  | timer t => trivial

/-- What an operation leads to, if the programs then are those that there were or that tend the
commons from then on. -/
theorem Tended.of {own' : Nat → Multiset κ} {waits' : Nat → Option Nat} {busy' : Option Nat}
    {a' : Multiset κ} (h : Tended C own waits busy rest a k) (horder : Orderly waits' busy' rest k')
    (hop : Holds ((C.programs own' waits' k.scene (a + k.stakes own)).except busy') k'.shared k')
    (hl : C.Later k.scene (a + k.stakes own) k'.scene (a' + k'.stakes own'))
    (hlive : ∀ t, k'.Live t → k.Live t ∨ C.loose k'.cells.size (a' + k'.stakes own') t)
    (htimed : ∀ s, k'.Timed s → k.Timed s ∨ C.loose k'.cells.size (a' + k'.stakes own') s)
    (hunborn : ∀ t, k'.cells.size ≤ t → own' t = 0) (hspent : ∀ t, busy' = some t → own' t = 0) :
    Tended C own' waits' busy' rest a' k' := by
  have hmono : ∀ program, (C.programs own' waits' k.scene (a + k.stakes own)).reaction program →
      (C.programs own' waits' k'.scene (a' + k'.stakes own')).reaction program := fun program hr =>
    ⟨hr.1, fun status => (hr.2 status).mono hl⟩
  refine ⟨horder, ?_, fun j hj => jobOk_imp hmono (h.jobs j hj), fun s hs => ?_, fun t ht => ?_,
    hunborn, hspent⟩
  · exact hop.imp (fun t _ program hn => hn.imp_right fun hn => Commons.Poised.mono hl hn)
      (fun t _ body ha => Unstaked.mono hl ha) hmono
  · exact (htimed s hs).elim (fun hs => hl.loose s (h.timed s hs)) id
  · exact (hlive t ht).elim (fun ht => hl.loose t (h.live t ht)) id

/-- **An operation that makes up no program**, after which the stakes at hand may be others. -/
theorem Tended.step {a' : Multiset κ} (h : Tended C own waits busy rest a k)
    (horder : KeepsOrder k k')
    (hop : ∀ P : Programs σ ν, Holds P k.shared k → Holds P k'.shared k')
    (hl : C.Later k.scene (a + k.stakes own) k'.scene (a' + k.stakes own)) :
    Tended C own waits busy rest a' k' ∧ k'.stakes own = k.stakes own := by
  have hstakes : k'.stakes own = k.stakes own := held_of_unborn hl.size h.unborn
  refine ⟨h.of (horder.order _ _ _ h.orderly) (hop _ h.programs) (hstakes.symm ▸ hl)
    (fun t ht => .inl (horder.live t ht)) (fun s hs => .inl (horder.timed s hs))
    (fun t ht => h.unborn t (Nat.le_trans hl.size ht)) h.spent, hstakes⟩

/-- The stakes at hand are others. -/
theorem Tended.exchange {a' : Multiset κ} (h : Tended C own waits busy rest a k)
    (hloose : ∀ c, C.loose k.cells.size (a + k.stakes own) c →
      C.loose k.cells.size (a' + k.stakes own) c) : Tended C own waits busy rest a' k :=
  (h.step (.refl k) (fun _ h => h) ⟨Nat.le_refl _, fun _ _ h => h, fun _ _ _ => rfl, hloose⟩).1

/-- No task has its turn, all programs tend the commons, and it is in order. -/
def InOrder (C : Commons σ ν κ) (rest : List (Job σ ν)) (k : Scheduler σ ν) : Prop :=
  ∃ own waits, Tended C own waits none rest 0 k ∧ C.holds k.scene (k.stakes own)

/-- What the program of `me` has come to: it waits, or has ended, or is to start over. -/
structure Led (C : Commons σ ν κ) (busy : Option Nat) (rest : List (Job σ ν)) (me : Nat)
    (result : Option (Task σ ν) × Scheduler σ ν) : Prop where
  ended : result.1 = none → InOrder C rest result.2
  again : ∀ body, result.1 = some body → busy = some me ∧ me < result.2.cells.size ∧
    ∃ own waits, Tended C own waits busy rest 0 result.2 ∧
      C.holds result.2.scene (result.2.stakes own) ∧
      Unstaked C result.2.scene (result.2.stakes own) body

/-- One whose program is run is the busy task, or no task, and then the program is prompt. -/
def Acts (busy : Option Nat) (me : Nat) (t : Task σ ν) (k : Scheduler σ ν) : Prop :=
  busy = some me ∧ me < k.cells.size ∨ busy = none ∧ ¬ k.Live me ∧ t.Prompt

theorem led_finish (hC : C.Lawful) (h : Tended C own waits busy rest a k)
    (hme : busy = some me ∧ me < k.cells.size ∨ busy = none ∧ ¬ k.Live me) (r : Ending ν)
    (hholds : C.holds k.scene (k.stakes own)) : Led C busy rest me (k.finish me r) := by
  have hzero : Tended C own waits busy rest 0 k := h.exchange fun c hc => by
    rw [zero_add]
    exact hC.fewer hc
  have hbusy : ∀ c, busy = some c → c = me := by
    rintro c rfl
    rcases hme with ⟨heq, -⟩ | ⟨heq, -⟩
    · exact Option.some.inj heq
    · cases heq
  obtain ⟨hagain, hover⟩ := hzero.programs.finish hbusy r
  have horder := k.keepsOrder_finish me r
  have hdrift : k.scene.Drifts (C.loose k.cells.size (k.stakes own)) (k.finish me r).2.scene := by
    refine (k.drifts_finish me r).mono ?_
    rintro c ⟨rfl, hlive⟩
    have hloose := hzero.live c hlive
    rwa [zero_add] at hloose
  have hl := hC.later hdrift (0 + k.stakes own)
  have hstakes : (k.finish me r).2.stakes own = k.stakes own := held_of_unborn hl.size h.unborn
  have hunborn : ∀ t, (k.finish me r).2.cells.size ≤ t → own t = 0 := fun t ht =>
    h.unborn t (Nat.le_trans hl.size ht)
  have hafter : ∀ busy', (∀ t, busy' = some t → own t = 0) →
      Orderly waits busy' rest (k.finish me r).2 →
      Holds ((C.programs own waits k.scene (0 + k.stakes own)).except busy') k.shared
        (k.finish me r).2 → Tended C own waits busy' rest 0 (k.finish me r).2 := by
    intro busy' hspent horder' hop
    refine hzero.of horder' (hop.shared.symm ▸ hop) ?_ (fun t ht => .inl (horder.live t ht))
      (fun s hs => .inl (horder.timed s hs)) hunborn hspent
    rwa [hstakes]
  have hholds' : C.holds (k.finish me r).2.scene ((k.finish me r).2.stakes own) := by
    rw [hstakes]
    exact hC.drift hholds hdrift
  refine ⟨fun hnone => ⟨own, waits, hafter none nofun (horder.order _ _ _ h.orderly).idle
    ((hover hnone).except none), hholds'⟩, fun body hbody => ?_⟩
  obtain ⟨hop, hbody'⟩ := hagain body hbody
  rcases hme with ⟨hb, hlt⟩ | ⟨-, hlive⟩
  · refine ⟨hb, Nat.lt_of_lt_of_le hlt hl.size, own, waits,
      hafter busy h.spent (horder.order _ _ _ h.orderly) hop, hholds', ?_⟩
    have hmono := Unstaked.mono hl hbody'
    rwa [zero_add, ← hstakes] at hmono
  · -- one that is no task does not start over
    have hnone : k.task? me = none := by
      cases hts : k.task? me with
      | none => rfl
      | some ts => exact absurd (by simp [Live, hts]) hlive
    unfold finish at hbody
    rw [hnone] at hbody
    cases hbody

/-- A primitive step; a signal that is given a timer must be loose. -/
theorem Tended.perform (h : Tended C own waits busy rest a k) (hC : C.Lawful) (me : Nat)
    {c : Call ν} (htimed : ∀ s, c.timed? = some s → C.loose k.cells.size (a + k.stakes own) s) :
    Tended C own waits busy rest a (k.perform me c).2 ∧
      (k.perform me c).2.stakes own = k.stakes own := by
  have hdrift : k.scene.Drifts (fun _ => True) (k.perform me c).2.scene :=
    (k.answer_perform me c).drifts fun _ _ => trivial
  cases hc : c.timed? with
  | none =>
    exact h.step (k.keepsOrder_perform me hc)
      (fun P hp => (hp.perform me c).shared.symm ▸ hp.perform me c) (hC.later hdrift _)
  | some s =>
    cases c with
    | fireAfter delay s' =>
      cases hc
      refine ⟨h.of ?_ ⟨rfl, h.programs.cells, h.programs.ready⟩ .refl (fun t ht => .inl ht)
        (fun i hi => ?_) h.unborn h.spent, rfl⟩
      · exact ⟨h.orderly.quiet, h.orderly.watched, h.orderly.once, h.orderly.woken,
          h.orderly.single⟩
      · rcases timed_push rfl hi with hi | hi
        · exact .inl hi
        · cases hi
          exact .inr (htimed s rfl)
    | _ => cases hc

/-- A task is started with some of the stakes at hand. -/
theorem Tended.spawn {given kept : Multiset κ} (h : Tended C own waits busy rest (given + kept) k)
    (hC : C.Lawful) (hme : ∀ me, busy = some me → me < k.cells.size) (repeated : Bool)
    {body : Task σ ν} (hrepeated : repeated = true → given = 0)
    (hfewer : ∀ sc g, C.holds sc (given + g) → C.holds sc g)
    (hloose : C.loose (k.cells.size + 1) (given + kept + k.stakes own) k.cells.size)
    (hbody : ∀ x, C.holds x.scene x.total → x.own = given →
      C.Later k.scene (given + kept + k.stakes own) x.scene x.total → body.Tends C C.Ended x) :
    Tended C (Function.update own k.cells.size given) (Function.update waits k.cells.size none) busy
        rest kept (k.addTask repeated body).2 ∧
      (k.addTask repeated body).2.stakes (Function.update own k.cells.size given) =
        given + k.stakes own := by
  have hscene := k.scene_addTask repeated body
  have hsize : (k.addTask repeated body).2.cells.size = k.cells.size + 1 :=
    congrArg Scene.size hscene
  have hstakes : (k.addTask repeated body).2.stakes (Function.update own k.cells.size given) =
      given + k.stakes own := by
    rw [stakes, hsize]
    exact held_new (h.unborn _ (Nat.le_refl _)) given
  have htotal : kept + (given + k.stakes own) = given + kept + k.stakes own := by
    rw [← add_assoc, add_comm kept given]
  have hl : C.Later k.scene (given + kept + k.stakes own) (k.addTask repeated body).2.scene
      (kept + (k.addTask repeated body).2.stakes (Function.update own k.cells.size given)) := by
    rw [hscene, hstakes, htotal]
    exact hC.later (Scene.drifts_push _ _ _) _
  have hprograms : Holds ((C.programs (Function.update own k.cells.size given)
      (Function.update waits k.cells.size none) k.scene (given + kept + k.stakes own)).except busy)
      k.shared k := by
    refine h.programs.imp (fun t ht program hn => hn.imp_right fun hn => ?_) (fun _ _ _ ha => ha)
      fun _ hr => hr
    change Poised C (Function.update own k.cells.size given t)
      (awaited (Function.update waits k.cells.size none t)) _ _ program
    rw [Function.update_of_ne (Nat.ne_of_lt ht), Function.update_of_ne (Nat.ne_of_lt ht)]
    exact hn
  refine ⟨h.of (h.orderly.addTask hme repeated body) ?_ hl (fun t ht => ?_) (fun s hs => .inl hs)
    (fun t ht => ?_) fun t ht => ?_, hstakes⟩
  · refine hprograms.addTask repeated (.inr ?_) fun hrep x hh hown hl => ?_
    · change Poised C (Function.update own k.cells.size given k.cells.size)
        (awaited (Function.update waits k.cells.size none k.cells.size)) _ _ _
      rw [Function.update_self, Function.update_self]
      exact poised_first hfewer hbody
    · exact hbody x hh (hown.trans (hrepeated hrep).symm) hl
  · obtain ⟨cell, hc, htask⟩ := live_iff.mp ht
    change (k.cells.push _)[t]? = some cell at hc
    rw [Array.getElem?_push] at hc
    split at hc
    · rename_i heq
      rw [hsize, hstakes, htotal, heq]
      exact .inr hloose
    · exact .inl (live_iff.mpr ⟨cell, hc, htask⟩)
  · rw [hsize] at ht
    rw [Function.update_of_ne (Nat.ne_of_gt ht)]
    exact h.unborn t (Nat.le_of_succ_le ht)
  · rw [Function.update_of_ne (Nat.ne_of_lt (hme t ht))]
    exact h.spent t ht

/-- The task that had its turn waits, with the stakes at hand. -/
theorem Tended.wait (h : Tended C own waits (some me) rest a k) (hme : me < k.cells.size)
    (hC : C.Lawful) (x : Option Nat) {next : Option Failure → Task σ ν}
    (hnext : Poised C a (awaited x) k.scene (a + k.stakes own) next)
    (horder : Orderly (Function.update waits me x) none rest k')
    (hop : ∀ P : Programs σ ν, Holds (P.except (some me)) k.shared k → P.next me next →
      Holds P k.shared k')
    (hdrift : k.scene.Drifts (fun _ => False) k'.scene) (hlive : ∀ t, k'.Live t → k.Live t)
    (htimed : ∀ s, k'.Timed s → k.Timed s) (hholds : C.holds k.scene (a + k.stakes own)) :
    InOrder C rest k' := by
  have hgive : ∀ n, me < n → held (Function.update own me a) n = a + held own n := fun n hn =>
    held_give hn (h.spent me rfl) a
  have hsize : k.cells.size ≤ k'.cells.size := hdrift.size
  have hstakes : k'.stakes (Function.update own me a) = a + k.stakes own := by
    rw [stakes, hgive _ (Nat.lt_of_lt_of_le hme hsize), held_of_unborn hsize h.unborn]
    rfl
  have hl : C.Later k.scene (a + k.stakes own) k'.scene
      (0 + k'.stakes (Function.update own me a)) := by
    rw [zero_add, hstakes]
    exact hC.later hdrift _
  have hprograms : Holds ((C.programs (Function.update own me a) (Function.update waits me x)
      k.scene (a + k.stakes own)).except (some me)) k.shared k := by
    refine h.programs.imp (fun t _ program hn => ?_) (fun _ _ _ ha => ha) fun _ hr => hr
    rcases hn with hn | hn
    · exact .inl hn
    · by_cases ht : t = me
      · exact .inl (congrArg some ht.symm)
      · right
        change Poised C (Function.update own me a t) (awaited (Function.update waits me x t)) _ _ program
        rw [Function.update_of_ne ht, Function.update_of_ne ht]
        exact hn
  have hself : (C.programs (Function.update own me a) (Function.update waits me x) k.scene
      (a + k.stakes own)).next me next := by
    change Poised C (Function.update own me a me) (awaited (Function.update waits me x me)) _ _ next
    rw [Function.update_self, Function.update_self]
    exact hnext
  have hafter := hop _ hprograms hself
  refine ⟨Function.update own me a, Function.update waits me x, h.of horder
    (hafter.shared.symm ▸ hafter.except none) hl (fun t ht => .inl (hlive t ht))
    (fun s hs => .inl (htimed s hs)) (fun t ht => ?_) nofun, ?_⟩
  · have hlt : me < t := Nat.lt_of_lt_of_le hme (Nat.le_trans hsize ht)
    rw [Function.update_of_ne (Nat.ne_of_gt hlt)]
    exact h.unborn t (Nat.le_trans hsize ht)
  · rw [hstakes]
    exact hC.drift hholds (hdrift.mono fun _ => False.elim)

theorem Tended.awaitTurn (h : Tended C own waits (some me) rest a k) (hme : me < k.cells.size)
    (hC : C.Lawful) {next : Option Failure → Task σ ν}
    (hnext : Poised C a .turn k.scene (a + k.stakes own) next)
    (hholds : C.holds k.scene (a + k.stakes own)) : InOrder C rest (k.awaitTurn me next) := by
  have horder := k.keepsOrder_modifyTask me fun s => { s with next, waitingFor := none }
  have hscene := k.scene_awaitTurn me next
  exact h.wait hme hC none hnext (h.orderly.awaitTurn hme next) (fun P hp hn => hp.awaitTurn hn)
    (hscene ▸ .refl _ _) horder.live horder.timed hholds

/-- **A program that tends the commons** leaves it in order, and so do the programs that it leaves
behind. -/
theorem exec_led (hC : C.Lawful) (me : Nat) (busy : Option Nat) (t : Task σ ν) :
    ∀ (k : Scheduler σ ν) (own : Nat → Multiset κ) (waits : Nat → Option Nat) (a : Multiset κ),
      Tended C own waits busy rest a k → Acts busy me t k →
      t.Tends C C.Ended ⟨k.scene, a, k.stakes own⟩ → Led C busy rest me (exec me t k) := by
  induction t with
  | finish r =>
    exact fun k own waits a h hme ht =>
      led_finish hC h (hme.imp_right fun hme => ⟨hme.1, hme.2.1⟩) r ht
  | look next ih =>
    exact fun k own waits a h hme ht =>
      ih k.shared k own waits a h (hme.imp_right fun hme => ⟨hme.1, hme.2.1, hme.2.2 _⟩) ht
  | put s next ih =>
    intro k own waits a h hme ht
    obtain ⟨a', hloose, hnext⟩ := ht
    have horder : KeepsOrder k { k with shared := s } :=
      keepsOrder_of_cells rfl rfl fun _ h => h
    have hput := (h.exchange hloose).step horder (fun P hp => hp.put s)
      ⟨Nat.le_refl _, fun _ _ h => h, fun _ _ _ => rfl, fun _ h => h⟩
    exact ih _ own waits a' hput.1 hme hnext
  | call c next ih =>
    intro k own waits a h hme ht
    obtain ⟨a', hloose, htimed, hnext⟩ := ht
    have hafter := (h.exchange hloose).perform hC me htimed
    have hanswer := k.answer_perform me c
    have hdrift : k.scene.Drifts (fun _ => True) (k.perform me c).2.scene :=
      hanswer.drifts fun _ _ => trivial
    have hsize : k.cells.size ≤ (k.perform me c).2.cells.size := hdrift.size
    refine ih (k.perform me c).1 (k.perform me c).2 own waits a' hafter.1 ?_
      (hafter.2.symm ▸ hnext _ _ hanswer)
    exact hme.imp (fun hme => ⟨hme.1, Nat.lt_of_lt_of_le hme.2 hsize⟩)
      fun hme => ⟨hme.1, fun hl => hme.2.1 (k.live_perform me c me hl), hme.2.2 _⟩
  | spawn repeated body next _ ih =>
    intro k own waits a h hme ht
    obtain ⟨given, kept, heq, hrepeated, hfewer, hloose, hbody, hnext⟩ := ht
    obtain rfl : a = given + kept := heq
    rcases hme with ⟨rfl, hlt⟩ | ⟨-, -, hprompt⟩
    · have hspawn := h.spawn hC (fun i hi => Option.some.inj hi ▸ hlt) repeated hrepeated hfewer
        hloose hbody
      have hnext' : (next (k.addTask repeated body).1).Tends C C.Ended
          ⟨(k.addTask repeated body).2.scene, kept,
            (k.addTask repeated body).2.stakes (Function.update own k.cells.size given)⟩ := by
        rw [hspawn.2, scene_addTask]
        exact hnext
      refine ih (k.addTask repeated body).1 (k.addTask repeated body).2 _ _ kept hspawn.1
        (.inl ⟨rfl, ?_⟩) hnext'
      exact Nat.lt_of_lt_of_eq (Nat.lt_succ_of_lt hlt) (Array.size_push ..).symm
    · cases hprompt
  | watch c reaction next _ ih =>
    intro k own waits a h hme ht
    obtain ⟨hprompt, hreaction, hnext⟩ := ht
    rcases hme with ⟨rfl, hlt⟩ | ⟨-, -, hprompt⟩
    · have hscene := k.scene_addWatcher c (.run reaction)
      have hop : Holds ((C.programs own waits k.scene (a + k.stakes own)).except (some me)) k.shared
          (k.addWatcher c (.run reaction)) :=
        h.programs.addWatcher c ⟨hprompt, fun status => hreaction status⟩
      have horder := k.keepsOrder_addReaction c reaction
      have hsize : (k.addWatcher c (.run reaction)).cells.size = k.cells.size :=
        congrArg Scene.size hscene
      have hstakes : (k.addWatcher c (.run reaction)).stakes own = k.stakes own := by
        rw [stakes, hsize]
        rfl
      have hafter := h.of (horder.order _ _ _ h.orderly) (hop.shared.symm ▸ hop)
        (by rw [hscene, hstakes]; exact .refl) (fun t ht => .inl (horder.live t ht))
        (fun s hs => .inl (horder.timed s hs)) (fun t ht => h.unborn t (hsize ▸ ht)) h.spent
      refine ih _ _ own waits a hafter (.inl ⟨rfl, hsize ▸ hlt⟩) ?_
      rw [hscene, hstakes]
      exact hnext _
    · cases hprompt
  | wait what next ih =>
    intro k own waits a h hme ht
    obtain ⟨hholds, hnext⟩ := ht
    rcases hme with ⟨rfl, hlt⟩ | ⟨-, -, hprompt⟩
    · have hover : ∀ k' : Scheduler σ ν, InOrder C rest k' → Led C (some me) rest me (none, k') :=
        fun _ h => ⟨fun _ => h, nofun⟩
      cases what with
      | turn => exact hover _ (h.awaitTurn hlt hC hnext hholds)
      | cell c =>
        unfold exec
        split
        · rename_i hdone
          exact ih _ k own waits a h (.inl ⟨rfl, hlt⟩)
            (hnext _ ⟨k.scene, a, k.stakes own⟩ hholds rfl .refl ⟨hdone, .inl rfl⟩)
        · rename_i hpending
          exact hover _ (h.wait hlt hC (some c) hnext
            (h.orderly.awaitCell hlt (Bool.eq_false_iff.mpr hpending) next)
            (fun P hp hn => hp.awaitCell c hn) (k.drifts_awaitCell me c next)
            (k.awaitCell_keeps me c next).1 (k.awaitCell_keeps me c next).2 hholds)
    · cases hprompt

/-! ### Turns -/

/-- A task gets its turn, with its stakes at hand. -/
theorem Tended.take {t : Nat} {x : Option Nat} (h : Tended C own waits none (.turn t x :: rest) 0 k)
    (hlive : k.Live t) : Tended C (Function.update own t 0) waits (some t) rest (own t) k ∧
      own t + k.stakes (Function.update own t 0) = k.stakes own := by
  obtain ⟨horder, hlt, -⟩ := h.orderly.turn hlive
  have hstakes : own t + k.stakes (Function.update own t 0) = k.stakes own := (held_take hlt).symm
  have htotal : own t + k.stakes (Function.update own t 0) = 0 + k.stakes own := by
    rw [hstakes, zero_add]
  have hprograms : Holds ((C.programs (Function.update own t 0) waits k.scene
      (0 + k.stakes own)).except (some t)) k.shared k := by
    refine h.programs.imp (fun c _ program hn => ?_) (fun _ _ _ ha => ha) fun _ hr => hr
    by_cases hc : c = t
    · exact .inl (congrArg some hc.symm)
    · right
      change Poised C (Function.update own t 0 c) (awaited (waits c)) _ _ program
      rw [Function.update_of_ne hc]
      exact hn.resolve_left nofun
  refine ⟨⟨horder, ?_, fun j hj => ?_, fun s hs => ?_, fun i hi => ?_, fun i hi => ?_,
    fun i hi => ?_⟩, hstakes⟩
  · rw [htotal]
    exact hprograms
  · rw [htotal]
    exact h.jobs j (List.mem_cons_of_mem _ hj)
  · rw [htotal]
    exact h.timed s hs
  · rw [htotal]
    exact h.live i hi
  · rw [Function.update_of_ne (Nat.ne_of_gt (Nat.lt_of_lt_of_le hlt hi))]
    exact h.unborn i hi
  · rw [← Option.some.inj hi, Function.update_self]

/-- A job that gives nobody a turn has been taken up. -/
theorem Tended.skip {j : Job σ ν} (h : Tended C own waits busy (j :: rest) a k) :
    Tended C own waits busy rest a k :=
  { h with orderly := h.orderly.skip, jobs := fun i hi => h.jobs i (List.mem_cons_of_mem _ hi) }

theorem InOrder.turn (hC : C.Lawful) {t : Nat} {x : Option Nat}
    (h : InOrder C (.turn t x :: rest) k) : InOrder C rest (k.turn t x) := by
  obtain ⟨own, waits, h, hholds⟩ := h
  unfold Scheduler.turn
  split
  · rename_i ts hts
    have hlive : k.Live t := by simp [Live, hts]
    obtain ⟨-, hlt, hx, hdone⟩ := h.orderly.turn hlive
    obtain ⟨htaken, hstakes⟩ := h.take hlive
    have hnext : Poised C (own t) (awaited x) k.scene (0 + k.stakes own) ts.next := by
      rw [← hx]
      rcases (h.programs.task hts).1 with hnone | hnext
      · cases hnone
      · exact hnext
    let begun := k.modifyTask t fun s => { s with waitingFor := none, interruptDue := false }
    have hscene : begun.scene = k.scene := k.scene_modifyTask t _
    have hl : C.Later k.scene (own t + k.stakes (Function.update own t 0)) begun.scene
        (own t + k.stakes (Function.update own t 0)) := hscene.symm ▸ .refl
    have horder : KeepsOrder k begun := k.keepsOrder_modifyTask t _
    have hbegun := htaken.step horder (fun P hp => hp.modifyTask t fun _ hts => hts) hl
    have hlt' : t < begun.cells.size := Nat.lt_of_lt_of_eq hlt Array.size_modify.symm
    have hled : ∀ answer, (awaited x).Answered answer k.scene →
        Led C (some t) rest t (exec t (ts.next answer) begun) := by
      intro answer ha
      refine exec_led hC t (some t) _ begun _ waits (own t) hbegun.1 (.inl ⟨rfl, hlt'⟩) ?_
      rw [hbegun.2, hscene]
      refine hnext answer ⟨k.scene, own t, _⟩ ?_ rfl ?_ ha
      · rw [Share.total, hstakes]
        exact hholds
      · rw [Share.total, hstakes, zero_add]
        exact .refl
    simp only []
    have hanswer : (awaited x).Answered (if ts.interruptDue = true then some .interrupted
        else x.bind fun c => failureOf (k.statusOf c)) k.scene := by
      cases x with
      | none =>
        split
        · exact .inr rfl
        · exact .inl rfl
      | some c =>
        refine ⟨hdone c rfl, ?_⟩
        split
        · exact .inr rfl
        · exact .inl rfl
    have hfirst := hled _ hanswer
    split
    · rename_i k' heq
      rw [heq] at hfirst
      exact hfirst.ended rfl
    · rename_i body k' heq
      rw [heq] at hfirst
      obtain ⟨-, hme, own', waits', htended, hh, hbody⟩ := hfirst.again body rfl
      have hsecond : Led C (some t) rest t (exec t body k') :=
        exec_led hC t (some t) body k' own' waits' 0 htended (.inl ⟨rfl, hme⟩)
          (hbody ⟨k'.scene, 0, k'.stakes own'⟩ (by rwa [Share.total, zero_add]) rfl
            (by rw [Share.total, zero_add]; exact .refl))
      -- what the task starts over with ends at once: it waits for its next turn
      split
      · rename_i k'' heq'
        rw [heq'] at hsecond
        exact hsecond.ended rfl
      · rename_i body' k'' heq'
        rw [heq'] at hsecond
        obtain ⟨-, hme', own'', waits'', htended', hh', hbody'⟩ := hsecond.again body' rfl
        rw [← zero_add (k''.stakes own'')] at hh' hbody'
        exact htended'.awaitTurn hme' hC
          (poised_first (fun _ _ h => by rwa [zero_add] at h) hbody') hh'
  · exact ⟨own, waits, h.skip, hholds⟩

theorem InOrder.doJob (hC : C.Lawful) {j : Job σ ν} (h : InOrder C (j :: rest) k) :
    InOrder C rest (k.doJob j) := by
  cases j with
  | turn t x => exact h.turn hC
  | run c program =>
    obtain ⟨own, waits, h, hholds⟩ := h
    obtain ⟨hprompt, hreaction⟩ := h.jobs _ List.mem_cons_self
    -- a reaction goes by the number of the next cell, which no task has
    have hdead : ¬ k.Live k.cells.size := by
      rw [live_iff]
      rintro ⟨cell, hc, -⟩
      rw [Array.getElem?_eq_none (Nat.le_refl _)] at hc
      cases hc
    have hled : Led C none rest k.cells.size (exec k.cells.size (program (k.statusOf c)) k) := by
      refine exec_led hC _ none _ k own waits 0 h.skip (.inr ⟨rfl, hdead, hprompt _⟩)
        (hreaction _ ⟨k.scene, 0, k.stakes own⟩ ?_ rfl .refl)
      rwa [Share.total, zero_add]
    cases hbody : (exec k.cells.size (program (k.statusOf c)) k).1 with
    | none => exact hled.ended hbody
    | some body => cases (hled.again body hbody).1
  | timer t =>
    obtain ⟨own, waits, h, hholds⟩ := h
    have hdrift : k.scene.Drifts (C.loose k.cells.size (k.stakes own)) (k.ring t).scene := by
      refine (k.drifts_ring t).mono fun c hc => ?_
      obtain ⟨timer, htimer, haction⟩ := Option.map_eq_some_iff.mp hc
      have hloose := h.timed c ⟨t, timer, htimer, haction⟩
      rwa [zero_add] at hloose
    obtain ⟨hafter, hstakes⟩ := h.skip.step (k.keepsOrder_ring t)
      (fun P hp => (hp.ring t).shared.symm ▸ hp.ring t) (hC.later hdrift (0 + k.stakes own))
    refine ⟨own, waits, hafter, ?_⟩
    change C.holds (k.ring t).scene ((k.ring t).stakes own)
    rw [hstakes]
    exact hC.drift hholds hdrift

/-! ### Rounds -/

theorem InOrder.doJobs (hC : C.Lawful) (js rest : List (Job σ ν)) : ∀ k : Scheduler σ ν,
    InOrder C (js ++ rest) k → InOrder C rest (js.foldl Scheduler.doJob k) := by
  induction js with
  | nil => exact fun _ h => h
  | cons j js ih => exact fun k h => ih (k.doJob j) (h.doJob hC)

theorem InOrder.collect (h : InOrder C [] k) : InOrder C [] k.collect := by
  obtain ⟨own, waits, h, hholds⟩ := h
  have hl : C.Later k.scene (0 + k.stakes own) k.collect.scene (0 + k.stakes own) :=
    k.scene_collect.symm ▸ .refl
  obtain ⟨hcollected, hstakes⟩ := h.step k.keepsOrder_collect
    (fun P hp => hp.collect.shared.symm ▸ hp.collect) hl
  refine ⟨own, waits, hcollected, ?_⟩
  rw [hstakes, k.scene_collect]
  exact hholds

/-- The jobs that were ready are those to be done. -/
theorem InOrder.takeReady (h : InOrder C [] k) :
    InOrder C k.ready.toList { k with ready := #[] } := by
  obtain ⟨own, waits, h, hholds⟩ := h
  have hlist : k.ready.toList ++ (#[] : Array (Job σ ν)).toList = [] ++ k.ready.toList :=
    List.append_nil _
  have horder := h.orderly
  refine ⟨own, waits, ⟨⟨horder.quiet, horder.watched, horder.once, ?_, ?_⟩, ?_, ?_, h.timed, h.live,
    h.unborn, nofun⟩, hholds⟩
  · exact fun w hw => horder.woken w (hlist ▸ hw)
  · exact fun t ht => hlist ▸ horder.single t ht
  · exact ⟨rfl, h.programs.cells, nofun⟩
  · exact fun j hj => h.programs.ready j (Array.mem_toList_iff.mp hj)

theorem InOrder.amid (hC : C.Lawful) (h : InOrder C [] k) (jobs : Nat) :
    InOrder C (k.collect.ready.toList.drop jobs) (k.amid jobs) := by
  refine InOrder.doJobs hC _ _ _ ?_
  rw [List.take_append_drop]
  exact h.collect.takeReady

theorem InOrder.round (hC : C.Lawful) (h : InOrder C [] k) {k' : Scheduler σ ν}
    (hround : k.round? = some k') : InOrder C [] k' := by
  unfold Scheduler.round? at hround
  simp only [] at hround
  split at hround
  · cases hround
  · cases hround
    have hall := h.amid hC k.collect.ready.size
    rwa [amid_size, ← Array.length_toList, List.drop_length] at hall

theorem InOrder.addTask (hC : C.Lawful) (h : InOrder C rest k) {body : Task σ ν}
    (hbody : ∀ x, C.holds x.scene x.total → x.own = 0 → body.Tends C C.Ended x) :
    InOrder C rest (k.addTask false body).2 := by
  obtain ⟨own, waits, h, hholds⟩ := h
  have hloose : C.loose (k.cells.size + 1) (0 + 0 + k.stakes own) k.cells.size := by
    rw [zero_add, zero_add]
    exact hC.fresh hholds
  have hnone : Tended C own waits none rest (0 + 0) k := h
  have hadded := hnone.spawn hC nofun false (fun _ => rfl) (fun _ _ h => by rwa [zero_add] at h)
    hloose fun x hh hown _ => hbody x hh hown
  refine ⟨_, _, hadded.1, ?_⟩
  rw [hadded.2, zero_add, scene_addTask]
  exact hC.drift hholds ((Scene.drifts_push _ _ _).mono fun _ => False.elim)

theorem inOrder_start {s : σ} (hholds : C.holds ({ shared := s } : Scheduler σ ν).scene 0) :
    InOrder C [] ({ shared := s } : Scheduler σ ν) := by
  have hnocell : ∀ {c : Nat} {cell : Cell σ ν}, (#[] : Array (Cell σ ν))[c]? ≠ some cell := by simp
  have hnotimer : ∀ {t : Nat} {timer : Timer}, (#[] : Array Timer)[t]? ≠ some timer := by simp
  have hdead : ∀ t, ¬ ({ shared := s } : Scheduler σ ν).Live t := by
    intro t ht
    obtain ⟨cell, hc, -⟩ := live_iff.mp ht
    exact hnocell hc
  refine ⟨fun _ => 0, fun _ => none, ⟨?_, ?_, ?_, ?_, ?_, fun _ _ => rfl, fun _ _ => rfl⟩, hholds⟩
  · exact ⟨fun _ _ hc => absurd hc hnocell, fun _ _ hc => absurd hc hnocell,
      fun _ _ hc => absurd hc hnocell, fun _ hw => absurd hw List.not_mem_nil,
      fun t ht => absurd ht (hdead t)⟩
  · exact ⟨rfl, fun _ _ hc => absurd hc hnocell, fun _ hj => absurd hj (Array.not_mem_empty _)⟩
  · exact fun _ hj => absurd hj List.not_mem_nil
  · rintro _ ⟨t, timer, ht, -⟩
    exact absurd ht hnotimer
  · exact fun t ht => absurd ht (hdead t)

/-- **What a commons says holds in every reachable state, between any two turns**, if it holds at the
start and every task that arrives tends it. -/
theorem Reachable.commons (hC : C.Lawful) {start : σ → Prop} {arrivals : Task σ ν → Prop}
    (hstart : ∀ s, start s → C.holds ({ shared := s } : Scheduler σ ν).scene 0)
    (harrivals : ∀ body, arrivals body → ∀ x, C.holds x.scene x.total → x.own = 0 →
      body.Tends C C.Ended x) (h : Reachable start arrivals k) (jobs : Nat) :
    ∃ g, C.holds (k.amid jobs).scene g := by
  have horder : InOrder C [] k := by
    induction h with
    | start hs => exact inOrder_start (hstart _ hs)
    | arrive _ hbody ih => exact ih.addTask hC (harrivals _ hbody)
    | round _ hround ih => exact ih.round hC hround
  obtain ⟨own, waits, -, hholds⟩ := horder.amid hC jobs
  exact ⟨_, hholds⟩

end Scheduler

end ChatCommands.Concurrency
