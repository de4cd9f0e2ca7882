import ChatCommands.Proofs.Concurrency.Queue

/-!
Programs that wait for nothing but the time.

Such a program sleeps, at times with an alarm set that bounds its sleep, and takes its turns; it
never waits for another task.  So it can be told at each of its waits when it goes on and with what
answer, whatever the other tasks do: with none when its time has come, or interrupted when its alarm
was due before.  The bound on the number of waits makes it come to its end.

`Task.Paced` says this of a program from a juncture on, together with what a pact lays down for the
state that the tasks share.  The rules for `Act.Paces` follow the ways in which computations are put
together.
-/

namespace ChatCommands.Concurrency

open Scheduler (Due)

/-- When a timer is due that is set at the time `clock`. -/
def dueAfter (clock delay : Rat) : Rat := max clock (Binary64.snap (clock + delay))

/-- What a task has in hand of alarms. -/
inductive Hand
  /-- None is set. -/
  | clean
  /-- None is set, but one was dropped in this turn. -/
  | spent
  | armed (alarm : Nat) (due : Rat)
  /-- The alarm has rung, and its interruption has not been answered for. -/
  | struck (alarm : Nat) (due : Rat)

/-- No alarm is set. -/
def Hand.Unarmed : Hand → Prop
  | .clean | .spent => True
  | .armed .. | .struck .. => False

/-- What a task rests for: its next turn, a time, or an interruption. -/
inductive Repose
  | turn
  | until (due : Rat)
  | forever

/-- What a task rests for that sleeps from the time `clock` on. -/
def Repose.ofDelay (clock : Rat) : Option Rat → Repose
  | none => .forever
  | some d => if d ≤ 0 then .turn else .until (dueAfter clock d)

/-- What a task with such a hand may rest for: nobody sleeps forever without an alarm. -/
def Hand.MayRest : Hand → Repose → Prop
  | .clean, .forever | .spent, .forever | .armed .., .turn | .struck .., _ => False
  | .clean, _ | .spent, _ | .armed .., _ => True

/-- With what answer, with what hand and when a task goes on that rests from `since` on.  If it is
alone, nothing but what it waits for itself can bring the clock forward. -/
inductive Wakes (alone : Prop) (since : Rat) :
    Hand → Repose → Option Failure → Hand → Rat → Prop
  | turn {hand : Hand} (hunarmed : hand.Unarmed) : Wakes alone since hand .turn none .clean since
  | rested {hand : Hand} {due clock : Rat} (hunarmed : hand.Unarmed) (hdue : Due clock due)
    (hle : clock ≤ due) (halone : alone → clock = since ∨ clock = due) :
    Wakes alone since hand (.until due) none .clean clock
  | inTime {alarm : Nat} {limit due clock : Rat} (hdue : Due clock due) (hle : clock ≤ due)
    (hearly : ¬ Due clock limit) (halone : alone → clock = due) :
    Wakes alone since (.armed alarm limit) (.until due) none (.armed alarm limit) clock
  | cut {alarm : Nat} {limit due clock : Rat} (hlimit : Due clock limit) (hle : clock ≤ limit)
    (hearly : clock ≤ due) (halone : alone → clock = min due limit) :
    Wakes alone since (.armed alarm limit) (.until due) (some .interrupted) (.struck alarm limit)
      clock
  | ended {alarm : Nat} {limit clock : Rat} (hlimit : Due clock limit) (hle : clock ≤ limit) :
    Wakes alone since (.armed alarm limit) .forever (some .interrupted) (.struck alarm limit) clock

/-- Nobody who has set no alarm is interrupted. -/
theorem Wakes.unarmed {alone : Prop} {since clock : Rat} {hand hand' : Hand} {repose : Repose}
    {answer : Option Failure} (h : Wakes alone since hand repose answer hand' clock)
    (hhand : hand.Unarmed) : answer = none ∧ hand' = .clean := by
  cases h with
  | turn | rested => exact ⟨rfl, rfl⟩
  | inTime | cut | ended => exact hhand.elim

/-- What tasks can rely on.  Each task has a number, under which the shared state may keep something
that is the task's own. -/
structure Pact (σ ν : Type) where
  /-- What holds whenever no task has its turn. -/
  holds : σ → Prop
  /-- What the others may do while a task does not have its turn. -/
  meanwhile : (task : Nat) → σ → σ → Prop
  /-- What is known of a number before the task comes in. -/
  fresh : (task : Nat) → σ → Prop
  /-- What is known once a task has ended. -/
  done : (task : Nat) → Ending ν → σ → Prop
  /-- There is at most one task. -/
  alone : Prop

variable {σ ν α β : Type}

/-- What is known of the tasks lasts. -/
structure Pact.Lawful (P : Pact σ ν) : Prop where
  refl : ∀ n s, P.meanwhile n s s
  trans : ∀ {n s₁ s₂ s₃}, P.meanwhile n s₁ s₂ → P.meanwhile n s₂ s₃ → P.meanwhile n s₁ s₃
  fresh : ∀ {n s s'}, P.meanwhile n s s' → P.fresh n s → P.fresh n s'
  done : ∀ {n r s s'}, P.meanwhile n s s' → P.done n r s → P.done n r s'

/-- What a program can rely on when it has its turn. -/
structure Juncture (σ : Type) where
  shared : σ
  clock : Rat
  hand : Hand

/-- The task with the number `me` keeps the pact from the juncture `j` on, rests at most `n` times
and comes to its end with its hands free. -/
inductive Task.Paced (P : Pact σ ν) (me : Nat) : Task σ ν → Nat → Juncture σ → Prop
  | finish {r : Ending ν} {n : Nat} {j : Juncture σ} (hhand : j.hand.Unarmed)
    (hholds : P.holds j.shared) (hdone : P.done me r j.shared) : Paced P me (.finish r) n j
  | look {next : σ → Task σ ν} {n : Nat} {j : Juncture σ}
    (hnext : Paced P me (next j.shared) n j) : Paced P me (.look next) n j
  | put {s : σ} {next : Task σ ν} {n : Nat} {j : Juncture σ}
    (hothers : ∀ o, o ≠ me → P.meanwhile o j.shared s)
    (hnext : Paced P me next n { j with shared := s }) : Paced P me (.put s next) n j
  | now {next : Rat → Task σ ν} {n : Nat} {j : Juncture σ}
    (hnext : Paced P me (next j.clock) n j) : Paced P me (.call .now next) n j
  | setAlarm {d : Rat} {next : Nat → Task σ ν} {n : Nat} {j : Juncture σ}
    (hhand : j.hand.Unarmed) (halone : P.alone → j.hand = .clean)
    (hnext : ∀ a, Paced P me (next a) n { j with hand := .armed a (dueAfter j.clock d) }) :
    Paced P me (.call (.setAlarm d) next) n j
  | dropAlarm {a : Nat} {limit : Rat} {next : Bool → Task σ ν} {n : Nat} {j : Juncture σ}
    (hhand : j.hand = .armed a limit) (hnext : Paced P me (next false) n { j with hand := .spent }) :
    Paced P me (.call (.dropAlarm a) next) n j
  | answerAlarm {a : Nat} {limit : Rat} {next : Bool → Task σ ν} {n : Nat} {j : Juncture σ}
    (hhand : j.hand = .struck a limit) (hnext : Paced P me (next true) n { j with hand := .spent }) :
    Paced P me (.call (.dropAlarm a) next) n j
  | yield {next : Option Failure → Task σ ν} {n : Nat} {j : Juncture σ}
    (hhand : j.hand.MayRest .turn) (hholds : P.holds j.shared)
    (hnext : ∀ answer j', P.holds j'.shared → P.meanwhile me j.shared j'.shared →
      Wakes P.alone j.clock j.hand .turn answer j'.hand j'.clock → Paced P me (next answer) n j') :
    Paced P me (.wait .turn next) (n + 1) j
  | sleep {d : Rat} {next : Option Failure → Task σ ν} {n : Nat} {j : Juncture σ} (hd : 0 < d)
    (hhand : j.hand.MayRest (.until (dueAfter j.clock d))) (hholds : P.holds j.shared)
    (hnext : ∀ answer j', P.holds j'.shared → P.meanwhile me j.shared j'.shared →
      Wakes P.alone j.clock j.hand (.until (dueAfter j.clock d)) answer j'.hand j'.clock →
      Paced P me (next answer) n j') :
    Paced P me (.call (.newSignal 1 []) fun signal => .call (.fireAfter d signal) fun timer =>
      .wait (.cell signal) fun answer => .call (.dropTimer timer) fun _ => next answer) (n + 1) j
  | hang {next : Option Failure → Task σ ν} {n : Nat} {j : Juncture σ}
    (hhand : j.hand.MayRest .forever) (hholds : P.holds j.shared)
    (hnext : ∀ answer j', P.holds j'.shared → P.meanwhile me j.shared j'.shared →
      Wakes P.alone j.clock j.hand .forever answer j'.hand j'.clock →
      Paced P me (next answer) n j') :
    Paced P me (.call (.newSignal 1 []) fun signal => .wait (.cell signal) next) (n + 1) j

theorem Task.Paced.mono {P : Pact σ ν} {me n n' : Nat} {t : Task σ ν} {j : Juncture σ}
    (h : t.Paced P me n j) (hle : n ≤ n') : t.Paced P me n' j := by
  induction h generalizing n' with
  | finish hhand hholds hdone => exact .finish hhand hholds hdone
  | look _ ih => exact .look (ih hle)
  | put hothers _ ih => exact .put hothers (ih hle)
  | now _ ih => exact .now (ih hle)
  | setAlarm hhand halone _ ih => exact .setAlarm hhand halone fun a => ih a hle
  | dropAlarm hhand _ ih => exact .dropAlarm hhand (ih hle)
  | answerAlarm hhand _ ih => exact .answerAlarm hhand (ih hle)
  | yield hhand hholds _ ih =>
    obtain ⟨n', rfl⟩ := Nat.exists_eq_add_of_lt hle
    exact .yield hhand hholds fun answer j' hh hm hw => ih answer j' hh hm hw (by omega)
  | sleep hd hhand hholds _ ih =>
    obtain ⟨n', rfl⟩ := Nat.exists_eq_add_of_lt hle
    exact .sleep hd hhand hholds fun answer j' hh hm hw => ih answer j' hh hm hw (by omega)
  | hang hhand hholds _ ih =>
    obtain ⟨n', rfl⟩ := Nat.exists_eq_add_of_lt hle
    exact .hang hhand hholds fun answer j' hh hm hw => ih answer j' hh hm hw (by omega)

namespace Act

variable {P : Pact σ ν} {me n l : Nat} {pre pre' : Juncture σ → Prop}
  {post post' : Ending α → Juncture σ → Prop} {x : Act σ ν α}

/-- From a juncture with `pre` the computation keeps the pact, rests at most `n` times and ends as
`post` says. -/
def Paces (P : Pact σ ν) (me n : Nat) (pre : Juncture σ → Prop) (x : Act σ ν α)
    (post : Ending α → Juncture σ → Prop) : Prop :=
  ∀ (k : Ending α → Task σ ν) (m : Nat) (j : Juncture σ), pre j →
    (∀ r j', post r j' → (k r).Paced P me m j') → (x k).Paced P me (m + n) j

theorem Paces.weaken (h : Paces P me n pre x post) (hpre : ∀ j, pre' j → pre j)
    (hpost : ∀ r j, post r j → post' r j) : Paces P me n pre' x post' :=
  fun k m j hj hk => h k m j (hpre j hj) fun r j' hr => hk r j' (hpost r j' hr)

theorem Paces.mono (h : Paces P me n pre x post) (hle : n ≤ l) : Paces P me l pre x post :=
  fun k m j hj hk => (h k m j hj hk).mono (Nat.add_le_add_left hle m)

/-- What holds of a juncture is given for one juncture at a time. -/
theorem paces_of_forall (h : ∀ j, pre j → Paces P me n (· = j) x post) : Paces P me n pre x post :=
  fun k m j hj => h j hj k m j rfl

theorem paces_ofEnding {r : Ending α} (h : ∀ j, pre j → post r j) :
    Paces P me 0 pre (ofEnding r) post :=
  fun _ _ j hj hk => hk r j (h j hj)

theorem paces_pure {a : α} (h : ∀ j, pre j → post (.ok a) j) :
    Paces P me 0 pre (pure a : Act σ ν α) post :=
  paces_ofEnding h

theorem paces_ofExcept {r : Except Fault α} (h : ∀ j, pre j → post (r.mapError .fault) j) :
    Paces P me 0 pre (ofExcept r) post := by
  cases r with
  | ok a => exact paces_ofEnding h
  | error f => exact paces_ofEnding h

/-- The parts of a sequence keep the pact. -/
theorem Paces.bind {mid : Ending β → Juncture σ → Prop} {y : Act σ ν β} {f : β → Act σ ν α}
    (hy : Paces P me n pre y mid) (hf : ∀ b, Paces P me l (mid (.ok b)) (f b) post)
    (herror : ∀ e j, mid (.error e) j → post (.error e) j) :
    Paces P me (l + n) pre (y >>= f) post := by
  intro k m j hj hk
  rw [← Nat.add_assoc]
  refine hy _ (m + l) j hj fun r j' hr => ?_
  cases r with
  | ok b => exact hf b k m j' hr hk
  | error e => exact (hk _ j' (herror e j' hr)).mono (Nat.le_add_right m l)

theorem Paces.attempt {post : Ending (Ending α) → Juncture σ → Prop}
    (h : Paces P me n pre x fun r => post (.ok r)) : Paces P me n pre (attempt x) post :=
  fun _ m j hj hk => h _ m j hj fun r j' hr => hk (.ok r) j' hr

theorem Paces.recover {handle : Fault → Act σ ν α} {mid : Ending α → Juncture σ → Prop}
    (hx : Paces P me n pre x mid)
    (hhandle : ∀ f, Paces P me l (mid (.error (.fault f))) (handle f) post)
    (hok : ∀ a j, mid (.ok a) j → post (.ok a) j)
    (hinterrupted : ∀ j, mid (.error .interrupted) j → post (.error .interrupted) j) :
    Paces P me (l + n) pre (recover x handle) post := by
  intro k m j hj hk
  rw [← Nat.add_assoc]
  refine hx _ (m + l) j hj fun r j' hr => ?_
  match r with
  | .ok a => exact (hk _ j' (hok a j' hr)).mono (Nat.le_add_right m l)
  | .error (.fault f) => exact hhandle f k m j' hr hk
  | .error .interrupted => exact (hk _ j' (hinterrupted j' hr)).mono (Nat.le_add_right m l)

theorem paces_gets {f : σ → α} (h : ∀ j, pre j → post (.ok (f j.shared)) j) :
    Paces P me 0 pre (gets f) post :=
  fun _ _ j hj hk => .look (hk _ j (h j hj))

/-- A change that the others do not mind. -/
theorem paces_change {f : σ → α × σ}
    (hothers : ∀ j, pre j → ∀ o, o ≠ me → P.meanwhile o j.shared (f j.shared).2)
    (h : ∀ j, pre j → post (.ok (f j.shared).1) { j with shared := (f j.shared).2 }) :
    Paces P me 0 pre (change f) post :=
  fun _ _ j hj hk => .look (.put (hothers j hj) (hk _ _ (h j hj)))

/-- What comes after a part that can come to one thing only. -/
theorem Paces.follow {y : Act σ ν β} {b : β} {f : β → Act σ ν α} {j : Juncture σ}
    (hy : Paces P me n pre y fun r j' => r = .ok b ∧ j' = j)
    (hf : Paces P me l (· = j) (f b) post) : Paces P me (l + n) pre (y >>= f) post :=
  hy.bind (fun b' => paces_of_forall fun j' hj' => by
    obtain ⟨heq, rfl⟩ := hj'
    cases heq
    exact hf) fun _ _ he => nomatch he.1

/-- A change comes to one thing only. -/
theorem change_at {f : σ → α × σ} {j : Juncture σ}
    (hothers : ∀ o, o ≠ me → P.meanwhile o j.shared (f j.shared).2) :
    Paces P me 0 (· = j) (change f) fun r j' => r = .ok (f j.shared).1 ∧
      j' = { j with shared := (f j.shared).2 } :=
  paces_change (fun _ hj => hj ▸ hothers) fun _ hj => hj ▸ ⟨rfl, rfl⟩

theorem paces_modify {f : σ → σ} {post : Ending Unit → Juncture σ → Prop}
    (hothers : ∀ j, pre j → ∀ o, o ≠ me → P.meanwhile o j.shared (f j.shared))
    (h : ∀ j, pre j → post (.ok ()) { j with shared := f j.shared }) :
    Paces P me 0 pre (modify f) post :=
  paces_change hothers h

theorem paces_now {post : Ending Rat → Juncture σ → Prop} (h : ∀ j, pre j → post (.ok j.clock) j) :
    Paces P me 0 pre now post :=
  fun _ _ j hj hk => .now (hk _ j (h j hj))

/-- What someone goes on with whose rest was answered so. -/
def ofAnswer : Option Failure → Ending Unit
  | none => .ok ()
  | some f => .error f

/-- The rest of a task that sleeps ends when it is to end. -/
theorem paces_sleep (d : Option Rat) (hholds : ∀ j, pre j → P.holds j.shared)
    (hhand : ∀ j, pre j → j.hand.MayRest (.ofDelay j.clock d)) :
    Paces P me 1 pre (Act.sleep d) fun r j' => ∃ j, pre j ∧ P.holds j'.shared ∧
      P.meanwhile me j.shared j'.shared ∧ ∃ answer, r = ofAnswer answer ∧
        Wakes P.alone j.clock j.hand (.ofDelay j.clock d) answer j'.hand j'.clock := by
  intro k m j hj hk
  have hgo : ∀ answer j', P.holds j'.shared → P.meanwhile me j.shared j'.shared →
      Wakes P.alone j.clock j.hand (.ofDelay j.clock d) answer j'.hand j'.clock →
      (k (ofAnswer answer)).Paced P me m j' := fun answer j' hh hm hw =>
    hk _ j' ⟨j, hj, hh, hm, answer, rfl, hw⟩
  have hrest := hhand j hj
  cases d with
  | none =>
    have heq : (Act.sleep none : Act σ ν Unit) k = .call (.newSignal 1 []) fun signal =>
        .wait (.cell signal) fun answer => k (ofAnswer answer) := by
      refine congrArg (Task.call _) (funext fun signal => congrArg (Task.wait _) (funext fun answer => ?_))
      cases answer <;> rfl
    rw [heq]
    exact .hang hrest (hholds j hj) hgo
  | some d =>
    by_cases hd : d ≤ 0
    · have heq : (Act.sleep (some d) : Act σ ν Unit) k = .wait .turn fun answer =>
          k (ofAnswer answer) := by
        simp only [Act.sleep, if_pos hd]
        refine congrArg (Task.wait _) (funext fun answer => ?_)
        cases answer <;> rfl
      rw [heq]
      rw [Repose.ofDelay, if_pos hd] at hrest hgo
      exact .yield hrest (hholds j hj) hgo
    · have heq : (Act.sleep (some d) : Act σ ν Unit) k = .call (.newSignal 1 []) fun signal =>
          .call (.fireAfter d signal) fun timer => .wait (.cell signal) fun answer =>
            .call (.dropTimer timer) fun _ => k (ofAnswer answer) := by
        simp only [Act.sleep, if_neg hd]
        refine congrArg (Task.call _) (funext fun signal => congrArg (Task.call _) (funext fun timer =>
          congrArg (Task.wait _) (funext fun answer => ?_)))
        cases answer <;> rfl
      rw [heq]
      rw [Repose.ofDelay, if_neg hd] at hrest hgo
      exact .sleep (not_le.mp hd) hrest (hholds j hj) hgo

/-- A task without an alarm sleeps as long as it is to. -/
theorem paces_nap (d : Rat) (hholds : ∀ j, pre j → P.holds j.shared)
    (hhand : ∀ j, pre j → j.hand.Unarmed) :
    Paces P me 1 pre (Act.sleep (some d)) fun r j' => r = .ok () ∧ j'.hand = .clean ∧
      P.holds j'.shared ∧ ∃ j, pre j ∧ P.meanwhile me j.shared j'.shared ∧
        Wakes P.alone j.clock j.hand (.ofDelay j.clock (some d)) none j'.hand j'.clock := by
  refine (paces_sleep (some d) hholds fun j hj => ?_).weaken (fun _ h => h) fun r j' hr => ?_
  · have hunarmed := hhand j hj
    unfold Repose.ofDelay
    cases hh : j.hand with
    | clean | spent => dsimp only; split <;> trivial
    | armed | struck => rw [hh] at hunarmed; exact hunarmed.elim
  · obtain ⟨j, hj, hh, hm, answer, rfl, hw⟩ := hr
    obtain ⟨rfl, hclean⟩ := hw.unarmed (hhand j hj)
    exact ⟨rfl, hclean, hh, j, hj, hm, hw⟩

/-- A computation as a task of its own. -/
theorem Paces.toTask {toValue : α → ν} {j : Juncture σ} (h : Paces P me n pre x post) (hj : pre j)
    (hend : ∀ r j', post r j' → j'.hand.Unarmed ∧ P.holds j'.shared ∧
      P.done me (r.map toValue) j'.shared) : (Act.toTask toValue x).Paced P me n j := by
  have hfinish := h (fun r => .finish (r.map toValue)) 0 j hj fun r j' hr =>
    .finish (hend r j' hr).1 (hend r j' hr).2.1 (hend r j' hr).2.2
  rwa [Nat.zero_add] at hfinish

/-- What a computation with a time limit comes to, by what has become of its alarm. -/
def Limited (alarm : Nat) (post : Ending α → Juncture σ → Prop) (r : Ending α) (j : Juncture σ) :
    Prop :=
  match j.hand with
  | .armed a _ => a = alarm ∧ post r { j with hand := .spent }
  | .struck a _ => a = alarm ∧ r = .error .interrupted ∧
    post (.error (.fault (.of .timeout []))) { j with hand := .spent }
  | .clean | .spent => False

/-- **A time limit** makes a fault of the interruption by its alarm. -/
theorem Paces.within {d : Rat} (hhand : ∀ j, pre j → j.hand.Unarmed)
    (halone : ∀ j, pre j → P.alone → j.hand = .clean)
    (hx : ∀ a, Paces P me n (fun j => ∃ j₀, pre j₀ ∧
      j = { j₀ with hand := .armed a (dueAfter j₀.clock d) }) x (Limited a post)) :
    Paces P me n pre (Act.within (some d) x) post := by
  intro k m j hj hk
  refine .setAlarm (hhand j hj) (halone j hj) fun a => hx a _ m _ ⟨j, hj, rfl⟩ fun r j' hr => ?_
  unfold Limited at hr
  split at hr
  · rename_i b limit hb
    obtain ⟨rfl, hr⟩ := hr
    exact .dropAlarm hb (hk r _ hr)
  · rename_i b limit hb
    obtain ⟨rfl, rfl, hr⟩ := hr
    exact .answerAlarm hb (hk _ _ hr)
  · exact hr.elim
  · exact hr.elim

end Act

end ChatCommands.Concurrency
