import ChatCommands.Delivery
import ChatCommands.Proofs.Concurrency.Pace

/-!
Attempts to make a call outside.

What holds between the attempts is kept by everything that happens meanwhile, so it holds when the
delivery is given up, whatever the attempts came to.  Main statement: `Serves.paces_withRetries`.
-/

namespace ChatCommands.Delivery

open Concurrency Act

variable {ω α : Type} {P : Pact (World ω) Product} {me : Nat}

/-- The other tasks do not mind this change. -/
def Unminded (P : Pact (World ω) Product) (me : Nat) (w w' : World ω) : Prop :=
  ∀ o, o ≠ me → P.meanwhile o w w'

/-- The other tasks mind nothing but the environment. -/
def Oblivious (P : Pact (World ω) Product) (me : Nat) : Prop :=
  ∀ w w', w'.env = w.env → Unminded P me w w'

/-- What the attempts to make a call do: each of them begins with `before`, and from then on it is
`amid` whatever happens, until an attempt succeeds. -/
structure Serves (P : Pact (World ω) Product) (me : Nat) (c : OutsideCall ω α)
    (before amid : World ω → Prop) (after : α → World ω → Prop) : Prop where
  delay : ∀ e d, (c.start e).1 = some d → 0 ≤ d
  start : ∀ w, before w → Unminded P me w { w with env := (c.start w.env).2 } ∧
    amid { w with env := (c.start w.env).2 }
  finish : ∀ w, amid w → Unminded P me w { w with env := (c.finish w.env).2 } ∧
    match (c.finish w.env).1 with
    | .ok a => after a { w with env := (c.finish w.env).2 }
    | .error _ => amid { w with env := (c.finish w.env).2 }
  warn : ∀ w f, amid w → amid { w with journal := retryRecord f :: w.journal }
  holds : ∀ w, amid w → P.holds w
  stable : ∀ w w', amid w → P.holds w' → P.meanwhile me w w' → amid w'
  again : ∀ w, amid w → before w

variable {c : OutsideCall ω α} {before amid : World ω → Prop} {after : α → World ω → Prop}

/-- What an attempt comes to. -/
def Attempted (amid : World ω → Prop) (after : α → World ω → Prop) (r : Ending α) (w : World ω) :
    Prop :=
  match r with
  | .ok a => after a w
  | .error (.fault _) => amid w
  | .error .interrupted => False

theorem onEnv_at {β : Type} {f : ω → β × ω} {j : Juncture (World ω)}
    (hothers : Unminded P me j.shared { j.shared with env := (f j.shared.env).2 }) :
    Paces P me 0 (· = j) (Action.onEnv f) fun r j' => r = .ok (f j.shared.env).1 ∧
      j' = { j with shared := { j.shared with env := (f j.shared.env).2 } } :=
  change_at hothers

theorem warn_at {f : Fault} {j : Juncture (World ω)}
    (hothers : Unminded P me j.shared { j.shared with journal := retryRecord f :: j.shared.journal }) :
    Paces P me 0 (· = j) (Action.logAll [retryRecord f]) fun r j' => r = .ok () ∧ j' = { j with
      shared := { j.shared with journal := retryRecord f :: j.shared.journal } } :=
  change_at hothers

/-- An attempt with a time limit. -/
theorem Serves.paces_within (h : Serves P me c before amid after) (hmany : ¬ P.alone)
    (limit : Rat) : Paces P me 1 (fun j => j.hand.Unarmed ∧ before j.shared)
      (Act.within (some limit) c.make) fun r j =>
        j.hand.Unarmed ∧ Attempted amid after r j.shared := by
  refine Paces.within (fun j hj => hj.1) (fun j _ hal => absurd hal hmany) fun a => ?_
  -- the alarm stays in hand until it strikes
  have hfinish : Paces P me 0 (fun j => amid j.shared ∧ ∃ due, j.hand = .armed a due)
      (Action.onEnv c.finish >>= fun r => Act.ofExcept r)
      (Limited a fun r j => j.hand.Unarmed ∧ Attempted amid after r j.shared) := by
    refine paces_of_forall fun j hj => ?_
    obtain ⟨hamid, due, hhand⟩ := hj
    obtain ⟨hothers, hcame⟩ := h.finish j.shared hamid
    refine (onEnv_at hothers).follow (paces_ofExcept ?_)
    rintro _ rfl
    unfold Limited
    simp only [hhand]
    refine ⟨trivial, trivial, ?_⟩
    cases hr : (c.finish j.shared.env).1 with
    | ok x => rw [hr] at hcame; exact hcame
    | error f => rw [hr] at hcame; exact hcame
  refine paces_of_forall ?_
  rintro _ ⟨j, ⟨hhand, hbefore⟩, rfl⟩
  obtain ⟨hothers, hamid⟩ := h.start j.shared hbefore
  unfold OutsideCall.make
  refine (onEnv_at (j := { j with hand := .armed a (dueAfter j.clock limit) }) hothers).follow ?_
  dsimp only
  have hdelay := h.delay j.shared.env
  generalize (c.start j.shared.env).1 = delay at hdelay
  split
  · rename_i hsome
    have hrest : Repose.ofDelay j.clock delay ≠ .turn := by
      cases delay with
      | none =>
        intro hturn
        cases hturn
      | some d =>
        have hd : d ≠ 0 := fun hd => hsome (congrArg some hd)
        rw [Repose.ofDelay, if_neg (not_le.mpr (lt_of_le_of_ne (hdelay d rfl) (Ne.symm hd)))]
        intro hturn
        cases hturn
    refine (paces_sleep delay (fun _ hj => hj ▸ h.holds _ hamid) fun _ hj => ?_).bind
      (fun _ => hfinish.weaken (fun j' hj' => ?_) fun _ _ hr => hr) fun e j' hj' => ?_
    · rw [hj]
      dsimp only
      cases hrepose : Repose.ofDelay j.clock delay with
      | turn => exact absurd hrepose hrest
      | «until» _ | forever => trivial
    · obtain ⟨_, rfl, hh, hm, answer, hanswer, hw⟩ := hj'
      obtain ⟨s, clock, hand⟩ := j'
      dsimp only at hw
      generalize Repose.ofDelay j.clock delay = repose at hw
      cases hw with
      | turn hunarmed | rested hunarmed => exact hunarmed.elim
      | inTime => exact ⟨h.stable _ _ hamid hh hm, _, rfl⟩
      | cut | ended => cases hanswer
    · obtain ⟨_, rfl, hh, hm, answer, hanswer, hw⟩ := hj'
      obtain ⟨s, clock, hand⟩ := j'
      dsimp only at hw
      generalize Repose.ofDelay j.clock delay = repose at hw
      have hstable := h.stable _ _ hamid hh hm
      cases hw with
      | turn hunarmed | rested hunarmed => exact hunarmed.elim
      | inTime => cases hanswer
      | cut | ended =>
        cases hanswer
        exact ⟨rfl, rfl, trivial, hstable⟩
  · refine Paces.mono (hfinish.weaken (fun j' hj' => ?_) fun _ _ hr => hr) (Nat.zero_le 1)
    rw [hj']
    exact ⟨hamid, _, rfl⟩

/-- **The attempts of a delivery.** -/
theorem Serves.paces_attempts (h : Serves P me c before amid after) (hmany : ¬ P.alone)
    (hothers : Oblivious P me) (limit : Rat) (more : Nat) :
    Paces P me (2 * more + 1) (fun j => j.hand.Unarmed ∧ before j.shared)
      (attempts (some limit) c.make more) fun r j =>
        j.hand.Unarmed ∧ Attempted amid after r j.shared := by
  induction more with
  | zero => exact h.paces_within hmany limit
  | succ more ih =>
    refine (h.paces_within hmany limit).recover (l := 2 * more + 1 + 1) (fun f => ?_)
      (fun a j hj => hj) fun j hj => hj.2.elim
    split
    · refine paces_of_forall fun j hj => ?_
      have hamid := h.warn j.shared f hj.2
      refine (warn_at (hothers _ _ rfl)).follow ?_
      refine (paces_nap pause (fun _ hj' => hj' ▸ h.holds _ hamid) fun _ hj' => hj' ▸ hj.1).bind
        (fun _ => ih.weaken (fun j' hj' => ?_) fun _ _ hr => hr) fun _ _ he => nomatch he.1
      obtain ⟨-, hclean, hh, _, rfl, hm, -⟩ := hj'
      exact ⟨by rw [hclean]; trivial, h.again _ (h.stable _ _ hamid hh hm)⟩
    · exact Paces.mono (paces_ofEnding fun j hj => hj) (Nat.zero_le _)

/-- **A delivery** ends with an attempt that has succeeded, or in a fault after attempts that have all
come to nothing. -/
theorem Serves.paces_withRetries (h : Serves P me c before amid after) (hmany : ¬ P.alone)
    (hothers : Oblivious P me) (limit : Rat) (count : Int) :
    Paces P me (2 * (count - 1).toNat + 1) (fun j => j.hand.Unarmed ∧ before j.shared)
      (withRetries (some limit) count c.make) fun r j =>
        j.hand.Unarmed ∧ Attempted amid after r j.shared :=
  h.paces_attempts hmany hothers limit _

end ChatCommands.Delivery
