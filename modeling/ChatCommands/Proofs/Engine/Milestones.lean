import ChatCommands.Proofs.Engine.History

/-!
The milestones of messages, and the parts of an engine that leave them alone.

A message is received, listed and concluded.  What an engine does between that, for the limiter, for
the review, in the pool and in the background, is of every kind that its collaborators are of.
-/

namespace ChatCommands

open Concurrency Act Engine

variable {ω α τ : Type}

/-- The deed marks how far the message with its number has come. -/
def Deed.isMilestone : Deed → Bool
  | .received .. | .listed .. | .concluded .. => true
  | _ => false

/-- The milestones of an engine, latest first. -/
def World.milestones (w : World ω) : List Deed := w.deeds.filter Deed.isMilestone

theorem World.milestones_eq_of_docket {w w' : World ω} (h : w.docket = w'.docket) :
    w.milestones = w'.milestones := by
  have hdeeds : w.deeds.filter Deed.aboutWork = w'.deeds.filter Deed.aboutWork :=
    congrArg Docket.deeds h
  have hwork : ∀ ds : List Deed,
      (ds.filter Deed.aboutWork).filter Deed.isMilestone = ds.filter Deed.isMilestone := by
    intro ds
    rw [List.filter_filter]
    exact List.filter_congr fun d _ => by cases d <;> rfl
  rw [milestones, milestones, ← hwork w.deeds, hdeeds, hwork w'.deeds]

/-- A view that shows of an engine nothing but how many messages it has taken in, milestones, what is
outside of it, its caches, and the records that work has failed. -/
class Distant (view : World ω → τ) : Prop where
  eq_of : ∀ {w w' : World ω}, w.messages = w'.messages → w.milestones = w'.milestones →
    w.env = w'.env → w.cachedCommands = w'.cachedCommands → w.cachedSigils = w'.cachedSigils →
      w.failures = w'.failures → view w = view w'

instance Distant.narrow {view : World ω → τ} [Distant view] : Narrow view where
  eq_of hdocket :=
    Distant.eq_of (congrArg Docket.messages hdocket) (World.milestones_eq_of_docket hdocket)

namespace Concurrency.Act.Closed

variable {K : {α : Type} → Action ω α → Prop} {view : World ω → τ} [Distant view]
  (h : Closed view @K) {e : Setup ω}

include h

theorem noteBetween (d : Deed) (hd : d.isMilestone = false) : K (Action.note d) := by
  refine h.modify fun w => Distant.eq_of rfl ?_ rfl rfl rfl rfl
  simp [World.milestones, hd]

theorem reserve (m : Message) (c : Command) : K (Engine.reserve e m c) :=
  h.change fun _ => Distant.eq_of rfl rfl rfl rfl rfl rfl

theorem commit (r : Cooldown.Reservation) : K (Engine.commit e r) :=
  h.modify fun _ => Distant.eq_of rfl rfl rfl rfl rfl rfl

theorem release (r : Option Cooldown.Reservation) : K (Engine.release r) := by
  cases r with
  | none => exact h.pure ()
  | some r => exact h.modify fun _ => Distant.eq_of rfl rfl rfl rfl rfl rfl

theorem run (hrs : e.runtimes.Within K) (n : Nat) (m : Message) (c : Command) (l : Language) :
    K (Engine.run e n m c l) := by
  have hnote : ∀ call, K (Action.note (.entered n call)) := fun _ => h.noteBetween _ rfl
  exact h.execute (hrs.watched h hnote) _ _ _ _

theorem start (hrs : e.runtimes.Within K) (n : Nat) (m : Message) (c : Command)
    (r : Option Cooldown.Reservation) : K (Engine.start e n m c r) := by
  unfold Engine.start
  split
  · exact h.bind (h.log rfl) fun _ => h.pure _
  · rename_i l _
    have hrest := h.bind (h.noteBetween (.started m c r) rfl) fun _ =>
      h.bind (h.attempt (h.run hrs n m c l)) fun ending =>
        h.pure ((⟨some c, r, 0⟩, ending.map some) : Staged)
    cases r with
    | none => exact hrest
    | some r => exact h.bind (h.commit r) fun _ => hrest

theorem reviewThen [Unlogged view] (hrs : e.runtimes.Within K) (n : Nat) (m : Message) (c : Command)
    (r : Option Cooldown.Reservation) : K (Engine.reviewThen e n m c r) := by
  unfold Engine.reviewThen
  split
  · exact h.pure _
  · exact h.bind (h.logAll _) fun _ => h.ite (h.start hrs n m c r) (h.bind (h.log rfl) fun _ => h.pure _)

theorem requestRun [Unlogged view] (hrs : e.runtimes.Within K) (n : Nat) (m : Message) (c : Command) :
    K (Engine.requestRun e n m c) :=
  h.bind (h.reserve m c) fun _ => h.ite (h.reviewThen hrs n m c _) (h.bind (h.log rfl) fun _ => h.pure _)

omit [Distant view] in
theorem bounded {stage : Action ω Staged} (hstage : K stage) (limit : Option Rat) :
    K (Engine.bounded limit stage) := by
  unfold Engine.bounded
  split
  · exact hstage
  · refine h.bind (h.call _ rfl) fun _ => h.bind hstage fun _ => h.bind (h.call _ rfl) fun _ => ?_
    split
    · exact h.pure _
    · exact h.pure _

/-! ### The life of an engine -/

theorem prune : K (Engine.prune e) :=
  h.bind (h.change fun _ => Distant.eq_of rfl rfl rfl rfl rfl rfl) fun _ =>
    h.ite (h.bind (h.log rfl) fun _ => h.pure _) (h.pure _)

theorem sweep : K (Engine.sweep e) :=
  h.bind (h.sleep _) fun _ => h.bind h.prune fun _ => h.pure ()

theorem startSweeper : K (Engine.startSweeper e) :=
  h.bind (h.gets _) fun _ =>
    h.ite (h.bind (h.spawnForever h.sweep) fun t => h.afterStart t) (h.pure ())

theorem dispatch {m : Message} (hm : K (Engine.handle e m)) : K (Engine.dispatch e m) :=
  h.bind (h.spawn hm) fun t => h.afterDispatch t

end Concurrency.Act.Closed

/-! ### What comes to an engine -/

namespace Engine

/-- A task that comes to an engine: one that has the engine do something, or any other that leaves
the work alone and is of a kind. -/
inductive Setup.Chore (e : Setup ω) (K : {α : Type} → Action ω α → Prop) :
    Concurrency.Task (World ω) Product → Prop
  | handle (toValue : Option Outcome → Product) (m : Message) :
    e.Chore K (toTask toValue (Engine.handle e m))
  | dispatch (toValue : Unit → Product) (m : Message) :
    e.Chore K (toTask toValue (Engine.dispatch e m))
  | prune (toValue : Nat → Product) : e.Chore K (toTask toValue (Engine.prune e))
  | startSweeper (toValue : Unit → Product) : e.Chore K (toTask toValue (Engine.startSweeper e))
  | stop (toValue : Unit → Product) : e.Chore K (toTask toValue Engine.stop)
  | enable (toValue : Unit → Product) : e.Chore K (toTask toValue Engine.enable)
  | disable (toValue : Unit → Product) : e.Chore K (toTask toValue Engine.disable)
  | other {α : Type} (toValue : α → Product) {x : Action ω α} (hx : x.Avoids World.docket)
    (hK : K x) : e.Chore K (toTask toValue x)

variable {e : Setup ω} {K K' : {α : Type} → Action ω α → Prop}
  {t : Concurrency.Task (World ω) Product}

theorem Setup.Chore.errand (h : e.Chore K t) : e.Errand t := by
  cases h with
  | handle toValue m => exact .handle toValue m
  | dispatch toValue m => exact .dispatch toValue m
  | prune toValue => exact .prune toValue
  | startSweeper toValue => exact .startSweeper toValue
  | stop toValue => exact .stop toValue
  | enable toValue => exact .enable toValue
  | disable toValue => exact .disable toValue
  | other toValue hx _ => exact .other toValue hx

/-- If handling a message is of a kind then so is all that comes to the engine. -/
theorem Setup.Chore.within {view : World ω → τ} [Distant view] (hK : Closed view @K)
    (hhandle : ∀ m, K (Engine.handle e m)) (hother : ∀ {α : Type} {x : Action ω α}, K' x → K x)
    (h : e.Chore K' t) : ∃ (α : Type) (toValue : α → Product) (x : Action ω α),
      K x ∧ t = toTask toValue x := by
  cases h with
  | handle toValue m => exact ⟨_, toValue, _, hhandle m, rfl⟩
  | dispatch toValue m => exact ⟨_, toValue, _, hK.dispatch (hhandle m), rfl⟩
  | prune toValue => exact ⟨_, toValue, _, hK.prune, rfl⟩
  | startSweeper toValue => exact ⟨_, toValue, _, hK.startSweeper, rfl⟩
  | stop toValue => exact ⟨_, toValue, _, hK.stop, rfl⟩
  | enable toValue => exact ⟨_, toValue, _, hK.enable, rfl⟩
  | disable toValue => exact ⟨_, toValue, _, hK.disable, rfl⟩
  | other toValue _ hx => exact ⟨_, toValue, _, hother hx, rfl⟩

end Engine

end ChatCommands
