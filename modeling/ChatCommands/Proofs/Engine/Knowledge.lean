import ChatCommands.Proofs.Concurrency.Reachable
import ChatCommands.Proofs.Engine.Chronicle

/-!
What the task of a message knows of the history.

The task that handles a message takes a number for it and notes nothing under another number.  So at
each of its waits it knows which deeds of the message there are, whatever the other tasks have done
meanwhile.  Between its waits it adds deeds one by one.
-/

namespace ChatCommands.Engine

open Concurrency Cooldown Act

variable {ω α β : Type} {e : Setup ω} {genuine : RunResult → Prop}

/-- The collaborators of an engine leave its work alone. -/
abbrev Setup.Sealed (e : Setup ω) : Prop := e.Within fun x => x.Avoids World.docket

/-! ### The charter -/

/-- The count of messages and the limiter are as the deeds say. -/
structure Kept (e : Setup ω) (d : Docket) : Prop where
  messages : d.messages = takenIn d.deeds
  limiter : d.limiter = limiterAfter e.cooldowns d.deeds

/-- Deeds are added, all under numbers with `p` if under any. -/
def Adds (p : Nat → Prop) (ds ds' : List Deed) : Prop :=
  ∃ new, ds' = new ++ ds ∧ ∀ d ∈ new, ∀ i, d.number? = some i → p i

theorem Adds.refl (p : Nat → Prop) (ds : List Deed) : Adds p ds ds := ⟨[], rfl, by simp⟩

theorem Adds.trans {p : Nat → Prop} {ds₁ ds₂ ds₃ : List Deed} (h₁ : Adds p ds₁ ds₂)
    (h₂ : Adds p ds₂ ds₃) : Adds p ds₁ ds₃ := by
  obtain ⟨new₁, rfl, hnew₁⟩ := h₁
  obtain ⟨new₂, rfl, hnew₂⟩ := h₂
  refine ⟨new₂ ++ new₁, (List.append_assoc ..).symm, fun d hd => ?_⟩
  rcases List.mem_append.mp hd with hd | hd
  · exact hnew₂ d hd
  · exact hnew₁ d hd

theorem Adds.imp {p q : Nat → Prop} {ds ds' : List Deed} (h : Adds p ds ds')
    (hpq : ∀ i, p i → q i) : Adds q ds ds' := by
  obtain ⟨new, heq, hnew⟩ := h
  exact ⟨new, heq, fun d hd i hi => hpq i (hnew d hd i hi)⟩

/-- The deeds are a chronicle, and a deed is added under a number by the holder of the number
only. -/
def workCharter (e : Setup ω) (genuine : RunResult → Prop) : Charter (World ω) where
  holds w := Kept e w.docket ∧ Chronicle e genuine w.docket.deeds
  taken w := w.docket.messages
  may n w w' := w.docket.messages ≤ w'.docket.messages ∧
    Adds (fun i => n = some i) w.docket.deeds w'.docket.deeds
  meanwhile n w w' := Adds (fun i => n ≠ some i) w.docket.deeds w'.docket.deeds
  refl _ _ := Adds.refl _ _
  trans := Adds.trans

theorem workCharter_lawful : (workCharter e genuine).Lawful where
  grows h := h.1
  apart h hne := h.2.imp fun i hi => hne i hi

theorem about_docket (P : Docket → Prop) : About World.docket fun w : World ω => P w.docket := by
  intro w w' heq h
  rwa [heq] at h

theorem workCharter_about : (workCharter e genuine).About World.docket where
  holds := about_docket fun d => Kept e d ∧ Chronicle e genuine d.deeds
  may n w w' heq := by
    change w.docket.messages ≤ w'.docket.messages ∧ Adds _ w.docket.deeds w'.docket.deeds
    rw [heq]
    exact ⟨Nat.le_refl _, Adds.refl _ _⟩

/-! ### What the holder of a number knows -/

/-- The holder of `n` knows `P` of the deeds. -/
def Knows (e : Setup ω) (n : Nat) (P : List Deed → Prop) (ρ : Role) (w : World ω) : Prop :=
  ρ = .holder n ∧ Kept e w.docket ∧ P w.docket.deeds

/-- What is not affected by the deeds about other messages. -/
def Lasting (n : Nat) (P : List Deed → Prop) : Prop :=
  ∀ ds new, (∀ d ∈ new, d.number? ≠ some n) → P ds → P (new ++ ds)

theorem ownDeeds_of_others {n : Nat} {new : List Deed} (h : ∀ d ∈ new, d.number? ≠ some n)
    (ds : List Deed) : ownDeeds n (new ++ ds) = ownDeeds n ds := by
  rw [ownDeeds_append, ownDeeds_eq_nil.mpr h, List.nil_append]

theorem lasting_own {n : Nat} (own : List Deed) : Lasting n fun ds => ownDeeds n ds = own := by
  intro ds new hnew h
  rw [ownDeeds_of_others hnew, h]

/-- At a wait the deeds are a chronicle. -/
abbrev Rests (e : Setup ω) (genuine : RunResult → Prop) (n : Nat) (P : List Deed → Prop) :
    Role → World ω → Prop :=
  Knows e n fun ds => Chronicle e genuine ds ∧ P ds

theorem Knows.imp {n : Nat} {P Q : List Deed → Prop} (hPQ : ∀ ds, P ds → Q ds) {ρ : Role}
    {w : World ω} (h : Knows e n P ρ w) : Knows e n Q ρ w :=
  ⟨h.1, h.2.1, hPQ _ h.2.2⟩

theorem Rests.chronicle {n : Nat} {P : List Deed → Prop} {ρ : Role} {w : World ω}
    (h : Rests e genuine n P ρ w) : Knows e n (Chronicle e genuine) ρ w :=
  Knows.imp (fun _ hds => hds.1) h

theorem Rests.holds {n : Nat} {P : List Deed → Prop} {ρ : Role} {w : World ω}
    (h : Rests e genuine n P ρ w) : (workCharter e genuine).holds w :=
  ⟨h.2.1, h.2.2.1⟩

theorem rests_stable {n : Nat} {P : List Deed → Prop} (hP : Lasting n P) (ρ : Role) :
    (workCharter e genuine).Stable ρ.number? (Rests e genuine n P ρ) where
  holds _ h := h.holds
  keep := by
    rintro w w' ⟨rfl, -, -, hknown⟩ ⟨new, hdeeds, hnew⟩ hholds
    refine ⟨rfl, hholds.1, hholds.2, ?_⟩
    rw [hdeeds]
    exact hP _ new (fun d hd hnumber => hnew d hd n hnumber rfl) hknown

section

variable {n : Nat} {m : Message} {P Q : List Deed → Prop} {ρ₀ : Role}

/-- What avoids the work keeps what lasts. -/
theorem fulfils_rests {x : Action ω α} (hx : x.Avoids World.docket) (hP : Lasting n P) :
    Fulfils (workCharter e genuine) (Rests e genuine n P) x fun _ => Rests e genuine n P :=
  hx.fulfils workCharter_about (rests_stable hP) fun ρ =>
    about_docket fun d => ρ = .holder n ∧ Kept e d ∧ Chronicle e genuine d.deeds ∧ P d.deeds

/-- What avoids the work keeps the charter. -/
theorem fulfils_holds {x : Action ω α} (hx : x.Avoids World.docket) :
    Fulfils (workCharter e genuine) (fun ρ w => ρ = ρ₀ ∧ (workCharter e genuine).holds w) x
      fun _ ρ w => ρ = ρ₀ ∧ (workCharter e genuine).holds w :=
  hx.fulfils workCharter_about
    (fun _ => ⟨fun _ h => h.2, fun _ _ h _ hholds => ⟨h.1, hholds⟩⟩) fun ρ =>
    about_docket fun d => ρ = ρ₀ ∧ Kept e d ∧ Chronicle e genuine d.deeds

/-- The change of the state is the deed. -/
def Does (e : Setup ω) (d : Deed) (w w' : World ω) : Prop :=
  w'.docket = ⟨w.docket.messages, effect e.cooldowns d w.docket.limiter, d :: w.docket.deeds⟩

theorem does_note {d : Deed} (hwork : d.aboutWork = true)
    (heffect : ∀ l, effect e.cooldowns d l = l) (w : World ω) :
    Does e d w { w with deeds := d :: w.deeds } := by
  simp [Does, World.docket, hwork, heffect]

/-- A deed of one's own, other than a receipt. -/
theorem Knows.does {d : Deed} (hreceipt : d.isReceipt = false)
    (hn : d.number? = none ∨ d.number? = some n) (hPQ : ∀ ds, P ds → Q (d :: ds)) {ρ : Role}
    {w w' : World ω} (hdoes : Does e d w w') (h : Knows e n P ρ w) :
    (workCharter e genuine).may ρ.number? w w' ∧ Knows e n Q ρ w' := by
  obtain ⟨rfl, hkept, hP⟩ := h
  have hmessages : w'.docket.messages = w.docket.messages := by rw [hdoes]
  have hlimiter : w'.docket.limiter = effect e.cooldowns d w.docket.limiter := by rw [hdoes]
  have hdeeds : w'.docket.deeds = d :: w.docket.deeds := by rw [hdoes]
  refine ⟨⟨Nat.le_of_eq hmessages.symm, [d], hdeeds, ?_⟩, rfl, ⟨?_, ?_⟩, ?_⟩
  · intro d' hd' i hi
    obtain rfl := List.mem_singleton.mp hd'
    rcases hn with hnone | hself
    · cases hnone.symm.trans hi
    · exact hself.symm.trans hi
  · rw [hmessages, hdeeds, hkept.messages, takenIn, takenIn,
      List.countP_cons_of_neg (by simp [hreceipt])]
  · rw [hlimiter, hdeeds, hkept.limiter, limiterAfter_cons]
  · rw [hdeeds]
    exact hPQ _ hP

/-- After a deed of one's own the computation goes on. -/
theorem fulfils_deed_bind {d : Deed} {f : World ω → World ω} {y : Action ω β}
    {post : Ending β → Role → World ω → Prop} (hreceipt : d.isReceipt = false)
    (hn : d.number? = none ∨ d.number? = some n) (hdoes : ∀ w, Does e d w (f w))
    (hPQ : ∀ ds, P ds → Q (d :: ds)) (hy : Fulfils (workCharter e genuine) (Knows e n Q) y post) :
    Fulfils (workCharter e genuine) (Knows e n P) (do modify f; y) post :=
  fulfils_modify_bind (fun _ w h => h.does hreceipt hn hPQ (hdoes w)) hy

/-- After a log record the computation goes on. -/
theorem fulfils_log_bind {f : World ω → World ω} {y : Action ω β}
    {post : Ending β → Role → World ω → Prop} (hf : ∀ w, (f w).docket = w.docket)
    (hy : Fulfils (workCharter e genuine) (Knows e n P) y post) :
    Fulfils (workCharter e genuine) (Knows e n P) (do modify f; y) post := by
  refine fulfils_modify_bind (fun ρ w h => ⟨workCharter_about.may _ _ _ (hf w).symm, ?_⟩) hy
  unfold Knows at h ⊢
  rwa [hf]

end

end ChatCommands.Engine
