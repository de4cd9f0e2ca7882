import ChatCommands.Registry.Cache

/-!
What a cache holds: the values under its keys once another value was set, or keys were taken away.
-/

namespace ChatCommands.Registry

open Concurrency

variable {ω β : Type}

/-- What a registry is asked about. -/
inductive Matter
  | commands
  | sigil
  deriving DecidableEq

/-- What a registry tells. -/
inductive Told
  | commands (cs : List Command)
  | sigil (s : Option Text)
  deriving DecidableEq

/-- What it is about. -/
def Told.matter : Told → Matter
  | commands _ => .commands
  | sigil _ => .sigil

/-- Forgetting what is cached for a tenant, or everything, is about the tenant. -/
def Covers (forgotten : Option Text) (tenant : Text) : Prop :=
  forgotten = none ∨ forgotten = some tenant

instance (forgotten : Option Text) (tenant : Text) : Decidable (Covers forgotten tenant) :=
  inferInstanceAs (Decidable (_ ∨ _))

theorem lookup_assign_self (t : Text) (v : β) (l : List (Text × β)) :
    (Store.assign t v l).lookup t = some v := by
  induction l with
  | nil => simp [Store.assign]
  | cons x l ih =>
    obtain ⟨k, u⟩ := x
    unfold Store.assign
    split
    · rename_i heq
      subst heq
      simp
    · rename_i hne
      have hne' : (t == k) = false := by simpa using fun h => hne h.symm
      rw [List.lookup_cons, hne']
      exact ih

theorem lookup_assign_of_ne {t t' : Text} (h : t' ≠ t) (v : β) (l : List (Text × β)) :
    (Store.assign t v l).lookup t' = l.lookup t' := by
  induction l with
  | nil =>
    simp [Store.assign, h]
  | cons x l ih =>
    obtain ⟨k, u⟩ := x
    unfold Store.assign
    split
    · rename_i heq
      subst heq
      have hne : (t' == k) = false := by simpa using h
      rw [List.lookup_cons, List.lookup_cons, hne]
    · rw [List.lookup_cons, List.lookup_cons, ih]

theorem lookup_filter_ne (t t' : Text) (l : List (Text × β)) :
    (l.filter fun x => x.1 ≠ t).lookup t' = if t' = t then none else l.lookup t' := by
  induction l with
  | nil => simp
  | cons x l ih =>
    obtain ⟨k, u⟩ := x
    by_cases hk : k = t
    · subst hk
      rw [List.filter_cons_of_neg (by simp), ih, List.lookup_cons]
      by_cases ht : t' = k
      · simp [ht]
      · simp [ht, show (t' == k) = false by simpa using ht]
    · rw [List.filter_cons_of_pos (by simpa using hk), List.lookup_cons, List.lookup_cons, ih]
      by_cases ht : t' = k
      · subst ht
        simp [hk]
      · simp [show (t' == k) = false by simpa using ht]

/-- The state once the cache was made to forget. -/
def forgetting (tenant : Option Text) (w : World ω) : World ω :=
  match tenant with
  | none => { w with cachedCommands := [], cachedSigils := [] }
  | some t =>
    { w with
      cachedCommands := w.cachedCommands.filter fun c => c.1 ≠ t
      cachedSigils := w.cachedSigils.filter fun c => c.1 ≠ t }

theorem invalidate_eq (tenant : Option Text) :
    (invalidate tenant : Action ω Unit) = Act.modify (forgetting tenant) :=
  rfl

theorem forgetting_env (tenant : Option Text) (w : World ω) :
    (forgetting tenant w).env = w.env := by
  cases tenant <;> rfl

theorem lookup_forgetting_commands (tenant : Option Text) (w : World ω) (t : Text) :
    (forgetting tenant w).cachedCommands.lookup t =
      if Covers tenant t then none else w.cachedCommands.lookup t := by
  cases tenant with
  | none => simp [forgetting, Covers]
  | some t' =>
    refine (lookup_filter_ne t' t _).trans ?_
    simp [Covers, eq_comm]

theorem lookup_forgetting_sigils (tenant : Option Text) (w : World ω) (t : Text) :
    (forgetting tenant w).cachedSigils.lookup t =
      if Covers tenant t then none else w.cachedSigils.lookup t := by
  cases tenant with
  | none => simp [forgetting, Covers]
  | some t' =>
    refine (lookup_filter_ne t' t _).trans ?_
    simp [Covers, eq_comm]

end ChatCommands.Registry
