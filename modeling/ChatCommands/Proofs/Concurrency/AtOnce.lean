import ChatCommands.Concurrency.Scheduler

/-!
Computations that come to an end at once.

A computation that does not wait takes the shared state from one value to another and ends, all within
one turn of its task; whatever comes after it goes on from there.
-/

namespace ChatCommands.Concurrency.Act

variable {σ ν α β : Type} {x : Act σ ν α} {s s₁ s₂ : σ}

/-- From the shared state `s` the computation comes to the ending `r` and the shared state `s'` without
waiting, in whatever task and with whatever comes after it. -/
def ComesTo (x : Act σ ν α) (s : σ) (r : Ending α) (s' : σ) : Prop :=
  ∀ (k : Ending α → Task σ ν) (me : Nat) (K : Scheduler σ ν), K.shared = s →
    Scheduler.exec me (x k) K = Scheduler.exec me (k r) { K with shared := s' }

theorem comesTo_ofEnding (r : Ending α) (s : σ) : ComesTo (ofEnding r : Act σ ν α) s r s := by
  rintro k me K rfl
  rfl

theorem comesTo_pure (a : α) (s : σ) : ComesTo (pure a : Act σ ν α) s (.ok a) s :=
  comesTo_ofEnding _ s

theorem comesTo_ofExcept (r : Except Fault α) (s : σ) :
    ComesTo (ofExcept r : Act σ ν α) s (r.mapError .fault) s := by
  cases r with
  | ok a => exact comesTo_pure a s
  | error f => exact comesTo_ofEnding _ s

theorem comesTo_gets (f : σ → α) (s : σ) : ComesTo (gets f : Act σ ν α) s (.ok (f s)) s := by
  rintro k me K rfl
  rfl

theorem comesTo_change (f : σ → α × σ) (s : σ) :
    ComesTo (change f : Act σ ν α) s (.ok (f s).1) (f s).2 := by
  rintro k me K rfl
  rfl

theorem comesTo_modify (f : σ → σ) (s : σ) :
    ComesTo (modify f : Act σ ν Unit) s (.ok ()) (f s) :=
  comesTo_change _ s

theorem ComesTo.bind {f : α → Act σ ν β} {a : α} {r : Ending β} (hx : ComesTo x s (.ok a) s₁)
    (hf : ComesTo (f a) s₁ r s₂) : ComesTo (x >>= f) s r s₂ := by
  intro k me K hs
  refine (hx _ me K hs).trans ?_
  exact hf k me { K with shared := s₁ } rfl

theorem ComesTo.bind_error {f : α → Act σ ν β} {e : Failure} (hx : ComesTo x s (.error e) s₁) :
    ComesTo (x >>= f) s (.error e) s₁ :=
  fun _ me K hs => hx _ me K hs

theorem ComesTo.attempt {r : Ending α} (hx : ComesTo x s r s₁) :
    ComesTo (attempt x) s (.ok r) s₁ :=
  fun _ me K hs => hx _ me K hs

theorem ComesTo.map {f : α → β} {r : Ending α} (hx : ComesTo x s r s₁) :
    ComesTo (f <$> x) s (r.map f) s₁ := by
  cases r with
  | ok a => exact hx.bind (comesTo_pure (f a) s₁)
  | error e => exact hx.bind_error

/-- **What a computation comes to is determined** by the state from which it starts. -/
theorem ComesTo.unique {r₁ r₂ : Ending α} (h₁ : ComesTo x s r₁ s₁) (h₂ : ComesTo x s r₂ s₂) :
    r₁ = r₂ ∧ s₁ = s₂ := by
  classical
  -- what comes after tells the first ending and state from all others: it makes a cell there
  let tell (r : Ending α) : Task σ ν := .look fun s' =>
    if r = r₁ ∧ s' = s₁ then .call (.newSignal 1 []) fun _ => .finish (.error .interrupted)
    else .finish (.error .interrupted)
  have hfinish : ∀ (K : Scheduler σ ν) (n : Nat), K.cells.size = n → K.task? 0 = none →
      (Scheduler.exec 0 (.finish (.error .interrupted)) K).2.cells.size = n := by
    intro K n hn hnone
    simp only [Scheduler.exec, Scheduler.finish, hnone]
    exact hn
  have hone := h₁ tell 0 { shared := s } rfl
  have htwo := h₂ tell 0 { shared := s } rfl
  refine Classical.byContradiction fun hne => ?_
  have hsome : (Scheduler.exec 0 (tell r₁) { ({ shared := s } : Scheduler σ ν) with
      shared := s₁ }).2.cells.size = 1 := by
    simp only [tell, Scheduler.exec, and_self, if_true]
    exact hfinish _ 1 rfl rfl
  have hnone : (Scheduler.exec 0 (tell r₂) { ({ shared := s } : Scheduler σ ν) with
      shared := s₂ }).2.cells.size = 0 := by
    simp only [tell, Scheduler.exec]
    rw [if_neg fun heq => hne ⟨heq.1.symm, heq.2.symm⟩]
    exact hfinish _ 0 rfl rfl
  rw [← hone, htwo, hnone] at hsome
  cases hsome

end ChatCommands.Concurrency.Act
