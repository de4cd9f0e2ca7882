import ChatCommands.Concurrency.Task

/-!
Invariants of the state that tasks share.

A regime says what holds of the shared state whenever no task has its turn, how a task may change
it, and what may happen to it during a wait.  A task keeps a regime if, whatever it is answered,
every change that it makes is allowed and what is to hold does hold at each of its waits and at its
end.  At a wait nothing is known of the other tasks but what the regime says.

The rules for `Act.Meets` follow the ways in which computations are put together: what a
computation comes to is found from what its parts come to.
-/

namespace ChatCommands.Concurrency

/-- What holds of a shared state whenever no task has its turn, and how the state may change. -/
structure Regime (σ : Type) where
  holds : σ → Prop
  /-- How a task may change the state. -/
  may : σ → σ → Prop
  /-- How the state may have changed by the end of a wait. -/
  meanwhile : σ → σ → Prop
  refl : ∀ s, meanwhile s s
  trans : ∀ {s₁ s₂ s₃}, meanwhile s₁ s₂ → meanwhile s₂ s₃ → meanwhile s₁ s₃

/-- During a wait there may happen what tasks may do. -/
def Regime.Mutual {σ : Type} (R : Regime σ) : Prop := ∀ s s', R.may s s' → R.meanwhile s s'

variable {σ ν α β : Type}

/-- The task keeps the regime from the state `s` on, and whenever it comes to its end, `Q` holds of
its ending and the state then. -/
def Task.Ends (R : Regime σ) : Task σ ν → (Q : Ending ν → σ → Prop) → (s : σ) → Prop
  | .finish r, Q, s => Q r s
  | .look next, Q, s => (next s).Ends R Q s
  | .put s' next, Q, s => R.may s s' ∧ next.Ends R Q s'
  | .call _ next, Q, s => ∀ reply, (next reply).Ends R Q s
  | .spawn _ body next, Q, s =>
    (∀ s', R.holds s' → R.meanwhile s s' → body.Ends R (fun _ => R.holds) s') ∧
      ∀ t, (next t).Ends R Q s
  | .watch _ reaction next, Q, s =>
    (∀ status s', R.holds s' → R.meanwhile s s' →
      (reaction status).Ends R (fun _ => R.holds) s') ∧ ∀ w, (next w).Ends R Q s
  | .wait _ next, Q, s =>
    R.holds s ∧ ∀ answer s', R.holds s' → R.meanwhile s s' → (next answer).Ends R Q s'

/-- The task keeps the regime from the state `s` on. -/
abbrev Task.Keeps (R : Regime σ) (t : Task σ ν) (s : σ) : Prop := t.Ends R (fun _ => R.holds) s

/-- What holds while a task waits, as long as the other tasks keep the regime. -/
structure Regime.Stable (R : Regime σ) (P : σ → Prop) : Prop where
  holds : ∀ s, P s → R.holds s
  keep : ∀ s s', P s → R.meanwhile s s' → R.holds s' → P s'

theorem Regime.stable_holds (R : Regime σ) : R.Stable R.holds :=
  ⟨fun _ h => h, fun _ _ _ _ h => h⟩

namespace Act

variable {R : Regime σ} {P : σ → Prop}

/-- From a state with `pre` the computation keeps the regime and ends as `post` says. -/
def Meets (R : Regime σ) (pre : σ → Prop) (x : Act σ ν α) (post : Ending α → σ → Prop) : Prop :=
  ∀ (k : Ending α → Task σ ν) (Q : Ending ν → σ → Prop) (s : σ), pre s →
    (∀ r s', post r s' → (k r).Ends R Q s') → (x k).Ends R Q s

/-- What held before the computation holds after it, however it ends. -/
abbrev Preserves (R : Regime σ) (P : σ → Prop) (x : Act σ ν α) : Prop := Meets R P x fun _ => P

/-- What held before the computation holds after it, and the computation does not fail. -/
abbrev Safe (R : Regime σ) (P : σ → Prop) (x : Act σ ν α) : Prop :=
  Meets R P x fun r s => (∃ a, r = .ok a) ∧ P s

variable {pre pre' : σ → Prop} {post post' : Ending α → σ → Prop} {x : Act σ ν α}

theorem Meets.weaken (h : Meets R pre x post) (hpre : ∀ s, pre' s → pre s)
    (hpost : ∀ r s, post r s → post' r s) : Meets R pre' x post' :=
  fun k Q s hs hk => h k Q s (hpre s hs) fun r s' hr => hk r s' (hpost r s' hr)

/-! ### Values and sequences -/

theorem preserves_ofEnding (r : Ending α) : Preserves R P (ofEnding r : Act σ ν α) :=
  fun _ _ s hs hk => hk r s hs

theorem preserves_pure (a : α) : Preserves R P (pure a : Act σ ν α) := preserves_ofEnding _

theorem preserves_throw (f : Fault) : Preserves R P (throw f : Act σ ν α) := preserves_ofEnding _

theorem preserves_ofExcept (r : Except Fault α) : Preserves R P (ofExcept r : Act σ ν α) := by
  cases r with
  | ok a => exact preserves_pure a
  | error f => exact preserves_throw f

theorem meets_bind {mid : Ending α → σ → Prop} {f : α → Act σ ν β}
    {post : Ending β → σ → Prop} (hx : Meets R pre x mid)
    (hf : ∀ a, Meets R (mid (.ok a)) (f a) post)
    (herr : ∀ e s, mid (.error e) s → post (.error e) s) : Meets R pre (x >>= f) post := by
  intro k Q s hs hk
  refine hx _ Q s hs fun r s' hr => ?_
  cases r with
  | ok a => exact hf a k Q s' hr hk
  | error e => exact hk _ s' (herr e s' hr)

theorem preserves_bind {f : α → Act σ ν β} (hx : Preserves R P x)
    (hf : ∀ a, Preserves R P (f a)) : Preserves R P (x >>= f) :=
  meets_bind hx hf fun _ _ h => h

theorem preserves_map {f : α → β} (hx : Preserves R P x) : Preserves R P (f <$> x) :=
  preserves_bind hx fun _ => preserves_pure _

theorem meets_attempt {post : Ending (Ending α) → σ → Prop}
    (h : Meets R pre x fun r => post (.ok r)) : Meets R pre (attempt x) post :=
  fun k Q s hs hk => h (fun r => k (.ok r)) Q s hs fun _ s' hr => hk _ s' hr

theorem preserves_attempt (h : Preserves R P x) : Preserves R P (attempt x) := meets_attempt h

theorem meets_recover {handle : Fault → Act σ ν α} {mid : Ending α → σ → Prop}
    (hx : Meets R pre x mid) (hok : ∀ a s, mid (.ok a) s → post (.ok a) s)
    (hpass : ∀ s, mid (.error .interrupted) s → post (.error .interrupted) s)
    (hh : ∀ f, Meets R (mid (.error (.fault f))) (handle f) post) :
    Meets R pre (recover x handle) post := by
  intro k Q s hs hk
  refine hx _ Q s hs fun r s' hr => ?_
  match r with
  | .ok a => exact hk _ s' (hok a s' hr)
  | .error (.fault f) => exact hh f k Q s' hr hk
  | .error .interrupted => exact hk _ s' (hpass s' hr)

theorem preserves_ensuring {last : Act σ ν Unit} (hx : Preserves R P x)
    (hl : Preserves R P last) : Preserves R P (ensuring x last) :=
  preserves_bind (preserves_attempt hx) fun _ => preserves_bind hl fun _ => preserves_ofEnding _

theorem preserves_ite {c : Prop} [Decidable c] {x y : Act σ ν α} (hx : Preserves R P x)
    (hy : Preserves R P y) : Preserves R P (if c then x else y) := by
  split
  · exact hx
  · exact hy

/-! ### Computations that do not fail -/

theorem safe_pure (a : α) : Safe R P (pure a : Act σ ν α) :=
  fun _ _ s hs hk => hk _ s ⟨⟨a, rfl⟩, hs⟩

theorem safe_bind {f : α → Act σ ν β} (hx : Safe R P x) (hf : ∀ a, Safe R P (f a)) :
    Safe R P (x >>= f) := by
  refine meets_bind hx (fun a => (hf a).weaken (fun _ h => h.2) fun _ _ h => h) fun e s h => ?_
  obtain ⟨⟨a, ha⟩, -⟩ := h
  cases ha

theorem safe_ite {c : Prop} [Decidable c] {x y : Act σ ν α} (hx : Safe R P x) (hy : Safe R P y) :
    Safe R P (if c then x else y) := by
  split
  · exact hx
  · exact hy

theorem safe_call (c : Call ν) : Safe R P (call c : Act σ ν c.Reply) :=
  fun _ _ s hs hk reply => hk _ s ⟨⟨reply, rfl⟩, hs⟩

/-- After a look at the shared state something may be known of what was seen. -/
theorem meets_gets_bind {g : σ → α} {f : α → Act σ ν β} {post : Ending β → σ → Prop}
    (hf : ∀ a, (∃ s, pre s ∧ g s = a) → Meets R pre (f a) post) :
    Meets R pre (gets g >>= f) post :=
  fun k Q s hs hk => hf (g s) ⟨s, hs, rfl⟩ k Q s hs hk

/-- What comes after a computation that does not fail. -/
theorem Safe.meets_bind {f : α → Act σ ν β} {post : Ending β → σ → Prop} (hx : Safe R P x)
    (hf : ∀ a, Meets R P (f a) post) : Meets R P (x >>= f) post := by
  refine Act.meets_bind hx (fun a => (hf a).weaken (fun _ h => h.2) fun _ _ h => h) fun e s h => ?_
  obtain ⟨⟨a, ha⟩, -⟩ := h
  cases ha

/-! ### The shared state -/

theorem preserves_gets (f : σ → α) : Preserves R P (gets f : Act σ ν α) :=
  fun _ _ s hs hk => hk _ s hs

theorem meets_change {f : σ → α × σ} (hmay : ∀ s, pre s → R.may s (f s).2)
    (hpost : ∀ s, pre s → post (.ok (f s).1) (f s).2) :
    Meets R pre (change f : Act σ ν α) post :=
  fun _ _ s hs hk => ⟨hmay s hs, hk _ _ (hpost s hs)⟩

theorem preserves_change {f : σ → α × σ} (hmay : ∀ s, P s → R.may s (f s).2)
    (hpost : ∀ s, P s → P (f s).2) : Preserves R P (change f : Act σ ν α) :=
  meets_change hmay hpost

/-! ### Primitive steps -/

theorem preserves_call (c : Call ν) : Preserves R P (call c : Act σ ν c.Reply) :=
  fun _ _ s hs hk reply => hk (.ok reply) s hs

theorem preserves_newSignal : Preserves R P (newSignal : Act σ ν Nat) := preserves_call _

theorem preserves_wait (hP : R.Stable P) (what : Awaited) :
    Preserves R P (wait what : Act σ ν Unit) := by
  intro k Q s hs hk
  refine ⟨hP.holds s hs, fun answer s' hh hm => ?_⟩
  cases answer <;> exact hk _ s' (hP.keep s s' hs hm hh)

theorem keeps_toTask (hP : R.Stable P) {toValue : α → ν} (hx : Preserves R P x) {s s' : σ}
    (hs : P s) (hh : R.holds s') (hm : R.meanwhile s s') :
    (toTask toValue x).Keeps R s' :=
  hx _ _ s' (hP.keep s s' hs hm hh) fun _ s'' h => hP.holds s'' h

theorem preserves_spawn (hP : R.Stable P) {toValue : α → ν} (hx : Preserves R P x) :
    Preserves R P (spawn toValue x : Act σ ν Nat) :=
  fun _ _ s hs hk => ⟨fun _ hh hm => keeps_toTask hP hx hs hh hm, fun t => hk (.ok t) s hs⟩

theorem preserves_spawnForever (hP : R.Stable P) {value : ν} {x : Act σ ν Unit}
    (hx : Preserves R P x) : Preserves R P (spawnForever value x : Act σ ν Nat) :=
  fun _ _ s hs hk => ⟨fun _ hh hm => keeps_toTask hP hx hs hh hm, fun t => hk (.ok t) s hs⟩

theorem preserves_watch (hP : R.Stable P) {value : ν} {cell : Nat}
    {x : CellStatus ν → Act σ ν Unit} (hx : ∀ status, Preserves R P (x status)) :
    Preserves R P (watch value cell x : Act σ ν Nat) :=
  fun _ _ s hs hk =>
    ⟨fun status _ hh hm => keeps_toTask hP (hx status) hs hh hm, fun w => hk (.ok w) s hs⟩

/-! ### Waiting -/

theorem preserves_yield (hP : R.Stable P) : Preserves R P (yield : Act σ ν Unit) :=
  preserves_wait hP _

theorem preserves_sleep (hP : R.Stable P) (d : Option Rat) :
    Preserves R P (sleep d : Act σ ν Unit) := by
  unfold sleep
  split
  · exact preserves_bind preserves_newSignal fun _ => preserves_wait hP _
  · split
    · exact preserves_yield hP
    · exact preserves_bind preserves_newSignal fun _ => preserves_bind (preserves_call _) fun _ =>
        preserves_ensuring (preserves_wait hP _) (preserves_call _)

end Act

end ChatCommands.Concurrency
