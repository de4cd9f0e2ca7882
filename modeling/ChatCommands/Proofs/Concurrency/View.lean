import ChatCommands.Proofs.Concurrency.Closed
import ChatCommands.Proofs.Concurrency.Regime

/-!
Computations that leave a part of the shared state alone.

A view is a part of the shared state.  A computation leaves it alone if it keeps every regime that
is about this part only, and with it all that holds of the part while others keep the regime.  A
quiet computation does not wait either; so it preserves whatever holds of the part.
-/

namespace ChatCommands.Concurrency

variable {σ ν α β τ : Type} {view : σ → τ}

/-- A property of the shared state that depends on a part of it only. -/
def About (view : σ → τ) (P : σ → Prop) : Prop := ∀ s s', view s = view s' → P s → P s'

/-- A regime about a part of the shared state: the rest may be anything and may change. -/
structure Regime.About (R : Regime σ) (view : σ → τ) : Prop where
  holds : Concurrency.About view R.holds
  may : ∀ s s', view s = view s' → R.may s s'

namespace Act

/-- The computation leaves a part of the shared state alone. -/
def Leaves (view : σ → τ) (x : Act σ ν α) : Prop :=
  ∀ (R : Regime σ) (P : σ → Prop), R.About view → About view P → R.Stable P → Preserves R P x

/-- The computation leaves a part of the shared state alone and does not wait. -/
def Quiet (view : σ → τ) (x : Act σ ν α) : Prop :=
  ∀ (R : Regime σ) (P : σ → Prop), R.About view → About view P → Preserves R P x

theorem Quiet.leaves {x : Act σ ν α} (h : Quiet view x) : Leaves view x :=
  fun R P hR hP _ => h R P hR hP

/-- What leaves more alone leaves less alone. -/
theorem Leaves.mono {τ' : Type} {view' : σ → τ'} {x : Act σ ν α} (h : Leaves view x)
    (hview : ∀ s s', view s = view s' → view' s = view' s') : Leaves view' x :=
  fun R P hR hP hS => h R P
    ⟨fun s s' heq => hR.holds s s' (hview s s' heq), fun s s' heq => hR.may s s' (hview s s' heq)⟩
    (fun s s' heq => hP s s' (hview s s' heq)) hS

variable {x : Act σ ν α}

/-! ### Quiet computations -/

theorem quiet_ofEnding (r : Ending α) : Quiet view (ofEnding r : Act σ ν α) :=
  fun _ _ _ _ => preserves_ofEnding r

theorem quiet_pure (a : α) : Quiet view (pure a : Act σ ν α) := quiet_ofEnding _

theorem quiet_fail (f : Failure) : Quiet view (fail f : Act σ ν α) := quiet_ofEnding _

theorem quiet_throw (f : Fault) : Quiet view (throw f : Act σ ν α) := quiet_ofEnding _

theorem quiet_bind {f : α → Act σ ν β} (hx : Quiet view x) (hf : ∀ a, Quiet view (f a)) :
    Quiet view (x >>= f) :=
  fun R P hR hP => preserves_bind (hx R P hR hP) fun a => hf a R P hR hP

theorem quiet_ite {c : Prop} [Decidable c] {x y : Act σ ν α} (hx : Quiet view x)
    (hy : Quiet view y) : Quiet view (if c then x else y) :=
  fun R P hR hP => preserves_ite (hx R P hR hP) (hy R P hR hP)

theorem quiet_gets (f : σ → α) : Quiet view (gets f : Act σ ν α) :=
  fun _ _ _ _ => preserves_gets f

theorem quiet_change {f : σ → α × σ} (hf : ∀ s, view s = view (f s).2) :
    Quiet view (change f : Act σ ν α) :=
  fun _ _ hR hP => preserves_change (fun s _ => hR.may s _ (hf s)) fun s hs => hP s _ (hf s) hs

theorem quiet_modify {f : σ → σ} (hf : ∀ s, view s = view (f s)) :
    Quiet view (modify f : Act σ ν Unit) :=
  quiet_change hf

theorem quiet_call (c : Call ν) : Quiet view (call c : Act σ ν c.Reply) :=
  fun _ _ _ _ => preserves_call c

/-! ### Computations that do not fail -/

/-- The computation leaves a part of the shared state alone, does not wait, and does not fail. -/
def Sure (view : σ → τ) (x : Act σ ν α) : Prop :=
  ∀ (R : Regime σ) (P : σ → Prop), R.About view → About view P → Safe R P x

theorem Sure.quiet (h : Sure view x) : Quiet view x :=
  fun R P hR hP => (h R P hR hP).weaken (fun _ hs => hs) fun _ _ hr => hr.2

theorem Sure.leaves (h : Sure view x) : Leaves view x := h.quiet.leaves

theorem sure_pure (a : α) : Sure view (pure a : Act σ ν α) := fun _ _ _ _ => safe_pure a

theorem sure_bind {f : α → Act σ ν β} (hx : Sure view x) (hf : ∀ a, Sure view (f a)) :
    Sure view (x >>= f) :=
  fun R P hR hP => safe_bind (hx R P hR hP) fun a => hf a R P hR hP

theorem sure_ite {c : Prop} [Decidable c] {x y : Act σ ν α} (hx : Sure view x)
    (hy : Sure view y) : Sure view (if c then x else y) :=
  fun R P hR hP => safe_ite (hx R P hR hP) (hy R P hR hP)

theorem sure_gets (f : σ → α) : Sure view (gets f : Act σ ν α) :=
  fun _ _ _ _ _ _ s hs hk => hk _ s ⟨⟨_, rfl⟩, hs⟩

theorem sure_change {f : σ → α × σ} (hf : ∀ s, view s = view (f s).2) :
    Sure view (change f : Act σ ν α) :=
  fun _ _ hR hP => meets_change (fun s _ => hR.may s _ (hf s)) fun s hs =>
    ⟨⟨_, rfl⟩, hP s _ (hf s) hs⟩

theorem sure_modify {f : σ → σ} (hf : ∀ s, view s = view (f s)) :
    Sure view (modify f : Act σ ν Unit) :=
  sure_change hf

theorem sure_call (c : Call ν) : Sure view (call c : Act σ ν c.Reply) :=
  fun _ _ _ _ _ _ s hs hk reply => hk _ s ⟨⟨reply, rfl⟩, hs⟩

theorem sure_forM {f : β → Act σ ν Unit} (hf : ∀ b, Sure view (f b)) (bs : List β) :
    Sure view (bs.forM f) := by
  induction bs with
  | nil => exact sure_pure ()
  | cons b bs ih => exact sure_bind (hf b) fun _ => ih

/-! ### Computations that may wait -/

theorem leaves_composed : Composed (ν := ν) view fun x => Leaves view x where
  ofEnding r := (quiet_ofEnding r).leaves
  bind hx hf := fun R P hR hP hS => preserves_bind (hx R P hR hP hS) fun a => hf a R P hR hP hS
  attempt hx := fun R P hR hP hS => preserves_attempt (hx R P hR hP hS)
  gets f := (quiet_gets f).leaves
  change hf := (quiet_change hf).leaves
  wait what := fun _ _ _ _ hS => preserves_wait hS what
  spawn hx := fun R P hR hP hS => preserves_spawn hS (hx R P hR hP hS)
  spawnForever hx := fun R P hR hP hS => preserves_spawnForever hS (hx R P hR hP hS)
  watch _ hx := fun R P hR hP hS => preserves_watch hS fun status => hx status R P hR hP hS

/-- Computations that leave a part of the shared state alone make up others that do. -/
theorem leaves_closed : Closed (ν := ν) view fun x => Leaves view x :=
  (leaves_composed).closed fun c => (quiet_call c).leaves

theorem leaves_ofEnding (r : Ending α) : Leaves view (ofEnding r : Act σ ν α) :=
  (leaves_closed).ofEnding r

theorem leaves_pure (a : α) : Leaves view (pure a : Act σ ν α) := leaves_ofEnding _

theorem leaves_fail (f : Failure) : Leaves view (fail f : Act σ ν α) := leaves_ofEnding _

theorem leaves_throw (f : Fault) : Leaves view (throw f : Act σ ν α) := leaves_ofEnding _

theorem leaves_bind {f : α → Act σ ν β} (hx : Leaves view x) (hf : ∀ a, Leaves view (f a)) :
    Leaves view (x >>= f) :=
  (leaves_closed).bind hx hf

theorem leaves_attempt (hx : Leaves view x) : Leaves view (attempt x) := (leaves_closed).attempt hx

theorem leaves_recover {handle : Fault → Act σ ν α} (hx : Leaves view x)
    (hh : ∀ f, Leaves view (handle f)) : Leaves view (recover x handle) :=
  (leaves_closed).recover hx hh

theorem leaves_ensuring {last : Act σ ν Unit} (hx : Leaves view x) (hl : Leaves view last) :
    Leaves view (ensuring x last) :=
  (leaves_closed).ensuring hx hl

theorem leaves_ite {c : Prop} [Decidable c] {x y : Act σ ν α} (hx : Leaves view x)
    (hy : Leaves view y) : Leaves view (if c then x else y) :=
  (leaves_closed).ite hx hy

theorem leaves_change {f : σ → α × σ} (hf : ∀ s, view s = view (f s).2) :
    Leaves view (change f : Act σ ν α) :=
  (leaves_closed).change hf

theorem leaves_modify {f : σ → σ} (hf : ∀ s, view s = view (f s)) :
    Leaves view (modify f : Act σ ν Unit) :=
  leaves_change hf

theorem leaves_call (c : Call ν) : Leaves view (call c : Act σ ν c.Reply) := (quiet_call c).leaves

theorem leaves_newSignal : Leaves view (newSignal : Act σ ν Nat) := leaves_call _

theorem leaves_wait (what : Awaited) : Leaves view (wait what : Act σ ν Unit) :=
  (leaves_closed).wait what

theorem leaves_sleep (d : Option Rat) : Leaves view (sleep d : Act σ ν Unit) :=
  (leaves_closed).sleep d

theorem leaves_within (hx : Leaves view x) (limit : Option Rat) : Leaves view (within limit x) :=
  (leaves_closed).within hx limit

theorem leaves_spawn {toValue : α → ν} (hx : Leaves view x) :
    Leaves view (spawn toValue x : Act σ ν Nat) :=
  (leaves_closed).spawn hx

theorem leaves_watch {value : ν} {cell : Nat} {x : CellStatus ν → Act σ ν Unit}
    (hx : ∀ status, Leaves view (x status)) : Leaves view (watch value cell x : Act σ ν Nat) :=
  fun R P hR hP hS => preserves_watch hS fun status => hx status R P hR hP hS

theorem leaves_valueOf (ofValue : ν → Option α) (task : Nat) :
    Leaves view (valueOf ofValue task : Act σ ν α) :=
  (leaves_closed).valueOf ofValue task

theorem leaves_together (value : ν) (tasks : List Nat) :
    Leaves view (together value tasks : Act σ ν Unit) :=
  (leaves_closed).together value tasks

theorem leaves_waitAtMost {value : ν} {limit : Rat} {x : Act σ ν Unit} (hx : Leaves view x) :
    Leaves view (waitAtMost value limit x : Act σ ν Bool) :=
  (leaves_closed).waitAtMost hx

end Act

end ChatCommands.Concurrency
