import ChatCommands.Proofs.Concurrency.Closed
import ChatCommands.Proofs.Concurrency.Regime
import ChatCommands.Proofs.Concurrency.View

/-!
Invariants of the state that tasks share, where tasks are told apart.

Under a regime every task may do the same.  Under a charter a task may take a number that nobody has
had before; from then on it alone may do what the charter reserves to the holder of the number, and
at its waits it need not expect others to do it.  What a task knows of its own doings is thus not
lost when others take their turn.

`Task.Heeds` is to a charter what `Task.Ends` is to a regime, and the rules for `Act.Fulfils` are to
`Task.Heeds` what those for `Act.Meets` are to `Task.Ends`.
-/

namespace ChatCommands.Concurrency

/-- What a task is to the others. -/
inductive Role
  /-- One of many; it takes no number. -/
  | common
  /-- It has not taken a number yet. -/
  | newcomer
  /-- The only one with this number. -/
  | holder (n : Nat)
  deriving DecidableEq

namespace Role

/-- The number of a holder. -/
def number? : Role → Option Nat
  | holder n => some n
  | _ => none

/-- What the tasks are that it starts. -/
def child : Role → Role
  | common => common
  | _ => newcomer

@[simp] theorem number?_child (ρ : Role) : ρ.child.number? = none := by cases ρ <;> rfl

@[simp] theorem child_child (ρ : Role) : ρ.child.child = ρ.child := by cases ρ <;> rfl

theorem child_ne_holder (ρ : Role) (n : Nat) : ρ.child ≠ holder n := by
  cases ρ <;> simp [child]

end Role

/-- What holds of a shared state whenever no task has its turn, and who may change the state how. -/
structure Charter (σ : Type) where
  holds : σ → Prop
  /-- How many numbers have been taken; they are the first ones. -/
  taken : σ → Nat
  /-- How the holder of a number, or one without a number, may change the state. -/
  may : Option Nat → σ → σ → Prop
  /-- How the state may have changed by the end of a wait of the holder of a number, or of one
  without a number. -/
  meanwhile : Option Nat → σ → σ → Prop
  refl : ∀ n s, meanwhile n s s
  trans : ∀ {n s₁ s₂ s₃}, meanwhile n s₁ s₂ → meanwhile n s₂ s₃ → meanwhile n s₁ s₃

namespace Charter

variable {σ : Type} (C : Charter σ)

/-- What one may do others expect of it, unless they have its number, and numbers are not given
back. -/
structure Lawful : Prop where
  grows : ∀ {n s s'}, C.may n s s' → C.taken s ≤ C.taken s'
  apart : ∀ {n n' s s'}, C.may n s s' → (∀ i, n = some i → n' ≠ some i) → C.meanwhile n' s s'

/-- A change of the state by one that is `ρ` before and `ρ'` after it: a newcomer may take the next
number. -/
structure Step (ρ ρ' : Role) (s s' : σ) : Prop where
  may : C.may ρ'.number? s s'
  becomes : ρ' = ρ ∨ ρ = .newcomer ∧ ρ' = .holder (C.taken s) ∧ C.taken s < C.taken s'

variable {C}

theorem Step.same {ρ : Role} {s s' : σ} (h : C.may ρ.number? s s') : C.Step ρ ρ s s' :=
  ⟨h, .inl rfl⟩

theorem Step.child_eq {ρ ρ' : Role} {s s' : σ} (h : C.Step ρ ρ' s s') : ρ'.child = ρ.child := by
  rcases h.becomes with rfl | ⟨rfl, rfl, -⟩
  · rfl
  · rfl

variable (C)

/-- What holds while a task waits, as long as the other tasks heed the charter. -/
structure Stable (n : Option Nat) (P : σ → Prop) : Prop where
  holds : ∀ s, P s → C.holds s
  keep : ∀ s s', P s → C.meanwhile n s s' → C.holds s' → P s'

theorem stable_holds (n : Option Nat) : C.Stable n C.holds :=
  ⟨fun _ h => h, fun _ _ _ _ h => h⟩

/-- The charter is about a part of the shared state: the rest may be anything and may change. -/
structure About {τ : Type} (view : σ → τ) : Prop where
  holds : Concurrency.About view C.holds
  may : ∀ n s s', view s = view s' → C.may n s s'

end Charter

variable {σ ν α β τ : Type}

/-- As `ρ`, the task heeds the charter from the state `s` on, and whenever it comes to its end, `Q`
holds of its ending and the state then. -/
def Task.Heeds (C : Charter σ) : Task σ ν → Role → (Q : Ending ν → σ → Prop) → (s : σ) → Prop
  | .finish r, _, Q, s => Q r s
  | .look next, ρ, Q, s => (next s).Heeds C ρ Q s
  | .put s' next, ρ, Q, s => ∃ ρ', C.Step ρ ρ' s s' ∧ next.Heeds C ρ' Q s'
  | .call _ next, ρ, Q, s => ∀ reply, (next reply).Heeds C ρ Q s
  | .spawn _ body next, ρ, Q, s =>
    (∀ s', C.holds s' → C.meanwhile none s s' → body.Heeds C ρ.child (fun _ => C.holds) s') ∧
      ∀ t, (next t).Heeds C ρ Q s
  | .watch _ reaction next, ρ, Q, s =>
    (∀ status s', C.holds s' → C.meanwhile none s s' →
      (reaction status).Heeds C .common (fun _ => C.holds) s') ∧ ∀ w, (next w).Heeds C ρ Q s
  | .wait _ next, ρ, Q, s =>
    C.holds s ∧ ∀ answer s', C.holds s' → C.meanwhile ρ.number? s s' →
      (next answer).Heeds C ρ Q s'

/-- A regime is a charter under which there are no numbers. -/
def Regime.charter (R : Regime σ) : Charter σ where
  holds := R.holds
  taken _ := 0
  may _ := R.may
  meanwhile _ := R.meanwhile
  refl _ := R.refl
  trans := R.trans

theorem Regime.Mutual.lawful {R : Regime σ} (hR : R.Mutual) : R.charter.Lawful where
  grows _ := Nat.le_refl 0
  apart h _ := hR _ _ h

theorem Task.Ends.heeds {R : Regime σ} {t : Task σ ν} : ∀ {Q : Ending ν → σ → Prop} {s : σ},
    t.Ends R Q s → t.Heeds R.charter .common Q s := by
  induction t with
  | finish r => exact fun h => h
  | look next ih => exact fun h => ih _ h
  | put s' next ih => exact fun h => ⟨.common, .same h.1, ih h.2⟩
  | call c next ih => exact fun h reply => ih reply (h reply)
  | spawn repeated body next ihbody ih =>
    exact fun h => ⟨fun s' hh hm => ihbody (h.1 s' hh hm), fun t => ih t (h.2 t)⟩
  | watch cell reaction next ihreaction ih =>
    exact fun h => ⟨fun status s' hh hm => ihreaction status (h.1 status s' hh hm),
      fun w => ih w (h.2 w)⟩
  | wait what next ih => exact fun h => ⟨h.1, fun answer s' hh hm => ih answer (h.2 answer s' hh hm)⟩

/-- **A task that avoids what the charter is about heeds it**, up to where it goes on. -/
theorem Task.Leads.heeds {C : Charter σ} {view : σ → τ} (hC : C.About view)
    {exits : Task σ ν → Prop} {s : σ} {t : Task σ ν} (h : t.Leads view exits s) :
    ∀ {ρ : Role} {P : σ → Prop} {Q : Ending ν → σ → Prop}, C.Stable ρ.number? P → About view P →
      (∀ t s, exits t → P s → t.Heeds C ρ Q s) → P s → t.Heeds C ρ Q s := by
  have hend : ∀ {ρ : Role} (t : Task σ ν) (s : σ), t.IsEnd → C.holds s →
      t.Heeds C ρ (fun _ => C.holds) s := by
    rintro ρ _ s ⟨r, rfl⟩ hs
    exact hs
  induction h with
  | exit h => exact fun _ _ hexit hs => hexit _ _ h hs
  | look _ ih => exact fun hP hview hexit hs => ih hP hview hexit hs
  | put heq _ ih =>
    exact fun hP hview hexit hs =>
      ⟨_, .same (hC.may _ _ _ heq), ih hP hview hexit (hview _ _ heq hs)⟩
  | call _ ih => exact fun hP hview hexit hs reply => ih reply hP hview hexit hs
  | spawn _ _ ihbody ih =>
    exact fun hP hview hexit hs =>
      ⟨fun s' hh _ => ihbody s' (C.stable_holds _) hC.holds hend hh,
        fun t => ih t hP hview hexit hs⟩
  | watch _ _ ihreaction ih =>
    exact fun hP hview hexit hs =>
      ⟨fun status s' hh _ => ihreaction status s' (C.stable_holds _) hC.holds hend hh,
        fun w => ih w hP hview hexit hs⟩
  | wait _ ih =>
    exact fun hP hview hexit hs => ⟨hP.holds _ hs, fun answer s' hh hm =>
      ih answer s' hP hview hexit (hP.keep _ _ hs hm hh)⟩

namespace Act

variable {C : Charter σ} {pre pre' P : Role → σ → Prop} {post post' : Ending α → Role → σ → Prop}
  {x : Act σ ν α}

/-- From a role and a state with `pre` the computation heeds the charter and ends as `post` says. -/
def Fulfils (C : Charter σ) (pre : Role → σ → Prop) (x : Act σ ν α)
    (post : Ending α → Role → σ → Prop) : Prop :=
  ∀ (k : Ending α → Task σ ν) (Q : Ending ν → σ → Prop) (ρ : Role) (s : σ), pre ρ s →
    (∀ r ρ' s', post r ρ' s' → (k r).Heeds C ρ' Q s') → (x k).Heeds C ρ Q s

theorem Fulfils.weaken (h : Fulfils C pre x post) (hpre : ∀ ρ s, pre' ρ s → pre ρ s)
    (hpost : ∀ r ρ s, post r ρ s → post' r ρ s) : Fulfils C pre' x post' :=
  fun k Q ρ s hs hk => h k Q ρ s (hpre ρ s hs) fun r ρ' s' hr => hk r ρ' s' (hpost r ρ' s' hr)

theorem Fulfils.of_pre (h : Fulfils C pre x post) (hpre : ∀ ρ s, pre' ρ s → pre ρ s) :
    Fulfils C pre' x post :=
  h.weaken hpre fun _ _ _ h => h

theorem Fulfils.of_post (h : Fulfils C pre x post) (hpost : ∀ r ρ s, post r ρ s → post' r ρ s) :
    Fulfils C pre x post' :=
  h.weaken (fun _ _ h => h) hpost

theorem fulfils_ofEnding (r : Ending α) : Fulfils C (post r) (ofEnding r : Act σ ν α) post :=
  fun _ _ ρ s hs hk => hk r ρ s hs

theorem fulfils_pure (a : α) : Fulfils C (post (.ok a)) (pure a : Act σ ν α) post :=
  fulfils_ofEnding _

theorem fulfils_fail (f : Failure) : Fulfils C (post (.error f)) (fail f : Act σ ν α) post :=
  fulfils_ofEnding _

theorem fulfils_bind {mid : Ending α → Role → σ → Prop} {f : α → Act σ ν β}
    {post : Ending β → Role → σ → Prop} (hx : Fulfils C pre x mid)
    (hf : ∀ a, Fulfils C (mid (.ok a)) (f a) post)
    (herr : ∀ e ρ s, mid (.error e) ρ s → post (.error e) ρ s) : Fulfils C pre (x >>= f) post := by
  intro k Q ρ s hs hk
  refine hx _ Q ρ s hs fun r ρ' s' hr => ?_
  cases r with
  | ok a => exact hf a k Q ρ' s' hr hk
  | error e => exact hk _ ρ' s' (herr e ρ' s' hr)

/-- However a computation ends, what comes after it sees the ending. -/
theorem fulfils_attempt_bind {mid : Ending α → Role → σ → Prop} {f : Ending α → Act σ ν β}
    {post : Ending β → Role → σ → Prop} (hx : Fulfils C pre x mid)
    (hf : ∀ r, Fulfils C (mid r) (f r) post) : Fulfils C pre (attempt x >>= f) post :=
  fun k Q ρ s hs hk => hx _ Q ρ s hs fun r ρ' s' hr => hf r k Q ρ' s' hr hk

theorem fulfils_recover {handle : Fault → Act σ ν α} (hx : Fulfils C pre x post')
    (hok : ∀ a ρ s, post' (.ok a) ρ s → post (.ok a) ρ s)
    (hpass : ∀ ρ s, post' (.error .interrupted) ρ s → post (.error .interrupted) ρ s)
    (hh : ∀ f, Fulfils C (post' (.error (.fault f))) (handle f) post) :
    Fulfils C pre (recover x handle) post := by
  intro k Q ρ s hs hk
  refine hx _ Q ρ s hs fun r ρ' s' hr => ?_
  obtain (⟨f⟩ | ⟨⟩) | a := r
  · exact hh f k Q ρ' s' hr hk
  · exact hk _ ρ' s' (hpass ρ' s' hr)
  · exact hk _ ρ' s' (hok a ρ' s' hr)

theorem fulfils_change {f : σ → α × σ}
    (h : ∀ ρ s, pre ρ s → ∃ ρ', C.Step ρ ρ' s (f s).2 ∧ post (.ok (f s).1) ρ' (f s).2) :
    Fulfils C pre (change f : Act σ ν α) post := by
  intro k Q ρ s hs hk
  obtain ⟨ρ', hstep, hpost⟩ := h ρ s hs
  exact ⟨ρ', hstep, hk _ ρ' _ hpost⟩

/-- A change by one whose role stays what it is, and what comes after it. -/
theorem fulfils_modify_bind {f : σ → σ} {y : Act σ ν β} {post : Ending β → Role → σ → Prop}
    {mid : Role → σ → Prop} (h : ∀ ρ s, pre ρ s → C.may ρ.number? s (f s) ∧ mid ρ (f s))
    (hy : Fulfils C mid y post) : Fulfils C pre (do modify f; y) post :=
  fun k Q ρ s hs hk => ⟨ρ, .same (h ρ s hs).1, hy k Q ρ (f s) (h ρ s hs).2 hk⟩

/-- What is known of the state is known of what was seen. -/
theorem fulfils_see_bind {g : σ → α} {f : α → Act σ ν β} {mid : α → Role → σ → Prop}
    {post : Ending β → Role → σ → Prop} (hg : ∀ ρ s, pre ρ s → mid (g s) ρ s)
    (hf : ∀ a, Fulfils C (mid a) (f a) post) : Fulfils C pre (gets g >>= f) post :=
  fun k Q ρ s hs hk => hf (g s) k Q ρ s (hg ρ s hs) hk

theorem fulfils_gets_bind {g : σ → α} {f : α → Act σ ν β} {post : Ending β → Role → σ → Prop}
    (hf : ∀ a, Fulfils C pre (f a) post) : Fulfils C pre (gets g >>= f) post :=
  fun k Q ρ s hs hk => hf (g s) k Q ρ s hs hk

/-- What avoids the subject of a charter keeps what is stable. -/
theorem Avoids.fulfils {view : σ → τ} (h : Avoids view x) (hC : C.About view)
    (hP : ∀ ρ, C.Stable ρ.number? (P ρ)) (hview : ∀ ρ, About view (P ρ)) :
    Fulfils C P x fun _ => P := by
  intro k Q ρ s hs hk
  refine (h k s).heeds hC (hP ρ) (hview ρ) ?_ hs
  rintro _ s' ⟨r, rfl⟩ hs'
  exact hk r ρ s' hs'

theorem heeds_toTask {toValue : α → ν} (hx : Fulfils C pre x fun _ _ => C.holds) {ρ : Role} {s : σ}
    (hs : pre ρ s) : (toTask toValue x).Heeds C ρ (fun _ => C.holds) s :=
  hx _ _ ρ s hs fun _ _ _ h => h

/-- A task is started, which is a newcomer. -/
theorem fulfils_spawn {toValue : α → ν} {post : Ending Nat → Role → σ → Prop}
    (hx : Fulfils C (fun ρ s => ρ = .newcomer ∧ C.holds s) x fun _ _ => C.holds)
    (h : ∀ ρ s, pre ρ s → ρ.child = .newcomer ∧ ∀ t, post (.ok t) ρ s) :
    Fulfils C pre (spawn toValue x : Act σ ν Nat) post :=
  fun _ _ ρ s hs hk => ⟨fun _ hh _ => heeds_toTask hx ⟨(h ρ s hs).1, hh⟩,
    fun t => hk _ ρ s ((h ρ s hs).2 t)⟩

theorem fulfils_spawnForever {value : ν} {x : Act σ ν Unit} {post : Ending Nat → Role → σ → Prop}
    (hx : Fulfils C (fun ρ s => ρ = .newcomer ∧ C.holds s) x fun _ _ => C.holds)
    (h : ∀ ρ s, pre ρ s → ρ.child = .newcomer ∧ ∀ t, post (.ok t) ρ s) :
    Fulfils C pre (spawnForever value x : Act σ ν Nat) post :=
  fun _ _ ρ s hs hk => ⟨fun _ hh _ => heeds_toTask hx ⟨(h ρ s hs).1, hh⟩,
    fun t => hk _ ρ s ((h ρ s hs).2 t)⟩

/-! ### What computations yield -/

/-- Every value with which the computation goes on has the property. -/
def Yields (p : α → Prop) (x : Act σ ν α) : Prop :=
  ∀ k k' : Ending α → Task σ ν, (∀ r, (∀ a, r = .ok a → p a) → k r = k' r) → x k = x k'

theorem yields_true (x : Act σ ν α) : Yields (fun _ => True) x :=
  fun _ _ h => congrArg x (funext fun r => h r fun _ _ => trivial)

theorem yields_ofEnding {p : α → Prop} {r : Ending α} (h : ∀ a, r = .ok a → p a) :
    Yields p (ofEnding r : Act σ ν α) :=
  fun _ _ hk => hk r h

theorem yields_bind {p : α → Prop} {q : β → Prop} {f : α → Act σ ν β} (hx : Yields p x)
    (hf : ∀ a, p a → Yields q (f a)) : Yields q (x >>= f) := by
  intro k k' hk
  refine hx _ _ fun r hr => ?_
  cases r with
  | ok a => exact hf a (hr a rfl) k k' hk
  | error e => exact hk _ nofun

theorem yields_attempt {p : α → Prop} (hx : Yields p x) :
    Yields (fun r => ∀ a, r = .ok a → p a) (attempt x) := by
  intro k k' hk
  refine hx _ _ fun r hr => hk (.ok r) fun r' heq => ?_
  obtain rfl := Except.ok.inj heq
  exact hr

/-- What a computation yields depends only on its last step. -/
theorem yields_last {p : β → Prop} {f : α → Act σ ν β} (hf : ∀ a, Yields p (f a)) :
    Yields p (x >>= f) :=
  yields_bind (yields_true x) fun a _ => hf a

theorem yields_ensuring {p : α → Prop} {last : Act σ ν Unit} (hx : Yields p x) :
    Yields p (ensuring x last) :=
  yields_bind (yields_attempt hx) fun _ hr => yields_last fun _ => yields_ofEnding hr

/-- The values of a computation are as it yields them. -/
theorem Yields.fulfils {p : α → Prop} {a₀ : α} (hx : Yields p x) (ha₀ : p a₀)
    (h : Fulfils C pre x fun _ => P) :
    Fulfils C pre x fun r ρ s => (∀ a, r = .ok a → p a) ∧ P ρ s := by
  classical
  intro k Q ρ s hs hk
  -- as the computation does not go on with other values, it does not matter what comes after them
  let usual (r : Ending α) : Ending α := if ∀ a, r = .ok a → p a then r else .ok a₀
  have husual : ∀ r a, usual r = .ok a → p a := by
    intro r a heq
    by_cases hr : ∀ a, r = .ok a → p a
    · exact hr a (by simpa [usual, if_pos hr] using heq)
    · simp only [usual, if_neg hr] at heq
      cases heq
      exact ha₀
  rw [hx k (fun r => k (usual r)) fun r hr => by simp only [usual, if_pos hr]]
  exact h _ Q ρ s hs fun r ρ' s' hr => hk (usual r) ρ' s' ⟨husual r, hr⟩

end Act

end ChatCommands.Concurrency
