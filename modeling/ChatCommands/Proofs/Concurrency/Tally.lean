import ChatCommands.Proofs.Concurrency.Charter
import ChatCommands.Proofs.Concurrency.Custody
import ChatCommands.Proofs.Concurrency.Minding

/-!
Tallies: what a part of the shared state shows, set against the stakes of the tasks.

A tally is a commons that has nothing to do with cells, and that still holds when stakes are given up.
So a task need not know exactly what it has a stake in, only that it has at least some stakes, and
whoever leaves the part alone keeps them.
-/

namespace ChatCommands.Concurrency

/-- What a part of the shared state and the stakes of all tasks have to do with each other, also when
stakes are given up. -/
structure Tally (τ κ : Type) where
  holds : τ → Multiset κ → Prop
  fewer : ∀ {a g g'}, holds a (g + g') → holds a g'

namespace Tally

variable {σ ν κ τ α β : Type}

/-- The commons of a tally about the part that a view shows. -/
def commons (T : Tally τ κ) (view : σ → τ) : Commons σ ν κ where
  holds sc g := T.holds (view sc.shared) g
  loose _ _ _ := True

variable {T : Tally τ κ} {view : σ → τ}

theorem lawful_commons : (T.commons view : Commons σ ν κ).Lawful where
  drift h hdrift := by
    change T.holds (view _) _
    rwa [hdrift.shared]
  grow _ h := h
  fewer h := h
  fresh _ := trivial

theorem about_commons : (T.commons view : Commons σ ν κ).About view := by
  intro sc s g heq h
  change T.holds (view s) g
  rwa [← heq]

/-- The tally is in order for a task that has its turn and has at least these stakes. -/
def Held (T : Tally τ κ) (view : σ → τ) (own : Multiset κ) (s : Share σ ν κ) : Prop :=
  own ≤ s.own ∧ T.holds (view s.scene.shared) s.total

variable {own own' : Multiset κ} {s : Share σ ν κ}

theorem Held.fewer (h : T.Held view own s) (hle : own' ≤ own) : T.Held view own' s :=
  ⟨hle.trans h.1, h.2⟩

theorem Held.ended (h : T.Held view own s) : T.holds (view s.scene.shared) s.rest :=
  T.fewer h.2

theorem steady_held : (T.commons view : Commons σ ν κ).Steady view (T.Held view own) where
  holds _ h := h.2
  wait x x' h hh hown _ := ⟨by rw [hown]; exact h.1, hh⟩
  put x s h heq := ⟨h.1, about_commons _ s _ heq h.2⟩
  drift x sc h hdrift := by
    have hholds : (T.commons view).holds x.scene x.total := h.2
    exact ⟨h.1, lawful_commons.drift hholds hdrift⟩

open Act

variable {x : Act σ ν α}

/-- Whoever leaves the part alone keeps its stakes. -/
theorem held_of_minds (h : x.Minds view fun _ => True) :
    Manages (T.commons view) (T.Held view own) x fun _ => T.Held view own :=
  h.manages lawful_commons about_commons steady_held fun _ _ _ _ => trivial

/-- Some stakes are exchanged for others, with a change of the shared state. -/
theorem Held.trade (hs : T.Held view own s) {state : σ}
    (h : ∀ g, T.holds (view s.scene.shared) (own + g) → T.holds (view state) (own' + g)) :
    T.Held view own' (s.put state own') := by
  refine ⟨le_refl _, h _ ?_⟩
  obtain ⟨more, hmore⟩ := Multiset.le_iff_exists_add.mp hs.1
  have htotal : s.total = more + (own + s.rest) := by
    rw [Share.total, hmore, add_left_comm, add_assoc]
  exact T.fewer (htotal ▸ hs.2)

theorem held_modify_bind (own' : Multiset κ) {f : σ → σ} {y : Act σ ν β}
    {post : Ending β → Share σ ν κ → Prop} (h : ∀ s g, T.holds (view s) (own + g) → T.holds (view (f s)) (own' + g))
    (hy : Manages (T.commons view) (T.Held view own') y post) :
    Manages (T.commons view) (T.Held view own) (do modify f; y) post :=
  manages_modify_bind (fun _ hs => ⟨own', fun _ h => h, hs.trade (h _)⟩) hy

/-- A task is started that is given some of the stakes. -/
theorem held_spawn {toValue : α → ν} {r : Ending α → Share σ ν κ → Prop}
    (hx : Manages (T.commons view) (T.Held view own') x r)
    (hr : ∀ a s, r a s → T.Held view 0 s) :
    Manages (T.commons view) (T.Held view (own + own')) (spawn toValue x : Act σ ν Nat)
      fun _ => T.Held view own := by
  have hbody : Manages (T.commons view) (T.Held view own') x (T.commons view).Ended :=
    hx.weaken (fun _ hs => hs) fun a s hs => (hr a s hs).ended
  refine manages_spawn_bind (f := pure) hbody (fun s hs => ?_) fun t => manages_ofEnding _ fun s hs => hs
  obtain ⟨more, hmore⟩ := Multiset.le_iff_exists_add.mp hs.1
  refine ⟨own', own + more, by rw [hmore, add_assoc, add_left_comm], fun _ _ h => T.fewer h, trivial,
    fun s' hh hown _ => ⟨le_of_eq hown.symm, hh⟩, Multiset.le_add_right _ _, ?_⟩
  have htotal : s.total = own + more + (own' + s.rest) := by
    rw [Share.total, hmore]
    ac_rfl
  change T.holds (view s.scene.shared) (own + more + (own' + s.rest))
  rw [← htotal]
  exact hs.2

/-- The values of a computation are as it yields them. -/
theorem held_yields {p : α → Prop} (hx : Yields p x)
    (h : Manages (T.commons view) (T.Held view own) x fun _ => T.Held view own') :
    Manages (T.commons view) (T.Held view own) x
      fun r s => (∀ a, r = .ok a → p a) ∧ T.Held view own' s := by
  classical
  intro k Q s hs hk
  -- as the computation does not go on with other values, they may be taken for a failure
  let usual (r : Ending α) : Ending α := if ∀ a, r = .ok a → p a then r else .error .interrupted
  have husual : ∀ r a, usual r = .ok a → p a := by
    intro r a heq
    by_cases hr : ∀ a, r = .ok a → p a
    · exact hr a (by simpa [usual, if_pos hr] using heq)
    · simp only [usual, if_neg hr] at heq
      cases heq
  rw [hx k (fun r => k (usual r)) fun r hr => by simp only [usual, if_pos hr]]
  exact h _ Q s hs fun r s' hr => hk (usual r) s' ⟨husual r, hr⟩

/-! ### What keeps a tally -/

variable {y : Act σ ν β}

/-- Without stakes of its own the computation leaves the tally in order. -/
def Keeps (T : Tally τ κ) (view : σ → τ) (x : Act σ ν α) : Prop :=
  Manages (T.commons view) (T.Held view 0) x fun _ => T.Held view 0

theorem keeps_of_minds (h : x.Minds view fun _ => True) : T.Keeps view x := held_of_minds h

theorem keeps_bind {f : α → Act σ ν β} (hx : T.Keeps view x) (hf : ∀ a, T.Keeps view (f a)) :
    T.Keeps view (x >>= f) :=
  manages_bind hx hf fun _ _ hs => hs

theorem Keeps.tends {toValue : α → ν} (h : T.Keeps view x) {s : Share σ ν κ}
    (hs : T.Held view 0 s) : (toTask toValue x).Tends (T.commons view) (T.commons view).Ended s :=
  tends_toTask (h.weaken (fun _ hs => hs) fun _ _ hs => hs.ended) hs

theorem keeps_spawn {toValue : α → ν} (hx : T.Keeps view x) :
    T.Keeps view (spawn toValue x : Act σ ν Nat) := by
  have h : Manages (T.commons view) (T.Held view (0 + 0)) (spawn toValue x : Act σ ν Nat)
      fun _ => T.Held view 0 := held_spawn hx fun _ _ hs => hs
  rwa [add_zero] at h

theorem keeps_spawnForever {value : ν} {x : Act σ ν Unit} (hx : T.Keeps view x) :
    T.Keeps view (spawnForever value x : Act σ ν Nat) := by
  intro k Q s hs hk
  refine ⟨0, s.own, (zero_add _).symm, fun _ => rfl, fun _ _ h => T.fewer h, trivial,
    fun s' hh hown _ => hx.tends ⟨le_of_eq hown.symm, hh⟩, hk _ _ ⟨hs.1, ?_⟩⟩
  rw [zero_add]
  exact hs.2

theorem keeps_watch {value : ν} {cell : Nat} {x : CellStatus ν → Act σ ν Unit}
    (hprompt : ∀ status, (x status).Prompt) (hx : ∀ status, T.Keeps view (x status)) :
    T.Keeps view (watch value cell x : Act σ ν Nat) := by
  intro k Q s hs hk
  exact ⟨fun status => hprompt status _ fun _ => trivial,
    fun status s' hh hown _ => (hx status).tends ⟨le_of_eq hown.symm, hh⟩, fun w => hk _ _ hs⟩

theorem keeps_composed : Composed view (T.Keeps view (ν := ν)) where
  ofEnding r := manages_ofEnding r fun _ hs => hs
  bind hx hf := keeps_bind hx hf
  attempt hx := manages_attempt_bind (f := pure) hx fun _ => manages_ofEnding _ fun _ hs => hs
  gets f := keeps_of_minds (minds_closed.gets f)
  change hf := keeps_of_minds (minds_change hf)
  wait what := keeps_of_minds (minds_wait what)
  spawn hx := keeps_spawn hx
  spawnForever hx := keeps_spawnForever hx
  watch hprompt hx := keeps_watch hprompt hx

/-- What keeps a tally makes up what does. -/
theorem keeps_closed : Closed view (T.Keeps view (ν := ν)) :=
  keeps_composed.closed fun _ => keeps_of_minds (minds_call fun _ _ => trivial)

/-- **A tally is in order in every state** if it is at the start and whatever comes in keeps it. -/
theorem reachable {start : σ → Prop} {arrivals : Task σ ν → Prop}
    (hstart : ∀ s, start s → T.holds (view s) 0)
    (harrivals : ∀ t, arrivals t → ∃ (α : Type) (toValue : α → ν) (x : Act σ ν α),
      T.Keeps view x ∧ t = toTask toValue x)
    {k : Scheduler σ ν} (h : Scheduler.Reachable start arrivals k) (jobs : Nat) :
    T.holds (view (k.amid jobs).shared) 0 := by
  have hC : (T.commons view : Commons σ ν κ).Lawful := lawful_commons
  have htends : ∀ t, arrivals t → ∀ s : Share σ ν κ, T.holds (view s.scene.shared) s.total →
      s.own = 0 → t.Tends (T.commons view) (T.commons view).Ended s := by
    intro t ht s hh hown
    obtain ⟨α, toValue, x, hx, rfl⟩ := harrivals t ht
    exact hx.tends ⟨le_of_eq hown.symm, hh⟩
  obtain ⟨g, hg⟩ := h.commons hC hstart htends jobs
  exact T.fewer (g := g) (by rwa [add_zero])

end Tally

end ChatCommands.Concurrency
