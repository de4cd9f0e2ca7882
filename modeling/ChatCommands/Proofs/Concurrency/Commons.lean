import ChatCommands.Proofs.Concurrency.Closed
import ChatCommands.Proofs.Concurrency.Scene
import Mathlib.Data.Multiset.AddSub

/-!
Invariants of what tasks have in common, where each task has a stake of its own.

Tasks hold stakes, for example the right to do something once, or a claim to a signal that nobody
else is to fire.  A commons says what the stakes of all tasks together have to do with the scene
whenever no task has its turn.  A task tends the commons if it takes up and gives up stakes with its
changes of the scene so that this holds at each of its waits and at its end.  At a wait it knows
nothing of the other tasks but that its own stakes are left to it, and its answer is the one that the
cell gives.

`Task.Tends` is to a commons what `Task.Ends` is to a regime, and the rules for `Act.Manages` are to
`Task.Tends` what those for `Act.Meets` are to `Task.Ends`.
-/

namespace ChatCommands.Concurrency

variable {σ ν κ : Type}

/-- What a task that has its turn sees: the scene, its own stakes, and those of all others. -/
structure Share (σ ν κ : Type) where
  scene : Scene σ ν
  own : Multiset κ
  rest : Multiset κ

namespace Share

/-- The stakes of all tasks. -/
def total (x : Share σ ν κ) : Multiset κ := x.own + x.rest

/-- The same, with another shared state and other stakes of its own. -/
def put (x : Share σ ν κ) (s : σ) (own : Multiset κ) : Share σ ν κ :=
  ⟨x.scene.put s, own, x.rest⟩

end Share

/-- What holds of the scene and the stakes of all tasks whenever no task has its turn, and the cells
that anyone may settle, which depend on the number of cells and the stakes. -/
structure Commons (σ ν κ : Type) where
  holds : Scene σ ν → Multiset κ → Prop
  loose : (size : Nat) → Multiset κ → Nat → Prop

namespace Commons

variable (C : Commons σ ν κ)

/-- The commons does not mind that waiting tasks are interrupted and that loose cells are settled; a
loose cell stays loose when there are more cells or fewer stakes, and a new cell is loose. -/
structure Lawful : Prop where
  drift : ∀ {sc sc' g}, C.holds sc g → sc.Drifts (C.loose sc.size g) sc' → C.holds sc' g
  grow : ∀ {n n' g c}, n ≤ n' → C.loose n g c → C.loose n' g c
  fewer : ∀ {n g g' c}, C.loose n (g + g') c → C.loose n g' c
  fresh : ∀ {sc g}, C.holds sc g → C.loose (sc.size + 1) g sc.size

/-- What may have become of a scene and the stakes of all tasks. -/
structure Later (sc : Scene σ ν) (g : Multiset κ) (sc' : Scene σ ν) (g' : Multiset κ) : Prop where
  size : sc.size ≤ sc'.size
  plain : ∀ c < sc.size, sc.plain c → sc'.plain c
  done : ∀ c < sc.size, (sc.status c).isDone = true → sc'.status c = sc.status c
  loose : ∀ c, C.loose sc.size g c → C.loose sc'.size g' c

variable {C} {sc sc' sc'' : Scene σ ν} {g g' g'' : Multiset κ}

theorem Later.refl : C.Later sc g sc g :=
  ⟨Nat.le_refl _, fun _ _ h => h, fun _ _ _ => rfl, fun _ h => h⟩

theorem Later.trans (h : C.Later sc g sc' g') (h' : C.Later sc' g' sc'' g'') :
    C.Later sc g sc'' g'' where
  size := Nat.le_trans h.size h'.size
  plain c hc hp := h'.plain c (Nat.lt_of_lt_of_le hc h.size) (h.plain c hc hp)
  done c hc hd := by
    have heq := h.done c hc hd
    rw [← heq] at hd
    exact (h'.done c (Nat.lt_of_lt_of_le hc h.size) hd).trans heq
  loose c hc := h'.loose c (h.loose c hc)

theorem Lawful.later (hC : C.Lawful) {loose : Nat → Prop} (h : sc.Drifts loose sc')
    (g : Multiset κ) : C.Later sc g sc' g :=
  ⟨h.size, h.plain, fun _ hc hd => h.done hc hd, fun _ hc => hC.grow h.size hc⟩

/-- A task has come to its end; its stakes are given up. -/
def Ended (C : Commons σ ν κ) {α : Type} : α → Share σ ν κ → Prop :=
  fun _ x => C.holds x.scene x.rest

end Commons

/-- The task tends the commons, and whenever it comes to its end, `Q` holds of its ending and what it
sees then. -/
def Task.Tends (C : Commons σ ν κ) :
    Task σ ν → (Q : Ending ν → Share σ ν κ → Prop) → Share σ ν κ → Prop
  | .finish r, Q, x => Q r x
  | .look next, Q, x => (next x.scene.shared).Tends C Q x
  | .put s next, Q, x => ∃ own,
    (∀ c, C.loose x.scene.size x.total c → C.loose x.scene.size (own + x.rest) c) ∧
      next.Tends C Q (x.put s own)
  | .call c next, Q, x => ∃ own,
    (∀ i, C.loose x.scene.size x.total i → C.loose x.scene.size (own + x.rest) i) ∧
      (∀ s, c.timed? = some s → C.loose x.scene.size (own + x.rest) s) ∧
      ∀ reply sc, c.Answer x.scene reply sc → (next reply).Tends C Q ⟨sc, own, x.rest⟩
  | .spawn repeated body next, Q, x => ∃ given kept, x.own = given + kept ∧
    (repeated = true → given = 0) ∧ (∀ sc g, C.holds sc (given + g) → C.holds sc g) ∧
      C.loose (x.scene.size + 1) x.total x.scene.size ∧
      (∀ x', C.holds x'.scene x'.total → x'.own = given →
        C.Later x.scene x.total x'.scene x'.total → body.Tends C C.Ended x') ∧
      (next x.scene.size).Tends C Q ⟨x.scene.push .pending True, kept, given + x.rest⟩
  | .watch _ reaction next, Q, x => (∀ status, (reaction status).Prompt) ∧
    (∀ status x', C.holds x'.scene x'.total → x'.own = 0 →
      C.Later x.scene x.total x'.scene x'.total → (reaction status).Tends C C.Ended x') ∧
      ∀ w, (next w).Tends C Q x
  | .wait what next, Q, x => C.holds x.scene x.total ∧
    ∀ answer x', C.holds x'.scene x'.total → x'.own = x.own →
      C.Later x.scene x.total x'.scene x'.total → what.Answered answer x'.scene →
        (next answer).Tends C Q x'

namespace Act

variable {C : Commons σ ν κ} {α β : Type} {pre pre' : Share σ ν κ → Prop}
  {post post' : Ending α → Share σ ν κ → Prop} {x : Act σ ν α}

/-- From what has `pre` the computation tends the commons and ends as `post` says. -/
def Manages (C : Commons σ ν κ) (pre : Share σ ν κ → Prop) (x : Act σ ν α)
    (post : Ending α → Share σ ν κ → Prop) : Prop :=
  ∀ (k : Ending α → Task σ ν) (Q : Ending ν → Share σ ν κ → Prop) (s : Share σ ν κ), pre s →
    (∀ r s', post r s' → (k r).Tends C Q s') → (x k).Tends C Q s

theorem Manages.weaken (h : Manages C pre x post) (hpre : ∀ s, pre' s → pre s)
    (hpost : ∀ r s, post r s → post' r s) : Manages C pre' x post' :=
  fun k Q s hs hk => h k Q s (hpre s hs) fun r s' hr => hk r s' (hpost r s' hr)

theorem Manages.of_pre (h : Manages C pre x post) (hpre : ∀ s, pre' s → pre s) :
    Manages C pre' x post :=
  h.weaken hpre fun _ _ h => h

/-- What is known beforehand. -/
theorem manages_of_fact {p : Prop} (h : p → Manages C pre x post) :
    Manages C (fun s => p ∧ pre s) x post :=
  fun k Q s hs hk => h hs.1 k Q s hs.2 hk

theorem manages_ofEnding (r : Ending α) (h : ∀ s, pre s → post r s) :
    Manages C pre (ofEnding r : Act σ ν α) post :=
  fun _ _ s hs hk => hk r s (h s hs)

theorem manages_bind {mid : Ending α → Share σ ν κ → Prop} {f : α → Act σ ν β}
    {post : Ending β → Share σ ν κ → Prop} (hx : Manages C pre x mid)
    (hf : ∀ a, Manages C (mid (.ok a)) (f a) post)
    (herr : ∀ e s, mid (.error e) s → post (.error e) s) : Manages C pre (x >>= f) post := by
  intro k Q s hs hk
  refine hx _ Q s hs fun r s' hr => ?_
  cases r with
  | ok a => exact hf a k Q s' hr hk
  | error e => exact hk _ s' (herr e s' hr)

/-- However a computation ends, what comes after it sees the ending. -/
theorem manages_attempt_bind {mid : Ending α → Share σ ν κ → Prop} {f : Ending α → Act σ ν β}
    {post : Ending β → Share σ ν κ → Prop} (hx : Manages C pre x mid)
    (hf : ∀ r, Manages C (mid r) (f r) post) : Manages C pre (attempt x >>= f) post :=
  fun k Q s hs hk => hx _ Q s hs fun r s' hr => hf r k Q s' hr hk

/-- The faults of a computation are handled; any other ending is the ending of the whole. -/
theorem manages_recover {mid : Ending α → Share σ ν κ → Prop} {handle : Fault → Act σ ν α}
    (hx : Manages C pre x mid) (hok : ∀ a s, mid (.ok a) s → post (.ok a) s)
    (hinterrupted : ∀ s, mid (.error .interrupted) s → post (.error .interrupted) s)
    (hh : ∀ f, Manages C (mid (.error (.fault f))) (handle f) post) :
    Manages C pre (recover x handle) post := by
  rw [recover_eq]
  refine manages_attempt_bind hx fun r => ?_
  obtain (⟨f⟩ | ⟨⟩) | a := r
  · exact hh f
  · exact manages_ofEnding _ hinterrupted
  · exact manages_ofEnding _ (hok a)

/-- A change of the shared state, with which stakes are taken up and given up. -/
theorem manages_modify {f : σ → σ} {post : Ending Unit → Share σ ν κ → Prop}
    (h : ∀ s, pre s → ∃ own,
      (∀ c, C.loose s.scene.size s.total c → C.loose s.scene.size (own + s.rest) c) ∧
        post (.ok ()) (s.put (f s.scene.shared) own)) :
    Manages C pre (modify f : Act σ ν Unit) post := by
  intro k Q s hs hk
  obtain ⟨own, hloose, hpost⟩ := h s hs
  exact ⟨own, hloose, hk _ _ hpost⟩

/-- A change of the shared state that tells something, and what comes after it. -/
theorem manages_change_bind {f : σ → α × σ} {g : α → Act σ ν β} {mid : α → Share σ ν κ → Prop}
    {post : Ending β → Share σ ν κ → Prop} (h : ∀ s, pre s → ∃ own,
      (∀ c, C.loose s.scene.size s.total c → C.loose s.scene.size (own + s.rest) c) ∧
        mid (f s.scene.shared).1 (s.put (f s.scene.shared).2 own))
    (hg : ∀ a, Manages C (mid a) (g a) post) : Manages C pre (change f >>= g) post := by
  intro k Q s hs hk
  obtain ⟨own, hloose, hmid⟩ := h s hs
  exact ⟨own, hloose, hg _ k Q _ hmid hk⟩

/-- A change of the shared state, and what comes after it. -/
theorem manages_modify_bind {f : σ → σ} {y : Act σ ν β} {mid : Share σ ν κ → Prop}
    {post : Ending β → Share σ ν κ → Prop} (h : ∀ s, pre s → ∃ own,
      (∀ c, C.loose s.scene.size s.total c → C.loose s.scene.size (own + s.rest) c) ∧
        mid (s.put (f s.scene.shared) own)) (hy : Manages C mid y post) :
    Manages C pre (do modify f; y) post := by
  intro k Q s hs hk
  obtain ⟨own, hloose, hmid⟩ := h s hs
  exact ⟨own, hloose, hy k Q _ hmid hk⟩

/-- After a look at the shared state it is known what was seen. -/
theorem manages_gets_bind {g : σ → α} {f : α → Act σ ν β} {post : Ending β → Share σ ν κ → Prop}
    (hf : ∀ a, Manages C (fun s => pre s ∧ g s.scene.shared = a) (f a) post) :
    Manages C pre (gets g >>= f) post :=
  fun k Q s hs hk => hf (g s.scene.shared) k Q s ⟨hs, rfl⟩ hk

/-- A primitive step, and what comes after its answer. -/
theorem manages_call_bind {c : Call ν} {f : c.Reply → Act σ ν β}
    {mid : c.Reply → Share σ ν κ → Prop} {post : Ending β → Share σ ν κ → Prop}
    (h : ∀ s, pre s → ∃ own,
      (∀ i, C.loose s.scene.size s.total i → C.loose s.scene.size (own + s.rest) i) ∧
        (∀ i, c.timed? = some i → C.loose s.scene.size (own + s.rest) i) ∧
        ∀ reply sc, c.Answer s.scene reply sc → mid reply ⟨sc, own, s.rest⟩)
    (hf : ∀ reply, Manages C (mid reply) (f reply) post) : Manages C pre (call c >>= f) post := by
  intro k Q s hs hk
  obtain ⟨own, hloose, htimed, hmid⟩ := h s hs
  exact ⟨own, hloose, htimed, fun reply sc hsc => hf reply k Q _ (hmid reply sc hsc) hk⟩

/-- The status of a cell is known once it has been asked for. -/
theorem manages_status_bind {c : Nat} {f : CellStatus ν → Act σ ν β}
    {post : Ending β → Share σ ν κ → Prop}
    (hf : ∀ status, Manages C (fun s => pre s ∧ s.scene.status c = status) (f status) post) :
    Manages C pre (call (.status c) >>= f) post := by
  intro k Q s hs hk
  refine ⟨s.own, fun _ h => h, nofun, ?_⟩
  rintro _ _ ⟨rfl, rfl⟩
  exact hf _ k Q s ⟨hs, rfl⟩ hk

/-- A wait, for which the commons must be in order. -/
theorem manages_wait {what : Awaited} {post : Ending Unit → Share σ ν κ → Prop}
    (hholds : ∀ s, pre s → C.holds s.scene s.total)
    (h : ∀ s s' answer, pre s → C.holds s'.scene s'.total → s'.own = s.own →
      C.Later s.scene s.total s'.scene s'.total → what.Answered answer s'.scene →
      post (answer.elim (.ok ()) .error) s') :
    Manages C pre (wait what : Act σ ν Unit) post := by
  intro k Q s hs hk
  refine ⟨hholds s hs, fun answer s' hh hown hl ha => ?_⟩
  have hpost := h s s' answer hs hh hown hl ha
  cases answer with
  | none => exact hk _ s' hpost
  | some f => exact hk _ s' hpost

/-- A task is started that is given some of the stakes. -/
theorem manages_spawn_bind {toValue : α → ν} {f : Nat → Act σ ν β}
    {given mid : Share σ ν κ → Prop} {post : Ending β → Share σ ν κ → Prop}
    (hx : Manages C given x C.Ended) (h : ∀ s, pre s → ∃ give keep, s.own = give + keep ∧
      (∀ sc g, C.holds sc (give + g) → C.holds sc g) ∧
      C.loose (s.scene.size + 1) s.total s.scene.size ∧
      (∀ s', C.holds s'.scene s'.total → s'.own = give →
        C.Later s.scene s.total s'.scene s'.total → given s') ∧
      mid ⟨s.scene.push .pending True, keep, give + s.rest⟩)
    (hf : ∀ t, Manages C mid (f t) post) : Manages C pre (spawn toValue x >>= f) post := by
  intro k Q s hs hk
  obtain ⟨give, keep, hown, hfewer, hloose, hgiven, hmid⟩ := h s hs
  refine ⟨give, keep, hown, nofun, hfewer, hloose, fun s' hh hown' hl => ?_, hf _ k Q _ hmid hk⟩
  exact hx _ _ s' (hgiven s' hh hown' hl) fun _ _ h => h

theorem tends_toTask {toValue : α → ν} (hx : Manages C pre x C.Ended) {s : Share σ ν κ}
    (hs : pre s) : (toTask toValue x).Tends C C.Ended s :=
  hx _ _ s hs fun _ _ h => h

end Act

end ChatCommands.Concurrency
