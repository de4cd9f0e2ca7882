import ChatCommands.Concurrency.Task

/-!
Kinds of computations that are closed under the ways in which computations are put together.

A kind that has the primitive steps in it, and those changes of the shared state that leave a part of
it alone, has in it everything that is made of them: waiting with a limit, waiting for tasks, groups.
-/

namespace ChatCommands.Concurrency

/-- A program that neither waits nor starts or watches anything. -/
def Task.Prompt {σ ν : Type} : Task σ ν → Prop
  | .finish _ => True
  | .look next => ∀ s, (next s).Prompt
  | .put _ next => next.Prompt
  | .call _ next => ∀ reply, (next reply).Prompt
  | .spawn .. | .watch .. | .wait .. => False

/-- The step ends a signal in a fault. -/
def Call.endsInFault {ν : Type} : Call ν → Bool
  | .fail _ (.fault _) => true
  | _ => false

namespace Act

variable {σ ν α β τ : Type}

/-- A computation that neither waits nor starts or watches anything. -/
def Prompt (x : Act σ ν α) : Prop :=
  ∀ k : Ending α → Task σ ν, (∀ r, (k r).Prompt) → (x k).Prompt

/-- The kind of computations has in it the changes of the shared state that leave a part of it alone,
and what is put together from computations of the kind. -/
structure Composed (view : σ → τ) (K : {α : Type} → Act σ ν α → Prop) : Prop where
  ofEnding : ∀ {α : Type} (r : Ending α), K (Act.ofEnding r)
  bind : ∀ {α β : Type} {x : Act σ ν α} {f : α → Act σ ν β}, K x → (∀ a, K (f a)) →
    K (x >>= f)
  attempt : ∀ {α : Type} {x : Act σ ν α}, K x → K (Act.attempt x)
  gets : ∀ {α : Type} (f : σ → α), K (Act.gets f)
  change : ∀ {α : Type} {f : σ → α × σ}, (∀ s, view s = view (f s).2) → K (Act.change f)
  wait : ∀ what, K (Act.wait what)
  spawn : ∀ {α : Type} {toValue : α → ν} {x : Act σ ν α}, K x → K (Act.spawn toValue x)
  spawnForever : ∀ {value : ν} {x : Act σ ν Unit}, K x → K (Act.spawnForever value x)
  watch : ∀ {value : ν} {cell : Nat} {x : CellStatus ν → Act σ ν Unit},
    (∀ status, (x status).Prompt) → (∀ status, K (x status)) → K (Act.watch value cell x)

/-- The kind of computations has in it the primitive steps as well, and waiting for tasks.  Only there
a signal is ended in a fault. -/
structure Closed (view : σ → τ) (K : {α : Type} → Act σ ν α → Prop) : Prop
    extends Composed view @K where
  call : ∀ c : Call ν, c.endsInFault = false → K (Act.call c)
  gather : ∀ (value : ν) (passOver : Bool) (tasks : List Nat), K (Act.gather value passOver tasks)

/-- What is done after the ending of a computation whose faults are handled. -/
def resume (handle : Fault → Act σ ν α) : Ending α → Act σ ν α
  | .error (.fault f) => handle f
  | r => Act.ofEnding r

theorem recover_eq (x : Act σ ν α) (handle : Fault → Act σ ν α) :
    Act.recover x handle = (Act.attempt x >>= resume handle) := by
  funext k
  refine congrArg x (funext fun r => ?_)
  obtain (⟨f⟩ | ⟨⟩) | a := r <;> rfl

/-! ### Computations without waiting -/

theorem prompt_ofEnding (r : Ending α) : Prompt (Act.ofEnding r : Act σ ν α) := fun _ hk => hk r

theorem prompt_pure (a : α) : Prompt (pure a : Act σ ν α) := prompt_ofEnding _

theorem prompt_bind {x : Act σ ν α} {f : α → Act σ ν β} (hx : Prompt x) (hf : ∀ a, Prompt (f a)) :
    Prompt (x >>= f) := by
  refine fun k hk => hx _ fun r => ?_
  cases r with
  | ok a => exact hf a k hk
  | error e => exact hk _

theorem prompt_ite {c : Prop} [Decidable c] {x y : Act σ ν α} (hx : Prompt x) (hy : Prompt y) :
    Prompt (if c then x else y) := by
  split
  · exact hx
  · exact hy

theorem prompt_change (f : σ → α × σ) : Prompt (Act.change f : Act σ ν α) := fun _ hk _ => hk _

theorem prompt_modify (f : σ → σ) : Prompt (Act.modify f : Act σ ν Unit) := prompt_change _

theorem prompt_call (c : Call ν) : Prompt (Act.call c : Act σ ν c.Reply) := fun _ hk _ => hk _

theorem prompt_forM {f : β → Act σ ν Unit} (hf : ∀ b, Prompt (f b)) (bs : List β) :
    Prompt (bs.forM f) := by
  induction bs with
  | nil => exact prompt_pure ()
  | cons b bs ih => exact prompt_bind (hf b) fun _ => ih

theorem prompt_countEnd (passOver : Bool) (signal : Nat) (status : CellStatus ν) :
    Prompt (Act.countEnd passOver signal status : Act σ ν Unit) := by
  match status with
  | .ended (.error _) => exact prompt_ite (prompt_call _) (prompt_call _)
  | .pending | .fired | .ended (.ok _) => exact prompt_call _

theorem prompt_isDone (cell : Nat) : Prompt (Act.isDone cell : Act σ ν Bool) :=
  prompt_bind (prompt_call _) fun _ => prompt_pure _

theorem prompt_settleFirst (f : Option Failure) (signals : List Nat) :
    Prompt (Act.settleFirst f signals : Act σ ν Unit) := by
  induction signals with
  | nil => exact prompt_pure ()
  | cons s rest ih =>
    refine prompt_bind (prompt_isDone s) fun done => prompt_ite ih ?_
    cases f with
    | none => exact prompt_call _
    | some f => exact prompt_call _

theorem prompt_giveUp (g : Group) : Prompt (g.giveUp : Act σ ν Bool) :=
  prompt_bind (prompt_isDone _) fun _ => prompt_ite (prompt_pure false)
    (prompt_bind (prompt_call _) fun _ => prompt_bind (prompt_forM (fun _ => prompt_call _) _)
      fun _ => prompt_pure true)

theorem prompt_notice (g : Group) (status : CellStatus ν) :
    Prompt (g.notice status : Act σ ν Unit) := by
  refine prompt_bind (prompt_call _) fun _ => prompt_bind (prompt_isDone _) fun ended =>
    prompt_ite (prompt_bind (prompt_settleFirst _ _) fun _ => ?_) ?_
  all_goals
    split
    · exact prompt_bind (prompt_giveUp g) fun _ => prompt_ite (prompt_settleFirst _ _) (prompt_pure ())
    · exact prompt_pure ()

namespace Composed

variable {view : σ → τ} {K : {α : Type} → Act σ ν α → Prop} (h : Composed view @K)

include h

theorem pure (a : α) : K (Pure.pure a) := h.ofEnding _

theorem fail (f : Failure) : K (Act.fail f : Act σ ν α) := h.ofEnding _

theorem throw (f : Fault) : K (Act.throw f : Act σ ν α) := h.ofEnding _

theorem map {x : Act σ ν α} {f : α → β} (hx : K x) : K (f <$> x) :=
  h.bind hx fun _ => h.pure _

theorem recover {x : Act σ ν α} {handle : Fault → Act σ ν α} (hx : K x)
    (hh : ∀ f, K (handle f)) : K (Act.recover x handle) := by
  rw [recover_eq]
  refine h.bind (h.attempt hx) fun r => ?_
  obtain (⟨f⟩ | ⟨⟩) | a := r
  · exact hh f
  · exact h.ofEnding _
  · exact h.ofEnding _

theorem ensuring {x : Act σ ν α} {last : Act σ ν Unit} (hx : K x) (hl : K last) :
    K (Act.ensuring x last) :=
  h.bind (h.attempt hx) fun _ => h.bind hl fun _ => h.ofEnding _

omit h in
theorem ite (_ : Composed view @K) {c : Prop} [Decidable c] {x y : Act σ ν α} (hx : K x) (hy : K y) :
    K (if c then x else y) := by
  split
  · exact hx
  · exact hy

theorem modify {f : σ → σ} (hf : ∀ s, view s = view (f s)) : K (Act.modify f) := h.change hf

theorem forM {f : β → Act σ ν Unit} (hf : ∀ b, K (f b)) (bs : List β) :
    K (bs.forM f) := by
  induction bs with
  | nil => exact h.pure ()
  | cons b bs ih => exact h.bind (hf b) fun _ => ih

theorem mapM {f : β → Act σ ν α} (hf : ∀ b, K (f b)) (bs : List β) :
    K (bs.mapM f) := by
  suffices hloop : ∀ done, K (List.mapM.loop f bs done) from hloop []
  induction bs with
  | nil => exact fun done => h.pure _
  | cons b bs ih => exact fun done => h.bind (hf b) fun a => ih (a :: done)

/-- A kind that has all primitive steps in it. -/
theorem closed (hcall : ∀ c, K (Act.call c)) : Closed view @K where
  toComposed := h
  call c _ := hcall c
  gather value passOver tasks := by
    have hcount : ∀ signal status, K (Act.countEnd passOver signal status) := by
      intro signal status
      match status with
      | .ended (.error _) => exact h.ite (hcall _) (hcall _)
      | .pending | .fired | .ended (.ok _) => exact hcall _
    exact h.bind (hcall _) fun signal => h.bind (h.forM (fun _ =>
      h.bind (h.watch (prompt_countEnd _ _) (hcount signal)) fun _ => h.pure _) tasks) fun _ =>
        h.ite (h.wait _) (h.pure _)

end Composed

namespace Closed

variable {view : σ → τ} {K : {α : Type} → Act σ ν α → Prop} (h : Closed view @K)

include h

/-- A kind allows less if more is to be left alone. -/
theorem mono {τ' : Type} {view' : σ → τ'}
    (hview : ∀ s s', view' s = view' s' → view s = view s') : Closed view' @K :=
  { h with change := fun hf => h.change fun s => hview s _ (hf s) }

theorem newSignal : K Act.newSignal := h.call _ rfl

/-! ### Waiting -/

theorem sleep (d : Option Rat) : K (Act.sleep d) := by
  unfold Act.sleep
  split
  · exact h.bind h.newSignal fun _ => h.wait _
  · exact h.ite (h.wait _) (h.bind h.newSignal fun _ => h.bind (h.call _ rfl) fun _ =>
      h.ensuring (h.wait _) (h.call _ rfl))

theorem within {x : Act σ ν α} (hx : K x) (limit : Option Rat) : K (Act.within limit x) := by
  unfold Act.within
  split
  · exact hx
  · refine h.bind (h.call _ rfl) fun _ => h.bind (h.attempt hx) fun _ => h.bind (h.call _ rfl) fun _ => ?_
    split
    · exact h.throw _
    · exact h.ofEnding _

theorem valueOf (ofValue : ν → Option α) (task : Nat) : K (Act.valueOf ofValue task) := by
  refine h.bind (h.call _ rfl) fun status => ?_
  split
  · split
    · exact h.pure _
    · exact h.fail _
  · exact h.fail _
  · exact h.fail _

/-! ### Groups and limits -/

theorem isDone (cell : Nat) : K (Act.isDone cell) := h.bind (h.call _ rfl) fun _ => h.pure _

theorem settleFirst (f : Option Failure) (hf : ∀ g, f ≠ some (.fault g)) (signals : List Nat) :
    K (Act.settleFirst f signals) := by
  induction signals with
  | nil => exact h.pure ()
  | cons s rest ih =>
    refine h.bind (h.isDone s) fun done => h.ite ih ?_
    match f with
    | none | some .interrupted => exact h.call _ rfl
    | some (.fault g) => exact absurd rfl (hf g)

theorem faultCount (tasks : List Nat) : K (Act.faultCount tasks) := by
  induction tasks with
  | nil => exact h.pure 0
  | cons t rest ih =>
    exact h.bind (h.call _ rfl) fun status => h.bind ih fun count => h.pure _

theorem giveUp (g : Group) : K g.giveUp :=
  h.bind (h.isDone _) fun _ => h.ite (h.pure false)
    (h.bind (h.call _ rfl) fun _ => h.bind (h.forM (fun _ => h.call _ rfl) _) fun _ => h.pure true)

theorem notice (g : Group) (status : CellStatus ν) : K (g.notice status) := by
  refine h.bind (h.call _ rfl) fun _ => h.bind (h.isDone _) fun ended =>
    h.ite (h.bind (h.settleFirst none (fun _ => nofun) _) fun _ => ?_) ?_
  all_goals
    split
    · exact h.bind (h.giveUp g) fun _ => h.ite (h.settleFirst (some .interrupted) (fun _ => nofun) _) (h.pure ())
    · exact h.pure ()

theorem awaitAll (g : Group) (waits : List Nat) : K (g.awaitAll waits) := by
  induction waits with
  | nil => exact h.pure true
  | cons w rest ih =>
    refine h.bind (h.isDone _) fun ended => h.ite (h.pure false)
      (h.bind (h.attempt (h.wait _)) fun r => ?_)
    cases r with
    | ok _ => exact ih
    | error _ => exact h.bind (h.giveUp g) fun _ => h.bind ih fun _ => h.pure _

theorem together (value : ν) (tasks : List Nat) : K (Act.together value tasks) := by
  refine h.bind (h.call _ rfl) fun allEnded => h.bind h.newSignal fun givenUp =>
    h.bind (h.mapM (fun _ => h.newSignal) _) fun waits => ?_
  refine h.bind (h.forM (fun t => h.bind (h.watch (prompt_notice _) fun status => h.notice _ status)
    fun _ => h.pure ()) _) fun _ => ?_
  exact h.bind (h.awaitAll _ _) fun interrupted => h.bind (h.faultCount tasks) fun faults =>
    h.ite (h.throw _) (h.ite (h.fail _) (h.pure ()))

theorem interruptAndWait (value : ν) (task : Nat) : K (Act.interruptAndWait value task) :=
  h.bind h.newSignal fun _ => h.bind (h.watch (fun _ => prompt_call _) fun _ => h.call _ rfl) fun _ =>
    h.bind (h.call _ rfl) fun _ => h.ensuring (h.wait _) (h.call _ rfl)

theorem endedItself (task : Nat) : K (Act.endedItself task) := by
  refine h.bind (h.call _ rfl) fun status => ?_
  split
  · exact h.pure false
  · exact h.fail _
  · exact h.pure true

theorem waitAtMost {value : ν} {limit : Rat} {x : Act σ ν Unit} (hx : K x) :
    K (Act.waitAtMost value limit x) := by
  refine h.bind (h.spawn hx) fun task => ?_
  refine h.ite (h.bind (h.interruptAndWait value task) fun _ => h.endedItself task) ?_
  refine h.bind h.newSignal fun s => h.bind (h.call _ rfl) fun timer =>
    h.bind (h.watch (fun _ => prompt_call _) fun _ => h.call _ rfl) fun w => h.ensuring ?_ (h.call _ rfl)
  refine h.bind (h.attempt (h.wait _)) fun r => h.bind (h.isDone _) fun done =>
    h.ite (h.endedItself task) (h.bind (h.call _ rfl) fun _ =>
      h.bind (h.interruptAndWait value task) fun _ => ?_)
  cases r with
  | ok _ => exact h.endedItself task
  | error f => exact h.fail f

end Closed

end Act

/-! ### Computations that leave a part of the shared state alone

That a computation leaves a part of the state alone can be said of its steps: up to where it goes on
with what comes after, none of them changes the part, and neither does anything that it starts.  This
does not depend on a regime, so that it also holds where tasks are told apart.
-/

section Avoidance

variable {σ ν α β τ : Type} {view : σ → τ}

/-- The task has come to its end. -/
def Task.IsEnd (t : Task σ ν) : Prop := ∃ r, t = .finish r

/-- From the state `s` on the task comes to one of the `exits` by steps that leave a part of the
shared state alone; what it starts comes to its end in this way. -/
inductive Task.Leads (view : σ → τ) : (exits : Task σ ν → Prop) → σ → Task σ ν → Prop
  | exit {exits : Task σ ν → Prop} {s : σ} {t : Task σ ν} (h : exits t) : Leads view exits s t
  | look {exits : Task σ ν → Prop} {s : σ} {next : σ → Task σ ν}
    (h : Leads view exits s (next s)) : Leads view exits s (.look next)
  | put {exits : Task σ ν → Prop} {s s' : σ} {next : Task σ ν} (hview : view s = view s')
    (h : Leads view exits s' next) : Leads view exits s (.put s' next)
  | call {exits : Task σ ν → Prop} {s : σ} {c : Call ν} {next : c.Reply → Task σ ν}
    (h : ∀ reply, Leads view exits s (next reply)) : Leads view exits s (.call c next)
  | spawn {exits : Task σ ν → Prop} {s : σ} {repeated : Bool} {body : Task σ ν}
    {next : Nat → Task σ ν} (hbody : ∀ s', Leads view IsEnd s' body)
    (h : ∀ t, Leads view exits s (next t)) : Leads view exits s (.spawn repeated body next)
  | watch {exits : Task σ ν → Prop} {s : σ} {cell : Nat} {reaction : CellStatus ν → Task σ ν}
    {next : Nat → Task σ ν} (hreaction : ∀ status s', Leads view IsEnd s' (reaction status))
    (h : ∀ w, Leads view exits s (next w)) : Leads view exits s (.watch cell reaction next)
  | wait {exits : Task σ ν → Prop} {s : σ} {what : Awaited} {next : Option Failure → Task σ ν}
    (h : ∀ answer s', Leads view exits s' (next answer)) : Leads view exits s (.wait what next)

theorem Task.Leads.trans {exits exits' : Task σ ν → Prop} {s : σ} {t : Task σ ν}
    (h : Leads view exits s t) (hexit : ∀ t s, exits t → Leads view exits' s t) :
    Leads view exits' s t := by
  induction h with
  | exit h => exact hexit _ _ h
  | look _ ih => exact .look (ih hexit)
  | put hview _ ih => exact .put hview (ih hexit)
  | call _ ih => exact .call fun reply => ih reply hexit
  | spawn hbody _ _ ih => exact .spawn hbody fun t => ih t hexit
  | watch hreaction _ _ ih => exact .watch hreaction fun w => ih w hexit
  | wait _ ih => exact .wait fun answer s' => ih answer s' hexit

namespace Act

/-- No step of the computation, and of what it starts, changes a part of the shared state. -/
def Avoids (view : σ → τ) (x : Act σ ν α) : Prop :=
  ∀ (k : Ending α → Task σ ν) (s : σ), (x k).Leads view (fun t => ∃ r, t = k r) s

variable {x : Act σ ν α}

theorem Avoids.toTask {toValue : α → ν} (h : Avoids view x) (s : σ) :
    (toTask toValue x).Leads view Task.IsEnd s :=
  (h _ s).trans fun _ _ ⟨r, hr⟩ => .exit ⟨r.map toValue, hr⟩

theorem avoids_composed : Composed (ν := ν) view fun x => Avoids view x where
  ofEnding r := fun _ _ => .exit ⟨r, rfl⟩
  bind hx hf := fun k s => (hx _ s).trans fun t s' ⟨r, hr⟩ => by
    cases r with
    | ok a => exact hr ▸ hf a k s'
    | error f => exact .exit ⟨.error f, hr⟩
  attempt hx := fun k s => (hx _ s).trans fun _ _ ⟨r, hr⟩ => .exit ⟨.ok r, hr⟩
  gets f := fun _ s => .look (.exit ⟨.ok (f s), rfl⟩)
  change {_} {f} hf := fun _ s => .look (.put (hf s) (.exit ⟨.ok (f s).1, rfl⟩))
  wait what := fun _ _ => .wait fun
    | none, _ => .exit ⟨.ok (), rfl⟩
    | some f, _ => .exit ⟨.error f, rfl⟩
  spawn hx := fun _ _ => .spawn (fun s' => hx.toTask s') fun t => .exit ⟨.ok t, rfl⟩
  spawnForever hx := fun _ _ => .spawn (fun s' => hx.toTask s') fun t => .exit ⟨.ok t, rfl⟩
  watch _ hx := fun _ _ => .watch (fun status s' => (hx status).toTask s') fun w =>
    .exit ⟨.ok w, rfl⟩

/-- Computations that avoid a part of the shared state make up others that do. -/
theorem avoids_closed : Closed (ν := ν) view fun x => Avoids view x :=
  avoids_composed.closed fun _ _ _ => .call fun reply => .exit ⟨.ok reply, rfl⟩

end Act

end Avoidance

end ChatCommands.Concurrency
