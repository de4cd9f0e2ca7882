import ChatCommands.Proofs.Concurrency.Tally
import ChatCommands.Proofs.Engine.Milestones
import ChatCommands.Proofs.Registry.Entries
import ChatCommands.Proofs.Sandbox.Supervision
import ChatCommands.Registry.Cache

/-!
What becomes of messages when the store behind a cache fails.

Once a tenant's commands and prefix are in the cache, a store that answers with an error, or with what
is in the cache, does not matter.  A read that is interrupted does: then the registry has no answer,
and the message comes back as if it matched nothing.  So of the messages that match the snapshot no
more come back without an outcome than reads of the store were cut off, apart from those that the
engine ignores because it is switched off.
-/

namespace ChatCommands.Engine

open Concurrency Act Registry

variable {ω α β : Type}

/-! ### What is observed -/

/-- What the callers of an engine and its store report: the messages that have come back without an
outcome, and the tenants for whom a read was cut off, each time. -/
structure Reports where
  unanswered : List Message := []
  cutOff : List Text := []

/-- A read of the store that reports when it is cut off. -/
def observedRead (p : Part ω Reports) (tenant : Text) (x : Action ω α) : Action ω α := do
  let r ← Act.attempt x
  if let .error .interrupted := r then
    p.modify fun a => { a with cutOff := tenant :: a.cutOff }
  Act.ofEnding r

/-- The store with its reads observed. -/
def observed (p : Part ω Reports) (store : Source ω) : Source ω where
  commands tenant := observedRead p tenant (store.commands tenant)
  sigil := store.sigil.map fun ask tenant => observedRead p tenant (ask tenant)

/-- Handles a message for a caller that reports if it comes back without an outcome. -/
def handleReporting (e : Setup ω) (p : Part ω Reports) (m : Message) :
    Action ω (Option Outcome) := do
  let o ← handle e m
  if o.isNone then
    p.modify fun a => { a with unanswered := m :: a.unanswered }
  pure o

/-- The commands and the prefix of a tenant. -/
abbrev Snapshot : Type := List Command × Option Text

/-- The message is of the tenant and fires a command of the snapshot. -/
def firesOf (e : Setup ω) (tenant : Text) (snap : Snapshot) (m : Message) : Bool :=
  m.tenant = tenant && !m.fromBot && (matched? e m snap.1 snap.2).isSome

/-- A message of the tenant was taken in while the engine was switched off. -/
def ignores (tenant : Text) : Deed → Bool
  | .received _ m enabled => m.tenant = tenant && !enabled
  | _ => false

/-- What is cached for a tenant, and the counts of its messages that were ignored, its messages that
fire a command but have come back without an outcome, and its reads that were cut off. -/
structure Standing where
  commands : Option (List Command)
  sigil : Option (Option Text)
  ignored : Nat
  missed : Nat
  cutOff : Nat

/-- The standing of a tenant. -/
def standing (e : Setup ω) (p : Part ω Reports) (tenant : Text) (snap : Snapshot) (w : World ω) :
    Standing where
  commands := (w.cachedCommands.lookup tenant).map Cached.value
  sigil := (w.cachedSigils.lookup tenant).map Cached.value
  ignored := w.deeds.countP (ignores tenant)
  missed := (p.get w.env).unanswered.countP (firesOf e tenant snap)
  cutOff := (p.get w.env).cutOff.count tenant

variable {e : Setup ω} {p : Part ω Reports} {tenant : Text} {snap : Snapshot}

/-- The computation leaves the standing of the tenant alone. -/
abbrev Apart (e : Setup ω) (p : Part ω Reports) (tenant : Text) (snap : Snapshot)
    (x : Action ω α) : Prop :=
  x.Minds (standing e p tenant snap) fun _ => True

/-- The engine reads its registry through a cache; of the tenant the store tells nothing but the
snapshot, if it tells anything, and all collaborators leave the standing of the tenant alone. -/
structure Setup.Caches (e : Setup ω) (p : Part ω Reports) (tenant : Text) (snap : Snapshot)
    (s : CacheSettings ω) (store : Source ω) : Prop where
  registry : e.registry = cached s (observed p store)
  clock : ∃ now, s.clock = Action.askEnv now
  commands : Yields (· = snap.1) (store.commands tenant)
  sigil : ∀ ask, store.sigil = some ask → Yields (· = snap.2) (ask tenant)
  noSigil : store.sigil = none → snap.2 = none
  commandsApart : ∀ t, Apart e p tenant snap (store.commands t)
  sigilApart : ∀ ask, store.sigil = some ask → ∀ t, Apart e p tenant snap (ask t)
  runtimes : e.runtimes.Within fun x => Apart e p tenant snap x
  reply : ∀ send, e.reply = some send → ∀ channel content, Apart e p tenant snap (send channel content)
  audit : ∀ sink, e.audit = some sink → sink.Within fun x => Apart e p tenant snap x

/-! ### The tally -/

/-- The snapshot is cached, and every message that was missed, or may yet be, was ignored or a read was
cut off for it. -/
def standingTally (hasSigil : Bool) (snap : Snapshot) : Tally Standing Unit where
  holds a g := a.commands = some snap.1 ∧ (hasSigil = true → a.sigil = some snap.2) ∧
    a.missed + g.card ≤ a.cutOff + a.ignored
  fewer h := by
    obtain ⟨hcommands, hsigil, hcount⟩ := h
    rw [Multiset.card_add] at hcount
    exact ⟨hcommands, hsigil, by omega⟩

/-- The excuse for a message that comes back without an outcome, if it needs one. -/
def excuse (e : Setup ω) (tenant : Text) (snap : Snapshot) (m : Message) : Multiset Unit :=
  if firesOf e tenant snap m then {()} else 0

theorem countP_ignores_milestones (ds : List Deed) :
    (ds.filter Deed.isMilestone).countP (ignores tenant) = ds.countP (ignores tenant) := by
  rw [List.countP_filter]
  refine List.countP_congr fun d _ => ?_
  cases d <;> simp [ignores, Deed.isMilestone]

instance distant_standing : Distant (standing e p tenant snap) where
  eq_of {w w'} _ hmilestones henv hcommands hsigils _ := by
    have hignored : w.deeds.countP (ignores tenant) = w'.deeds.countP (ignores tenant) := by
      rw [← countP_ignores_milestones w.deeds, ← countP_ignores_milestones w'.deeds]
      exact congrArg _ hmilestones
    rw [standing, standing, hignored, henv, hcommands, hsigils]

instance unlogged_standing : Unlogged (standing e p tenant snap) := ⟨fun _ _ => rfl⟩

theorem apart_closed : Closed (standing e p tenant snap) (fun x => Apart e p tenant snap x) :=
  minds_closed

variable {hasSigil : Bool}

/-- What holds for a task that has its turn and these excuses. -/
abbrev Excused (hasSigil : Bool) (e : Setup ω) (p : Part ω Reports) (tenant : Text) (snap : Snapshot)
    (own : Multiset Unit) (s : Share (World ω) Product Unit) : Prop :=
  (standingTally hasSigil snap).Held (standing e p tenant snap) own s

/-- The computation takes what holds with some excuses to what it ends with. -/
abbrev Excuses (hasSigil : Bool) (e : Setup ω) (p : Part ω Reports) (tenant : Text) (snap : Snapshot)
    (own : Multiset Unit) (x : Action ω α)
    (post : Ending α → Share (World ω) Product Unit → Prop) : Prop :=
  Manages ((standingTally hasSigil snap).commons (standing e p tenant snap))
    (Excused hasSigil e p tenant snap own) x post

/-- The excuse that there is if a computation was cut off. -/
def ifCutOff : Ending α → Multiset Unit
  | .error .interrupted => {()}
  | _ => 0

theorem standing_set (hp : p.Lawful) (w : World ω) (a : Reports) :
    standing e p tenant snap { w with env := p.set a w.env } =
      { standing e p tenant snap w with
        missed := a.unanswered.countP (firesOf e tenant snap), cutOff := a.cutOff.count tenant } := by
  simp [standing, hp a w.env]

/-- A read that is cut off is an excuse. -/
theorem excuses_observedRead (hp : p.Lawful) {q : α → Prop} {x : Action ω α}
    (hx : Apart e p tenant snap x) (hq : Yields q x) :
    Excuses hasSigil e p tenant snap 0 (observedRead p tenant x) fun r s =>
      (∀ a, r = .ok a → q a) ∧ Excused hasSigil e p tenant snap (ifCutOff r) s := by
  refine manages_attempt_bind (Tally.held_yields hq (Tally.held_of_minds hx)) fun r => ?_
  match r with
  | .ok a => exact manages_ofEnding _ fun s hs => hs
  | .error (.fault f) => exact manages_ofEnding _ fun s hs => hs
  | .error .interrupted =>
    refine Manages.of_pre (Tally.held_modify_bind {()} (fun w g h => ?_) ?_) fun s hs => hs.2
    · obtain ⟨hcommands, hsigil, hcount⟩ := h
      rw [standing_set hp]
      refine ⟨hcommands, hsigil, ?_⟩
      have hone : (tenant :: (p.get w.env).cutOff).count tenant =
          (p.get w.env).cutOff.count tenant + 1 := List.count_cons_self
      simp only [standing, hone, Multiset.card_add, Multiset.card_zero,
        Multiset.card_singleton] at hcount ⊢
      omega
    · exact manages_ofEnding _ fun s hs => ⟨nofun, hs⟩

/-- The reads for other tenants do not matter. -/
theorem apart_observedRead (hp : p.Lawful) {x : Action ω α} {t : Text} (ht : t ≠ tenant)
    (hx : Apart e p tenant snap x) : Apart e p tenant snap (observedRead p t x) := by
  have hmodify : Apart e p tenant snap
      (p.modify fun a => { a with cutOff := t :: a.cutOff } : Action ω Unit) := by
    refine apart_closed.change fun w => ?_
    refine Eq.trans ?_ (standing_set hp w { p.get w.env with cutOff := t :: _ }).symm
    simp [standing, ht]
  refine apart_closed.bind (apart_closed.attempt hx) fun r => ?_
  match r with
  | .ok a => exact apart_closed.ofEnding _
  | .error (.fault f) => exact apart_closed.ofEnding _
  | .error .interrupted => exact apart_closed.bind hmodify fun _ => apart_closed.ofEnding _

/-! ### Reading the registry -/

/-- The excuse that there is if a computation has failed. -/
def ifFailed : Ending α → Multiset Unit
  | .ok _ => 0
  | .error _ => {()}

/-- A read that is answered with a value, or cut off. -/
def Serves (value : α) : Ending α → Prop
  | .ok a => a = value
  | .error .interrupted => True
  | .error (.fault _) => False

/-- What holds after a read that is answered with a value, or cut off. -/
def Served (hasSigil : Bool) (e : Setup ω) (p : Part ω Reports) (tenant : Text) (snap : Snapshot)
    (value : α) (r : Ending α) (s : Share (World ω) Product Unit) : Prop :=
  Serves value r ∧ Excused hasSigil e p tenant snap (ifCutOff r) s

theorem Served.error {f : Failure} {a : α} {b : β} {s : Share (World ω) Product Unit}
    (h : Served hasSigil e p tenant snap a (.error f) s) :
    Served hasSigil e p tenant snap b (.error f) s := by
  cases f with
  | fault f => exact h.1.elim
  | interrupted => exact h

theorem excuses_log_bind {own : Multiset Unit} {record : LogRecord} {y : Action ω α}
    {post : Ending α → Share (World ω) Product Unit → Prop}
    (hy : Excuses hasSigil e p tenant snap own y post) :
    Excuses hasSigil e p tenant snap own
      (do Act.modify fun w => { w with journal := record :: w.journal }; y) post :=
  Tally.held_modify_bind own (fun _ _ h => h) hy

/-- **An error of the store does not matter** if there is an answer in the cache. -/
theorem served_lookUp {s : CacheSettings ω} (hclock : ∃ now, s.clock = Action.askEnv now)
    {place : CachePlace ω α} {value : α} {ask : Action ω α} {stale : Rat → Fault → Action ω Unit}
    (hcached : ∀ w g, (standingTally hasSigil snap).holds (standing e p tenant snap w) g →
      ((place.get w).lookup tenant).map Cached.value = some value)
    (hkeep : ∀ w g now, (standingTally hasSigil snap).holds (standing e p tenant snap w) g →
      (standingTally hasSigil snap).holds (standing e p tenant snap
        (place.set (Store.assign tenant ⟨now, value⟩ (place.get w)) w)) g)
    (hask : Excuses hasSigil e p tenant snap 0 ask fun r s =>
      (∀ a, r = .ok a → a = value) ∧ Excused hasSigil e p tenant snap (ifCutOff r) s)
    (hstale : ∀ age f, ∃ record : LogRecord,
      stale age f = Act.modify fun w => { w with journal := record :: w.journal }) :
    Excuses hasSigil e p tenant snap 0 (lookUp s place tenant ask stale)
      (Served hasSigil e p tenant snap value) := by
  obtain ⟨now, hnow⟩ := hclock
  unfold lookUp
  rw [hnow]
  refine manages_gets_bind fun time => manages_gets_bind fun found => ?_
  cases found with
  | none =>
    intro k Q s hs
    obtain ⟨⟨hs, -⟩, hnone⟩ := hs
    have hvalue := hcached _ _ hs.2
    rw [hnone] at hvalue
    cases hvalue
  | some c =>
    have hvalue : ∀ s : Share (World ω) Product Unit, (Excused hasSigil e p tenant snap 0 s ∧
        now s.scene.shared.env = time) ∧ (place.get s.scene.shared).lookup tenant = some c →
          c.value = value := by
      rintro s ⟨⟨hs, -⟩, hsome⟩
      have hvalue := hcached _ _ hs.2
      rw [hsome] at hvalue
      exact Option.some.inj hvalue
    simp only []
    split
    · exact manages_ofEnding _ fun s hs => ⟨hvalue s hs, hs.1.1⟩
    · intro k Q s hs
      -- what is known of the cached answer is known for good
      obtain rfl := hvalue s hs
      refine manages_attempt_bind hask (fun r => ?_) k Q s hs.1.1
      match r with
      | .ok v =>
        intro k Q s hs
        obtain rfl := hs.1 v rfl
        exact Tally.held_modify_bind 0 (fun w g h => hkeep w _ time h)
          (manages_ofEnding _ fun s hs => ⟨rfl, hs⟩) k Q s hs.2
      | .error (.fault f) =>
        obtain ⟨record, hrecord⟩ := hstale (age time c.readAt) f
        simp only [hrecord]
        exact Manages.of_pre (excuses_log_bind (manages_ofEnding _ fun s hs => ⟨rfl, hs⟩))
          fun s hs => hs.2
      | .error .interrupted => exact manages_ofEnding _ fun s hs => ⟨trivial, hs.2⟩

variable {s : CacheSettings ω} {store : Source ω}

theorem served_cachedCommands (hp : p.Lawful) (he : e.Caches p tenant snap s store) :
    Excuses hasSigil e p tenant snap 0 (cachedCommands s (observed p store) tenant)
      (Served hasSigil e p tenant snap snap.1) := by
  refine served_lookUp he.clock (fun w g h => h.1) (fun w g now h => ?_)
    (excuses_observedRead hp (he.commandsApart tenant) he.commands) fun age f => ⟨_, rfl⟩
  refine ⟨?_, h.2.1, h.2.2⟩
  change ((Store.assign tenant _ w.cachedCommands).lookup tenant).map _ = _
  rw [lookup_assign_self]
  rfl

theorem served_cachedSigil (hp : p.Lawful) (he : e.Caches p tenant snap s store) :
    Excuses store.sigil.isSome e p tenant snap 0 (cachedSigil s (observed p store) tenant)
      (Served store.sigil.isSome e p tenant snap snap.2) := by
  have hsigil : (observed p store).sigil =
    store.sigil.map fun ask tenant => observedRead p tenant (ask tenant) := rfl
  unfold cachedSigil
  rw [hsigil]
  cases hstore : store.sigil with
  | none => exact manages_ofEnding _ fun _ hs => ⟨(he.noSigil hstore).symm, hs⟩
  | some ask =>
    refine served_lookUp he.clock (fun w g h => h.2.1 rfl) (fun w g now h => ?_)
      (excuses_observedRead hp (he.sigilApart ask hstore tenant) (he.sigil ask hstore))
      fun age f => ⟨_, rfl⟩
    refine ⟨h.1, fun _ => ?_, h.2.2⟩
    change ((Store.assign tenant _ w.cachedSigils).lookup tenant).map _ = _
    rw [lookup_assign_self]
    rfl

/-- What holds after a read under a time limit: if it has come to a value that is the snapshot. -/
def Found (hasSigil : Bool) (e : Setup ω) (p : Part ω Reports) (tenant : Text) (snap : Snapshot)
    (r : Ending Snapshot) (s : Share (World ω) Product Unit) : Prop :=
  (∀ found, r = .ok found → found = snap) ∧ Excused hasSigil e p tenant snap (ifFailed r) s

theorem steady_found {r : Ending Snapshot} :
    ((standingTally hasSigil snap).commons (standing e p tenant snap)).Steady (ν := Product)
      (standing e p tenant snap) (Found hasSigil e p tenant snap r) :=
  steady_fact Tally.steady_held _

/-- What the registry says is the snapshot, or it was cut off. -/
def Answered (hasSigil : Bool) (e : Setup ω) (p : Part ω Reports) (tenant : Text) (snap : Snapshot)
    (r : Ending Snapshot) (s : Share (World ω) Product Unit) : Prop :=
  r = .ok snap ∧ Excused hasSigil e p tenant snap 0 s ∨
    (∀ f, r ≠ .error (.fault f)) ∧ Excused hasSigil e p tenant snap {()} s

/-- **A registry with a snapshot has no answer only if it is cut off.** -/
theorem answered_readRegistry (hp : p.Lawful) (he : e.Caches p tenant snap s store) (n : Nat) :
    Excuses store.sigil.isSome e p tenant snap 0 (readRegistry e n tenant)
      (Answered store.sigil.isSome e p tenant snap) := by
  have hread : Excuses store.sigil.isSome e p tenant snap 0 (do
      let commands ← cachedCommands s (observed p store) tenant
      let sigil ← cachedSigil s (observed p store) tenant
      Action.note (.listed n tenant commands sigil)
      pure (commands, sigil)) (Served store.sigil.isSome e p tenant snap snap) := by
    refine manages_bind (served_cachedCommands hp he) (fun commands => ?_) fun _ _ hs => hs.error
    refine manages_of_fact fun hcommands => ?_
    refine manages_bind (served_cachedSigil hp he) (fun sigil => ?_) fun _ _ hs => hs.error
    refine manages_of_fact fun hsigil => ?_
    refine Tally.held_modify_bind 0 (fun w g h => h) (manages_ofEnding _ fun s hs => ⟨?_, hs⟩)
    rw [show commands = snap.1 from hcommands, show sigil = snap.2 from hsigil]
    rfl
  have hwithin : Excuses store.sigil.isSome e p tenant snap 0
      (Act.within e.config.registryTimeout.toRat? do
        let commands ← cachedCommands s (observed p store) tenant
        let sigil ← cachedSigil s (observed p store) tenant
        Action.note (.listed n tenant commands sigil)
        pure (commands, sigil)) (Found store.sigil.isSome e p tenant snap) := by
    refine manages_within Tally.steady_held (fun r => steady_found (r := r))
      (hread.weaken (fun _ hs => hs) fun r s hs => ?_) (fun s hs => ⟨by simp, hs.2⟩) _
    match r with
    | .ok found => exact ⟨fun _ h => (Except.ok.inj h).symm.trans hs.1, hs.2⟩
    | .error .interrupted => exact ⟨by simp, hs.2⟩
    | .error (.fault f) => exact hs.1.elim
  unfold readRegistry
  rw [he.registry]
  refine manages_recover hwithin (fun found s hs => .inl ⟨?_, hs.2⟩)
    (fun s hs => .inr ⟨nofun, hs.2⟩) fun f => ?_
  · rw [hs.1 found rfl]
  · exact Manages.of_pre (excuses_log_bind (manages_ofEnding _ fun s hs => .inr ⟨nofun, hs⟩))
      fun s hs => hs.2

/-- A cache in which other tenants' answers change. -/
theorem apart_lookUp {t : Text} (place : CachePlace ω α) {ask : Action ω α}
    {stale : Rat → Fault → Action ω Unit} (hclock : ∃ now, s.clock = Action.askEnv now)
    (hset : ∀ v w, standing e p tenant snap (place.set (Store.assign t v (place.get w)) w) =
      standing e p tenant snap w)
    (hask : Apart e p tenant snap ask) (hstale : ∀ age f, Apart e p tenant snap (stale age f)) :
    Apart e p tenant snap (lookUp s place t ask stale) := by
  obtain ⟨now, hnow⟩ := hclock
  unfold lookUp
  rw [hnow]
  have hstore : ∀ (time : Rat) (v : α), Apart e p tenant snap (do
      Act.modify fun w => place.set (Store.assign t ⟨time, v⟩ (place.get w)) w
      pure v : Action ω α) := fun _ _ =>
    apart_closed.bind (apart_closed.modify fun w => (hset _ w).symm) fun _ => apart_closed.pure _
  refine apart_closed.bind (apart_closed.gets _) fun time =>
    apart_closed.bind (apart_closed.gets _) fun found => ?_
  cases found with
  | none => exact apart_closed.bind hask fun v => hstore time v
  | some c =>
    refine apart_closed.ite (apart_closed.pure _) (apart_closed.bind (apart_closed.attempt hask)
      fun r => ?_)
    match r with
    | .ok v => exact hstore time v
    | .error (.fault f) => exact apart_closed.bind (hstale _ f) fun _ => apart_closed.pure _
    | .error .interrupted => exact apart_closed.fail _

/-- The registry's answers for other tenants do not matter. -/
theorem apart_readRegistry (hp : p.Lawful) (he : e.Caches p tenant snap s store) (n : Nat)
    {t : Text} (ht : t ≠ tenant) : Apart e p tenant snap (readRegistry e n t) := by
  have hcommands : Apart e p tenant snap (cachedCommands s (observed p store) t) :=
    apart_lookUp commandPlace he.clock
      (fun v w => by simp [standing, commandPlace, lookup_assign_of_ne ht.symm])
      (apart_observedRead hp ht (he.commandsApart t)) fun _ _ => apart_closed.log rfl
  have hsigil : Apart e p tenant snap (cachedSigil s (observed p store) t) := by
    unfold cachedSigil observed
    cases hstore : store.sigil with
    | none => exact apart_closed.pure none
    | some ask =>
      exact apart_lookUp sigilPlace he.clock
        (fun v w => by simp [standing, sigilPlace, lookup_assign_of_ne ht.symm])
        (apart_observedRead hp ht (he.sigilApart ask hstore t)) fun _ _ => apart_closed.log rfl
  have hnote : ∀ commands sigil,
      Apart e p tenant snap (Action.note (.listed n t commands sigil) : Action ω Unit) := fun _ _ =>
    apart_closed.modify fun w => by simp [standing, ignores]
  unfold readRegistry
  rw [he.registry]
  refine apart_closed.recover (apart_closed.within (apart_closed.bind hcommands fun _ =>
    apart_closed.bind hsigil fun _ => ?_) _) fun f => ?_
  · exact apart_closed.bind (hnote _ _) fun _ => apart_closed.pure _
  · exact apart_closed.bind (apart_closed.log rfl) fun _ => apart_closed.pure _

/-! ### Messages -/

/-- The work on a message has come to nothing: it has matched no command. -/
def overlooks (x : Staged) : Bool := x.1.command.isNone || x.2 matches .ok none

/-- A message that has matched a command is not overlooked. -/
theorem yields_requestRun (n : Nat) (m : Message) (c : Command) :
    Yields (fun x => overlooks x = false) (requestRun e n m c) := by
  have hpure : ∀ {x : Staged}, overlooks x = false →
      Yields (fun x => overlooks x = false) (pure x : Action ω Staged) := fun hx =>
    yields_ofEnding fun _ h => Except.ok.inj h ▸ hx
  have hstart : ∀ r, Yields (fun x => overlooks x = false) (start e n m c r) := by
    intro r
    unfold start
    split
    · exact yields_last fun _ => hpure rfl
    · have hrest : ∀ ending : Ending RunResult, overlooks (⟨some c, r, 0⟩, ending.map some) = false := by
        intro ending
        cases ending <;> rfl
      cases r with
      | none => exact yields_last fun _ => yields_last fun ending => hpure (hrest ending)
      | some r =>
        exact yields_last fun _ => yields_last fun _ => yields_last fun ending => hpure (hrest ending)
  refine yields_last fun ⟨d, r⟩ => ?_
  simp only []
  split
  · unfold reviewThen
    split
    · exact hpure rfl
    · refine yields_last fun _ => ?_
      split
      · exact hstart r
      · exact yields_last fun _ => hpure rfl
  · exact yields_last fun _ => hpure rfl

/-- The excuse that is left after the work on a message. -/
def afterWork (e : Setup ω) (tenant : Text) (snap : Snapshot) (m : Message) :
    Ending Staged → Multiset Unit
  | .ok x => if overlooks x then excuse e tenant snap m else 0
  | .error _ => 0

theorem excuse_le (m : Message) : excuse e tenant snap m ≤ {()} := by
  unfold excuse
  split
  · exact le_refl _
  · exact Multiset.zero_le _

theorem excuse_of_not {m : Message} (h : firesOf e tenant snap m = false) :
    excuse e tenant snap m = 0 := by
  rw [excuse, h]
  rfl

theorem card_excuse_le (m : Message) :
    (excuse e tenant snap m).card ≤ if m.tenant = tenant then 1 else 0 := by
  by_cases htenant : m.tenant = tenant
  · rw [if_pos htenant]
    exact Multiset.card_le_card (excuse_le m)
  · rw [excuse_of_not (by simp [firesOf, htenant])]
    exact Nat.zero_le _

theorem afterWork_le (m : Message) (r : Ending Staged) :
    afterWork e tenant snap m r ≤ excuse e tenant snap m := by
  unfold afterWork
  split
  · split
    · exact le_refl _
    · exact Multiset.zero_le _
  · exact Multiset.zero_le _

theorem excuses_requestRun {own : Multiset Unit} (he : e.Caches p tenant snap s store) (n : Nat)
    (m : Message) (c : Command) :
    Excuses hasSigil e p tenant snap own (do Action.note (.matched m c); requestRun e n m c)
      fun r => Excused hasSigil e p tenant snap (afterWork e tenant snap m r) := by
  refine Tally.held_modify_bind own (fun w g h => h) ?_
  refine Manages.weaken (Tally.held_yields (yields_requestRun n m c)
    (Tally.held_of_minds (apart_closed.requestRun he.runtimes n m c))) (fun _ hs => hs) ?_
  rintro r s ⟨hr, hs⟩
  refine hs.fewer ?_
  cases r with
  | ok x =>
    rw [afterWork, hr x rfl]
    exact Multiset.zero_le _
  | error f => exact Multiset.zero_le _

theorem excuses_afterRead {own : Multiset Unit} (he : e.Caches p tenant snap s store) (n : Nat)
    (m : Message) (found : Snapshot)
    (hfound : matched? e m found.1 found.2 = none → excuse e tenant snap m ≤ own) :
    Excuses hasSigil e p tenant snap own
      (match matched? e m found.1 found.2 with
        | none => pure ({}, .ok none)
        | some c => do
          Action.note (.matched m c)
          requestRun e n m c)
      fun r => Excused hasSigil e p tenant snap (afterWork e tenant snap m r) := by
  split
  · rename_i hnone
    exact manages_ofEnding _ fun s hs => hs.fewer (hfound hnone)
  · exact excuses_requestRun he n m _

/-- **A message that fires a command of the snapshot is overlooked only if a read was cut off.** -/
theorem excuses_work (hp : p.Lawful) (he : e.Caches p tenant snap s store) (n : Nat) (m : Message) :
    Excuses store.sigil.isSome e p tenant snap 0 (work e n m)
      fun r => Excused store.sigil.isSome e p tenant snap (afterWork e tenant snap m r) := by
  by_cases htenant : m.tenant = tenant
  · subst htenant
    refine manages_attempt_bind (answered_readRegistry hp he n) fun r => ?_
    cases r with
    | error f =>
      refine manages_ofEnding _ fun s hs => ?_
      rcases hs with ⟨hnever, -⟩ | ⟨-, hs⟩
      · cases hnever
      · exact hs.fewer (excuse_le m)
    | ok found =>
      intro k Q s hs
      rcases hs with ⟨hfound, hs⟩ | ⟨-, hs⟩
      · obtain rfl := Except.ok.inj hfound
        refine excuses_afterRead he n m found (fun hnone => ?_) k Q s hs
        rw [excuse_of_not (by simp [firesOf, hnone])]
      · exact excuses_afterRead he n m found (fun _ => excuse_le m) k Q s hs
  · have hnone : excuse e tenant snap m = 0 := excuse_of_not (by simp [firesOf, htenant])
    have hle : ∀ r, afterWork e tenant snap m r ≤ 0 := fun r => hnone ▸ afterWork_le m r
    refine Manages.weaken (Tally.held_of_minds ?_) (fun _ hs => hs) fun r s hs => hs.fewer (hle r)
    refine apart_closed.bind (apart_closed.attempt (apart_readRegistry hp he n htenant)) fun r => ?_
    cases r with
    | error f => exact apart_closed.pure _
    | ok found =>
      obtain ⟨commands, sigil⟩ := found
      simp only []
      split
      · exact apart_closed.pure _
      · exact apart_closed.bind (apart_closed.noteBetween _ rfl) fun _ =>
          apart_closed.requestRun he.runtimes n m _

theorem excuses_bounded {stage : Action ω Staged} {m : Message} (hstage : Excuses hasSigil e p tenant
      snap 0 stage fun r => Excused hasSigil e p tenant snap (afterWork e tenant snap m r))
    (limit : Option Rat) : Excuses hasSigil e p tenant snap 0 (bounded limit stage)
      fun r => Excused hasSigil e p tenant snap (afterWork e tenant snap m r) := by
  cases limit with
  | none => exact hstage
  | some d =>
    refine manages_steady_call_bind Tally.steady_held rfl rfl fun a =>
      manages_bind hstage (fun ⟨p', r⟩ => ?_) fun _ _ hs => hs
    refine manages_steady_call_bind Tally.steady_held rfl rfl fun expired => ?_
    split
    · exact manages_ofEnding _ fun s hs => hs
    · exact manages_ofEnding _ fun s hs => hs

/-- A message that was not overlooked comes to a result. -/
theorem yields_settle (m : Message) (p' : Progress) (r : Ending (Option RunResult)) :
    Yields (fun o => overlooks (p', r) = false → o.isSome) (settle e m p' r) := by
  have hpure : ∀ o : Option RunResult, (overlooks (p', r) = false → o.isSome) →
      Yields (fun o => overlooks (p', r) = false → o.isSome) (pure o : Action ω _) := fun o ho =>
    yields_ofEnding fun _ h => Except.ok.inj h ▸ ho
  unfold settle
  match r with
  | .ok none => exact hpure none fun h => by simp [overlooks] at h
  | .ok (some result) => exact hpure _ fun _ => rfl
  | .error .interrupted => exact yields_ofEnding nofun
  | .error (.fault f) =>
    have hsome : overlooks (p', .error (.fault f)) = false → p'.command.isSome := by
      simp [overlooks, Option.isSome_iff_ne_none]
    simp only []
    split
    · split
      · exact hpure _ fun _ => rfl
      · rename_i hnone
        exact yields_last fun _ => hpure none fun h => by simpa [hnone] using hsome h
    · exact yields_last fun _ => hpure _ fun h => by simpa using hsome h

/-- The excuse that is left when a message comes back without an outcome. -/
def afterHandling (e : Setup ω) (tenant : Text) (snap : Snapshot) (m : Message) :
    Ending (Option Outcome) → Multiset Unit
  | .ok none => excuse e tenant snap m
  | _ => 0

/-- A message that is ignored has its excuse. -/
theorem excuses_receive_bind {m : Message} {f : Nat × Bool → Action ω β}
    {post : Ending β → Share (World ω) Product Unit → Prop}
    (hf : ∀ n enabled, Excuses hasSigil e p tenant snap
      (if enabled then 0 else excuse e tenant snap m) (f (n, enabled)) post) :
    Excuses hasSigil e p tenant snap 0 (receive m >>= f) post := by
  have hall : ∀ x : Nat × Bool, Excuses hasSigil e p tenant snap
      (if x.2 then 0 else excuse e tenant snap m) (f x) post := fun x => hf x.1 x.2
  refine manages_change_bind (fun s hs => ⟨if s.scene.shared.enabled then 0 else
    excuse e tenant snap m, fun _ h => h, hs.trade fun g h => ?_⟩) hall
  obtain ⟨hcommands, hsigil, hcount⟩ := h
  refine ⟨hcommands, hsigil, ?_⟩
  have hcard : (excuse e tenant snap m).card ≤ if m.tenant = tenant then 1 else 0 :=
    card_excuse_le m
  simp only [standing, List.countP_cons, ignores, Multiset.card_add, Multiset.card_zero] at hcount ⊢
  cases s.scene.shared.enabled with
  | true => simpa using hcount
  | false =>
    simp at hcount ⊢
    omega

theorem excuses_settle {own : Multiset Unit} (m : Message) (p' : Progress)
    (r : Ending (Option RunResult)) :
    Excuses hasSigil e p tenant snap own
      (Act.ensuring (settle e m p' r) (release p'.reservation)) fun o s =>
        (∀ result, o = .ok result → overlooks (p', r) = false → result.isSome) ∧
          Excused hasSigil e p tenant snap own s := by
  have hsettle : Apart e p tenant snap (settle e m p' r) := apart_closed.settle m p' r
  have hrelease : Apart e p tenant snap (release p'.reservation : Action ω Unit) :=
    apart_closed.release _
  exact Tally.held_yields (yields_ensuring (yields_settle m p' r))
    (Tally.held_of_minds (apart_closed.ensuring hsettle hrelease))

theorem excuses_concluded {own : Multiset Unit} (he : e.Caches p tenant snap s store) (n : Nat)
    (m : Message) (c : Command) (result : RunResult) (retryAfterMs : Int) :
    Excuses hasSigil e p tenant snap own (do
      Action.note (.concluded n m c result retryAfterMs)
      some <$> conclude e m c result retryAfterMs)
      fun r => Excused hasSigil e p tenant snap (afterHandling e tenant snap m r) := by
  have hsome : Yields (fun o : Option Outcome => o.isSome)
      (some <$> conclude e m c result retryAfterMs) :=
    yields_last fun _ => yields_ofEnding fun _ h => Except.ok.inj h ▸ rfl
  have hnote : ∀ (w : World ω) d, ignores tenant d = false →
      standing e p tenant snap { w with deeds := d :: w.deeds } = standing e p tenant snap w := by
    intro w d hd
    simp [standing, hd]
  refine Tally.held_modify_bind own (fun w g h => ?_) (Manages.weaken (Tally.held_yields hsome
    (Tally.held_of_minds (apart_closed.map (apart_closed.conclude he.reply he.audit m c result
      retryAfterMs)))) (fun _ hs => hs) ?_)
  · rwa [hnote w _ rfl]
  · rintro r s ⟨hr, hs⟩
    match r with
    | .ok none => exact nomatch hr none rfl
    | .ok (some o) => exact hs.fewer (Multiset.zero_le _)
    | .error f => exact hs.fewer (Multiset.zero_le _)

theorem excuses_handle (hp : p.Lawful) (he : e.Caches p tenant snap s store) (m : Message) :
    Excuses store.sigil.isSome e p tenant snap 0 (handle e m)
      fun r => Excused store.sigil.isSome e p tenant snap (afterHandling e tenant snap m r) := by
  refine excuses_receive_bind fun n enabled => ?_
  cases enabled with
  | false => exact excuses_log_bind (manages_ofEnding _ fun s hs => hs)
  | true =>
    change Excuses store.sigil.isSome e p tenant snap 0 (if m.fromBot then _ else _) _
    split
    · rename_i hbot
      refine manages_ofEnding _ fun s hs => hs.fewer ?_
      rw [afterHandling, excuse_of_not (by simp [firesOf, hbot])]
    · refine manages_bind (excuses_bounded (excuses_work hp he n m) _) (fun ⟨p', r⟩ => ?_)
        fun _ _ hs => hs
      refine manages_bind (excuses_settle m p' r) (fun o => ?_) fun _ _ hs => hs.2.fewer (Multiset.zero_le _)
      refine manages_of_fact fun ho => ?_
      split
      · exact excuses_concluded he n m _ _ _
      · rename_i hneither
        refine manages_ofEnding _ fun s hs => hs.fewer ?_
        -- it has come to nothing, so it was overlooked
        have hoverlooks : overlooks (p', r) = true := by
          by_contra hnot
          have hnot' : overlooks (p', r) = false := by simpa using hnot
          obtain ⟨result, hresult⟩ := Option.isSome_iff_exists.mp (ho _ rfl hnot')
          simp only [overlooks, Bool.or_eq_false_iff, Option.isNone_eq_false_iff] at hnot'
          obtain ⟨c, hc⟩ := Option.isSome_iff_exists.mp hnot'.1
          exact hneither c result hc hresult
        rw [afterHandling, afterWork, hoverlooks]
        exact le_refl _

theorem keeps_handle_standing (hp : p.Lawful) (he : e.Caches p tenant snap s store) (m : Message) :
    (standingTally store.sigil.isSome snap).Keeps (standing e p tenant snap) (handle e m) :=
  (excuses_handle hp he m).weaken (fun _ hs => hs) fun _ _ hs => hs.fewer (Multiset.zero_le _)

/-- A message that is missed costs its excuse. -/
theorem keeps_handleReporting (hp : p.Lawful) (he : e.Caches p tenant snap s store) (m : Message) :
    (standingTally store.sigil.isSome snap).Keeps (standing e p tenant snap)
      (handleReporting e p m) := by
  refine manages_bind (excuses_handle hp he m) (fun o => ?_) fun _ _ hs => hs
  cases o with
  | some o => exact manages_ofEnding _ fun s hs => hs
  | none =>
    refine Tally.held_modify_bind 0 (fun w g h => ?_) (manages_ofEnding _ fun s hs => hs)
    obtain ⟨hcommands, hsigil, hcount⟩ := h
    change (standingTally _ snap).holds
      (standing e p tenant snap { w with env := p.set _ w.env }) _
    rw [standing_set hp]
    refine ⟨hcommands, hsigil, ?_⟩
    simp only [standing, afterHandling, excuse, List.countP_cons, Multiset.card_add,
      Multiset.card_zero] at hcount ⊢
    split at hcount
    · simp_all
      omega
    · simp_all

/-- The states that an engine with a snapshot of the tenant in its cache comes to, with callers that
report. -/
abbrev Setup.CachedRun (e : Setup ω) (p : Part ω Reports) (tenant : Text) (snap : Snapshot)
    (store : Source ω) : Scheduler (World ω) Product → Prop :=
  Scheduler.Reachable
    (fun w => (w.cachedCommands.lookup tenant).map Cached.value = some snap.1 ∧
      (store.sigil.isSome → (w.cachedSigils.lookup tenant).map Cached.value = some snap.2) ∧
      p.get w.env = {})
    fun t => e.Chore (fun x => Apart e p tenant snap x) t ∨
      ∃ toValue m, t = toTask toValue (handleReporting e p m)

/-- **A snapshot survives the errors of the store, but not its delays.**  Whatever the store does, the
messages of the tenant that fire a command of the snapshot and have come back without an outcome
are no more than the reads that were cut off and the messages that the engine has ignored. -/
theorem missed_only_if_cut_off (hp : p.Lawful) (he : e.Caches p tenant snap s store)
    {k : Scheduler (World ω) Product} (hk : e.CachedRun p tenant snap store k) (jobs : Nat) :
    let w := (k.amid jobs).shared
    (w.cachedCommands.lookup tenant).map Cached.value = some snap.1 ∧
    (p.get w.env).unanswered.countP (firesOf e tenant snap) ≤
      (p.get w.env).cutOff.count tenant + w.deeds.countP (ignores tenant) := by
  have hholds : (standingTally store.sigil.isSome snap).holds
      (standing e p tenant snap (k.amid jobs).shared) 0 := by
    refine Tally.reachable ?_ ?_ hk jobs
    · rintro w ⟨hcommands, hsigil, hreports⟩
      refine ⟨hcommands, hsigil, ?_⟩
      simp [standing, hreports]
    · rintro t (ht | ⟨toValue, m, rfl⟩)
      · exact ht.within Tally.keeps_closed (keeps_handle_standing hp he) fun hx =>
          Tally.keeps_of_minds hx
      · exact ⟨_, toValue, _, keeps_handleReporting hp he m, rfl⟩
  exact ⟨hholds.1, hholds.2.2⟩

/-! ### A store that fails -/

/-- An engine whose store tells nothing any more; its cache is too old to be served without asking. -/
def cachedGreeter (store : Source Reports) : Setup Reports where
  config := { caseInsensitive := false }
  registry := cached ⟨10, Action.askEnv fun _ => 20⟩ (observed .whole store)
  runtimes := [(.python, fun _ _ _ => pure { status := .success })]
  review := fun _ _ => .ok ([], { ok := true })
  reply := none
  audit := none
  clock := fun _ => 0

/-- A store that answers with an error. -/
def failingStore : Source Reports where
  commands _ := Act.throw (.of .registryUnavailable [])
  sigil := none

/-- A store that does not answer. -/
def hangingStore : Source Reports where
  commands _ := do
    Act.sleep none
    Act.throw (.of .registryUnavailable [])
  sigil := none

/-- The snapshot of the tenant. -/
def helloSnapshot : Snapshot := ([hello], none)

theorem cachedGreeter_caches {store : Source Reports}
    (hcommands : ∀ t, Yields (fun _ => False) (store.commands t)) (hsigil : store.sigil = none)
    (hapart : ∀ t, Apart (cachedGreeter store) .whole (text "tenant") helloSnapshot
      (store.commands t)) :
    (cachedGreeter store).Caches .whole (text "tenant") helloSnapshot
      ⟨10, Action.askEnv fun _ => 20⟩ store where
  registry := rfl
  clock := ⟨fun _ => 20, rfl⟩
  commands k k' hk := hcommands _ k k' fun r hr => hk r fun a ha => (hr a ha).elim
  sigil ask hask := by rw [hsigil] at hask; cases hask
  noSigil _ := rfl
  commandsApart := hapart
  sigilApart ask hask := by rw [hsigil] at hask; cases hask
  runtimes l run hrun code bindings timeout := by
    obtain ⟨-, rfl⟩ := Prod.mk.inj (List.mem_singleton.mp hrun)
    exact apart_closed.pure _
  reply := nofun
  audit := nofun

/-- So many rounds after one has sent the greeting and waits for the outcome. -/
def greetedFromCache (store : Source Reports) (rounds : Nat) : Scheduler (World Reports) Product :=
  let new : Scheduler (World Reports) Product :=
    { shared := { env := {}, cachedCommands := [(text "tenant", ⟨0, [hello]⟩)] } }
  (new.addTask false (toTask .outcome (handleReporting (cachedGreeter store) .whole greeting))).2.rounds
    rounds

theorem greetedFromCache_run {store : Source Reports} (hsigil : store.sigil = none) (rounds : Nat) :
    (cachedGreeter store).CachedRun .whole (text "tenant") helloSnapshot store
      (greetedFromCache store rounds) := by
  apply Scheduler.Reachable.rounds
  apply Scheduler.Reachable.arrive
  · exact .start ⟨rfl, by rw [hsigil]; nofun, rfl⟩
  · exact .inr ⟨.outcome, greeting, rfl⟩

theorem failingStore_caches : (cachedGreeter failingStore).Caches .whole (text "tenant")
    helloSnapshot ⟨10, Action.askEnv fun _ => 20⟩ failingStore :=
  cachedGreeter_caches (fun _ => yields_ofEnding nofun) rfl fun _ => apart_closed.throw _

theorem hangingStore_caches : (cachedGreeter hangingStore).Caches .whole (text "tenant")
    helloSnapshot ⟨10, Action.askEnv fun _ => 20⟩ hangingStore :=
  cachedGreeter_caches (fun _ => yields_last fun _ => yields_ofEnding nofun) rfl fun _ =>
    apart_closed.bind (apart_closed.sleep _) fun _ => apart_closed.throw _

/-- With a store that answers with an error the greeting is answered from the snapshot. -/
theorem missed_only_if_cut_off_failing :
    let w := ((greetedFromCache failingStore 5).amid 0).shared
    w.messages = 1 ∧ w.deeds.countP (ignores (text "tenant")) = 0 ∧ w.env.cutOff = [] ∧
      w.env.unanswered.countP (firesOf (cachedGreeter failingStore) (text "tenant") helloSnapshot)
        = 0 := by
  have hlawful : (Part.whole : Part Reports Reports).Lawful := fun _ _ => rfl
  have hignored : ((greetedFromCache failingStore 5).amid 0).shared.deeds.countP
      (ignores (text "tenant")) = 0 := by decide +kernel
  have hcutOff : ((greetedFromCache failingStore 5).amid 0).shared.env.cutOff = [] := by
    decide +kernel
  obtain ⟨-, hmissed⟩ := missed_only_if_cut_off hlawful failingStore_caches
    (greetedFromCache_run rfl 5) 0
  refine ⟨by decide +kernel, hignored, hcutOff, Nat.le_zero.mp (hmissed.trans (le_of_eq ?_))⟩
  change List.count (text "tenant") ((greetedFromCache failingStore 5).amid 0).shared.env.cutOff
    + _ = 0
  rw [hcutOff, hignored]
  rfl

/-- **A snapshot that is not served.**  The store does not answer in time, and though the command is
in the cache the greeting comes back as if it matched nothing. -/
theorem hanging_store_misses : (cachedGreeter hangingStore).Caches .whole (text "tenant")
      helloSnapshot ⟨10, Action.askEnv fun _ => 20⟩ hangingStore ∧
    (cachedGreeter hangingStore).CachedRun .whole (text "tenant") helloSnapshot hangingStore
      (greetedFromCache hangingStore 5) ∧
    firesOf (cachedGreeter hangingStore) (text "tenant") helloSnapshot greeting = true ∧
    let w := ((greetedFromCache hangingStore 5).amid 0).shared
    w.enabled = true ∧ w.env.unanswered = [greeting] := by
  refine ⟨hangingStore_caches, greetedFromCache_run rfl 5, ?_, ?_, ?_⟩
  all_goals decide +kernel

end ChatCommands.Engine
