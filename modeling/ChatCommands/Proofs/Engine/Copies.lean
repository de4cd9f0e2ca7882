import ChatCommands.Proofs.Concurrency.Tally
import ChatCommands.Proofs.Engine.Milestones
import ChatCommands.Proofs.Sandbox.Supervision

/-!
How many copies of what an engine sends out arrive.

A sink may let a reply or an audit entry arrive at any moment of its call and fail afterwards, and then
it is called again.  So a copy that came with a call that failed may be followed by another one, but
no other copy is.
-/

namespace ChatCommands.Engine

open Concurrency Act

variable {ω α β : Type}

/-- What an engine sends out. -/
inductive Item
  | reply (channel content : Text)
  | entry (entry : AuditEntry)
  deriving DecidableEq

/-- The copies that have arrived, latest first, and those of them that came with calls that failed
afterwards. -/
structure Arrivals where
  copies : List Item := []
  spoiled : List Item := []

/-- A reply, if there is anything to say. -/
def repliesTo (channel : Text) : Option Text → List Item
  | some (c :: t) => [.reply channel (c :: t)]
  | _ => []

/-- What is to be sent out because of a deed: when a message has come to a result, one audit entry and
at most one reply. -/
def Setup.issues (e : Setup ω) : Deed → List Item
  | .concluded _ m c r retryAfterMs => .entry (auditEntry m c r) ::
    repliesTo m.channel (Reply.ofResult e.config.maxReplyChars c.language r retryAfterMs)
  | _ => []

/-- What is to be sent out because of a history. -/
def Setup.issued (e : Setup ω) (ds : List Deed) : List Item := ds.flatMap e.issues

/-- What is to be sent out, and what has arrived. -/
def postView (e : Setup ω) (p : Part ω Arrivals) (w : World ω) : List Item × Arrivals :=
  (e.issued w.deeds, p.get w.env)

/-- A copy arrives, and the call goes on. -/
def posting (p : Part ω Arrivals) (i : Item) (rest : Action ω Unit) : Action ω Unit := do
  p.modify fun a => { a with copies := i :: a.copies }
  let r ← Act.attempt rest
  if let .error _ := r then
    p.modify fun a => { a with spoiled := i :: a.spoiled }
  Act.ofEnding r

variable {e : Setup ω} {p : Part ω Arrivals}

/-- The computation neither concludesFor messages nor lets anything arrive. -/
abbrev Aside (e : Setup ω) (p : Part ω Arrivals) (x : Action ω α) : Prop :=
  x.Minds (postView e p) fun _ => True

/-- A call of a sink, which lets one copy arrive at some moment, or none. -/
inductive Sends (e : Setup ω) (p : Part ω Arrivals) (i : Item) : Action ω Unit → Prop
  | never {x : Action ω Unit} (hx : Aside e p x) : Sends e p i x
  | first {α : Type} {x : Action ω α} {f : α → Action ω Unit} (hx : Aside e p x)
    (hf : ∀ a, Sends e p i (f a)) : Sends e p i (x >>= f)
  | now {rest : Action ω Unit} (hrest : Aside e p rest) : Sends e p i (posting p i rest)

/-- The sinks of an engine send what they are asked to, and its other collaborators keep out of it. -/
structure Setup.Posts (e : Setup ω) (p : Part ω Arrivals) : Prop where
  reply : ∀ send, e.reply = some send → ∀ channel content,
    Sends e p (.reply channel content) (send channel content)
  append : ∀ sink, e.audit = some sink → ∀ entry, Sends e p (.entry entry) (sink.append entry)
  trim : ∀ sink, e.audit = some sink → ∀ tenant keep, Aside e p (sink.trim tenant keep)
  commands : ∀ tenant, Aside e p (e.registry.commands tenant)
  sigil : ∀ ask, e.registry.sigil = some ask → ∀ tenant, Aside e p (ask tenant)
  runtimes : e.runtimes.Within (Aside e p)

/-! ### Rights -/

/-- A right of a task: to let a copy arrive, or to call a sink once. -/
inductive Right
  | copy (i : Item)
  | call (i : Item)
  deriving DecidableEq

/-- Every copy that has arrived was to be sent, apart from those after spoiled ones, and for everything
that is to be sent a sink is called no more than a few times. -/
def postTally : Tally (List Item × Arrivals) Right where
  holds a g := ∀ i, a.2.copies.count i + g.count (.copy i) ≤ a.1.count i + a.2.spoiled.count i ∧
    a.2.copies.count i + g.count (.call i) ≤ 3 * a.1.count i
  fewer h i := by
    have hi := h i
    simp only [Multiset.count_add] at hi
    omega

/-- The rights of who is to send something and may yet call the sink so often. -/
def rights (calls : Nat) (i : Item) : Multiset Right :=
  .copy i ::ₘ Multiset.replicate calls (.call i)

/-- The rights that go with what is to be sent. -/
def rightsTo (is : List Item) : Multiset Right := (is.map (rights 3)).sum

/-- The rights that are left after a call: none if it has succeeded. -/
def rightsAfter (calls : Nat) (i : Item) : Ending α → Multiset Right
  | .ok _ => 0
  | .error _ => rights calls i

theorem rightsTo_cons (i : Item) (is : List Item) : rightsTo (i :: is) = rightsTo is + rights 3 i := by
  rw [rightsTo, List.map_cons, List.sum_cons, add_comm]
  rfl

theorem count_calls (calls : Nat) (i j : Item) :
    (Multiset.replicate calls (Right.call i)).count (.copy j) = 0 ∧
      (Multiset.replicate calls (Right.call i)).count (.call j) = if i = j then calls else 0 := by
  simp [Multiset.count_replicate]

theorem count_rights (calls : Nat) (i j : Item) :
    (rights calls i).count (.copy j) = (if i = j then 1 else 0) ∧
      (rights calls i).count (.call j) = if i = j then calls else 0 := by
  obtain ⟨hcopy, hcall⟩ := count_calls calls i j
  simp [rights, Multiset.count_cons, hcopy, hcall, eq_comm]

theorem count_rightsTo (is : List Item) (i : Item) :
    (rightsTo is).count (.copy i) = is.count i ∧ (rightsTo is).count (.call i) = 3 * is.count i := by
  induction is with
  | nil => exact ⟨rfl, rfl⟩
  | cons j is ih =>
    obtain ⟨hcopy, hcall⟩ := ih
    obtain ⟨hcopy', hcall'⟩ := count_rights 3 j i
    rw [rightsTo_cons, Multiset.count_add, Multiset.count_add, hcopy, hcall, hcopy', hcall',
      List.count_cons]
    by_cases h : j = i
    · simp [h]
      omega
    · simp [h]

theorem rights_le (calls : Nat) (i : Item) : rights calls i ≤ rights (calls + 1) i :=
  Multiset.cons_le_cons _ (Multiset.replicate_le_replicate _ |>.mpr (Nat.le_succ calls))

theorem rightsAfter_le (calls : Nat) (i : Item) (r : Ending α) :
    rightsAfter calls i r ≤ rights (calls + 1) i := by
  cases r with
  | ok a => exact Multiset.zero_le _
  | error f => exact rights_le calls i

variable {is js : List Item} {a : Arrivals} {g : Multiset Right} {i : Item} {calls : Nat}

theorem holds_issued (h : postTally.holds (is, a) (0 + g)) :
    postTally.holds (js ++ is, a) (rightsTo js + g) := by
  intro i
  obtain ⟨hcopy, hcall⟩ := h i
  obtain ⟨hcopies, hcalls⟩ := count_rightsTo js i
  simp only [zero_add, Multiset.count_add, List.count_append] at *
  omega

theorem holds_copy (h : postTally.holds (is, a) (rights (calls + 1) i + g)) :
    postTally.holds (is, { a with copies := i :: a.copies })
      (Multiset.replicate calls (.call i) + g) := by
  intro j
  obtain ⟨hcopy, hcall⟩ := h j
  simp only [Multiset.count_add, count_rights, count_calls] at *
  by_cases hj : i = j
  · subst hj
    simp at *
    omega
  · simp [hj] at *
    omega

theorem holds_spoiled (h : postTally.holds (is, a) (Multiset.replicate calls (.call i) + g)) :
    postTally.holds (is, { a with spoiled := i :: a.spoiled }) (rights calls i + g) := by
  intro j
  obtain ⟨hcopy, hcall⟩ := h j
  simp only [Multiset.count_add, count_rights, count_calls] at *
  by_cases hj : i = j
  · subst hj
    simp at *
    omega
  · simp [hj] at *
    omega

/-! ### Calls of sinks -/

theorem issued_milestones (ds : List Deed) : e.issued (ds.filter Deed.isMilestone) = e.issued ds := by
  induction ds with
  | nil => rfl
  | cons d ds ih =>
    have hcons : ∀ ds, e.issued (d :: ds) = e.issues d ++ e.issued ds := fun _ => List.flatMap_cons
    cases hd : d.isMilestone with
    | true => rw [List.filter_cons_of_pos hd, hcons, hcons, ih]
    | false =>
      have hnone : e.issues d = [] := by
        cases d with
        | concluded => cases hd
        | _ => rfl
      rw [List.filter_cons_of_neg (by simp [hd]), hcons, hnone, ih]
      rfl

instance distant_postView : Distant (postView e p) where
  eq_of {w w'} _ hmilestones henv _ _ _ := by
    change (e.issued w.deeds, p.get w.env) = (e.issued w'.deeds, p.get w'.env)
    rw [← issued_milestones w.deeds, ← issued_milestones w'.deeds, henv]
    exact congrArg (fun ds => (e.issued ds, _)) hmilestones

instance unlogged_postView : Unlogged (postView e p) := ⟨fun _ _ => rfl⟩

/-- Keeps the tally of an engine's post, with rights of its own. -/
abbrev Posts (e : Setup ω) (p : Part ω Arrivals) (own : Multiset Right) (x : Action ω α)
    (left : Ending α → Multiset Right) : Prop :=
  Manages (postTally.commons (postView e p)) (postTally.Held (postView e p) own) x
    fun r => postTally.Held (postView e p) (left r)

variable {own : Multiset Right}

theorem posts_aside {x : Action ω α} {left : Ending α → Multiset Right} (h : Aside e p x)
    (hleft : ∀ r, left r ≤ own) : Posts e p own x left :=
  Manages.weaken (Tally.held_of_minds h) (fun _ hs => hs) fun r _ hs => hs.fewer (hleft r)

theorem posts_bind {x : Action ω α} {f : α → Action ω β} {left : Ending β → Multiset Right}
    (hx : Aside e p x) (hf : ∀ a, Posts e p own (f a) left) (herr : ∀ f, left (.error f) ≤ own) :
    Posts e p own (x >>= f) left :=
  manages_bind (Tally.held_of_minds hx) hf fun f _ hs => hs.fewer (herr f)

theorem aside_closed : Closed (postView e p) (fun x => Aside e p x) := minds_closed

/-- A copy that comes with a call that fails is spoiled, and leaves the right to another one. -/
theorem posts_posting (hp : p.Lawful) {rest : Action ω Unit} (hrest : Aside e p rest) :
    Posts e p (rights (calls + 1) i) (posting p i rest) (rightsAfter calls i) := by
  refine Tally.held_modify_bind (Multiset.replicate calls (.call i)) (fun w g h => ?_) ?_
  · change postTally.holds (e.issued w.deeds, p.get (p.set _ _)) _
    rw [hp]
    exact holds_copy h
  · refine manages_attempt_bind (Tally.held_of_minds hrest) fun r => ?_
    cases r with
    | ok a => exact manages_ofEnding _ fun s hs => hs.fewer (Multiset.zero_le _)
    | error f =>
      refine Tally.held_modify_bind (rights calls i) (fun w g h => ?_) ?_
      · change postTally.holds (e.issued w.deeds, p.get (p.set _ _)) _
        rw [hp]
        exact holds_spoiled h
      · exact manages_ofEnding _ fun s hs => hs

/-- A call of a sink. -/
theorem Sends.posts (hp : p.Lawful) {x : Action ω Unit} (h : Sends e p i x) :
    Posts e p (rights (calls + 1) i) x (rightsAfter calls i) := by
  induction h with
  | never hx => exact posts_aside hx fun r => rightsAfter_le ..
  | first hx _ ih => exact posts_bind hx ih fun _ => rights_le ..
  | now hrest => exact posts_posting hp hrest

/-- All attempts to send something. -/
theorem posts_attempts (hp : p.Lawful) {timeout : Option Rat} {x : Action ω Unit}
    (hx : Sends e p i x) (more : Nat) :
    Posts e p (rights (more + 1) i) (Delivery.attempts timeout x more) fun _ => 0 := by
  have hattempt : ∀ calls, Posts e p (rights (calls + 1) i) (within timeout x)
      (rightsAfter calls i) := fun calls =>
    manages_within Tally.steady_held (fun _ => Tally.steady_held) (hx.posts hp) (fun _ hs => hs) _
  induction more with
  | zero => exact (hattempt 0).weaken (fun _ hs => hs) fun _ _ hs => hs.fewer (Multiset.zero_le _)
  | succ more ih =>
    refine manages_recover (hattempt (more + 1)) (fun _ _ hs => hs)
      (fun _ hs => hs.fewer (Multiset.zero_le _)) fun f => ?_
    split
    · exact posts_bind (aside_closed.logAll _) (fun _ => posts_bind (aside_closed.sleep _)
        (fun _ => ih) fun _ => Multiset.zero_le _) fun _ => Multiset.zero_le _
    · exact manages_ofEnding _ fun s hs => hs.fewer (Multiset.zero_le _)

theorem posts_withRetries (hp : p.Lawful) {timeout : Option Rat} {x : Action ω Unit}
    (hx : Sends e p i x) : Posts e p (rights 3 i)
      (Delivery.withRetries timeout Delivery.defaultAttempts x) fun _ => 0 :=
  posts_attempts hp hx 2

theorem posts_record (hp : p.Lawful) (he : e.Posts p) (entry : AuditEntry) :
    Posts e p (rights 3 (.entry entry)) (Audit.record e.auditSettings e.audit entry)
      fun _ => 0 := by
  refine posts_bind (aside_closed.note rfl) (fun _ => ?_) fun _ => Multiset.zero_le _
  cases hsink : e.audit with
  | none =>
    exact posts_aside (aside_closed.bind (aside_closed.log rfl) fun _ => aside_closed.pure true)
      fun _ => Multiset.zero_le _
  | some sink =>
    refine manages_attempt_bind (posts_withRetries hp (he.append sink hsink entry)) fun r => ?_
    refine posts_aside ?_ fun _ => le_refl _
    match r with
    | .ok () =>
      exact aside_closed.bind (aside_closed.stored (he.trim sink hsink) _) fun _ =>
        aside_closed.pure true
    | .error (.fault f) =>
      exact aside_closed.bind (aside_closed.giveUpEntry entry f) fun _ => aside_closed.pure false
    | .error .interrupted => exact aside_closed.fail _

theorem posts_deliver (hp : p.Lawful) (he : e.Posts p) (channel : Text) (reply : Option Text) :
    Posts e p (rightsTo (repliesTo channel reply)) (deliver e channel reply) fun _ => 0 := by
  unfold deliver
  split
  · rename_i c t send hsend
    refine posts_bind (aside_closed.note rfl) (fun _ => ?_) fun _ => Multiset.zero_le _
    refine manages_attempt_bind (posts_withRetries hp (he.reply send hsend channel (c :: t)))
      fun r => ?_
    refine posts_aside ?_ fun _ => le_refl _
    match r with
    | .ok () => exact aside_closed.pure true
    | .error (.fault f) => exact aside_closed.bind (aside_closed.log rfl) fun _ => aside_closed.pure false
    | .error .interrupted => exact aside_closed.fail _
  · exact posts_aside (aside_closed.pure false) fun _ => Multiset.zero_le _

theorem posts_conclude (hp : p.Lawful) (he : e.Posts p) (n : Nat) (m : Message) (c : Command)
    (r : RunResult) (retryAfterMs : Int) :
    Posts e p (rightsTo (e.issues (.concluded n m c r retryAfterMs)))
      (conclude e m c r retryAfterMs) fun _ => 0 := by
  let reply := Reply.ofResult e.config.maxReplyChars c.language r retryAfterMs
  refine posts_bind (aside_closed.logResult m c r) (fun _ => ?_) fun _ => Multiset.zero_le _
  change Posts e p (rightsTo (_ :: repliesTo m.channel reply)) _ _
  rw [rightsTo_cons]
  refine manages_bind (Tally.held_spawn (posts_record hp he (auditEntry m c r)) fun _ _ hs => hs)
    (fun auditing => ?_) fun _ _ hs => hs.fewer (Multiset.zero_le _)
  rw [← zero_add (rightsTo _)]
  refine manages_bind (Tally.held_spawn (posts_deliver hp he m.channel reply) fun _ _ hs => hs)
    (fun delivering => ?_) fun _ _ hs => hs
  refine posts_aside ?_ fun _ => le_refl _
  exact aside_closed.bind (aside_closed.gather _ _ _) fun _ =>
    aside_closed.bind (aside_closed.valueOf _ _) fun _ =>
      aside_closed.bind (aside_closed.valueOf _ _) fun _ => aside_closed.pure _

/-! ### Messages -/

theorem aside_receive (m : Message) : Aside e p (receive m) := minds_change fun _ => rfl

theorem aside_readRegistry (he : e.Posts p) (n : Nat) (tenant : Text) :
    Aside e p (readRegistry e n tenant) := by
  have hnote : ∀ (commands : List Command) (sigil : Option Text), Aside e p (do
      Action.note (.listed n tenant commands sigil); pure (commands, sigil) : Action ω _) :=
    fun _ _ => minds_bind (minds_change fun _ => rfl) fun _ => minds_pure _
  refine aside_closed.recover (aside_closed.within (aside_closed.bind (he.commands tenant)
    fun commands => ?_) _) fun f => aside_closed.bind (aside_closed.log rfl) fun _ => aside_closed.pure _
  split
  · rename_i ask hask
    exact aside_closed.bind (he.sigil ask hask tenant) fun _ => hnote _ _
  · exact aside_closed.bind (aside_closed.pure none) fun _ => hnote _ _

theorem aside_work (he : e.Posts p) (n : Nat) (m : Message) : Aside e p (work e n m) := by
  refine aside_closed.bind (aside_closed.attempt (aside_readRegistry he n m.tenant)) fun r => ?_
  cases r with
  | error f => exact aside_closed.pure _
  | ok listed =>
    obtain ⟨commands, sigil⟩ := listed
    simp only []
    split
    · exact aside_closed.pure _
    · exact aside_closed.bind (aside_closed.noteBetween _ rfl) fun _ =>
        aside_closed.requestRun he.runtimes n m _

/-- With the conclusion of a message come the rights to send its entry and its reply. -/
theorem posts_concluded (hp : p.Lawful) (he : e.Posts p) (n : Nat) (m : Message) (c : Command)
    (r : RunResult) (retryAfterMs : Int) : Posts e p 0 (do
      Action.note (.concluded n m c r retryAfterMs)
      some <$> conclude e m c r retryAfterMs) fun _ => 0 := by
  refine Tally.held_modify_bind (rightsTo (e.issues (.concluded n m c r retryAfterMs)))
    (fun w g h => holds_issued h) ?_
  exact manages_bind (posts_conclude hp he n m c r retryAfterMs)
    (fun _ => posts_aside (aside_closed.pure _) fun _ => le_refl _) fun _ _ hs => hs

theorem keeps_handle (hp : p.Lawful) (he : e.Posts p) (m : Message) :
    postTally.Keeps (postView e p) (handle e m) := by
  have hle : ∀ {α : Type} (r : Ending α), (0 : Multiset Right) ≤ 0 := fun _ => le_refl _
  have hnone : Posts e p 0 (pure none : Action ω (Option Outcome)) fun _ => 0 :=
    posts_aside (aside_closed.pure none) hle
  refine posts_bind (aside_receive m) (fun ⟨n, enabled⟩ => ?_) fun f => le_refl _
  simp only []
  split
  · exact posts_bind (aside_closed.log rfl) (fun _ => hnone) fun _ => le_refl _
  · split
    · exact hnone
    · refine posts_bind (aside_closed.bounded (aside_work he n m) _) (fun ⟨p', r⟩ => ?_) fun _ => le_refl _
      refine posts_bind (aside_closed.ensuring (aside_closed.settle m p' r)
        (aside_closed.release p'.reservation)) (fun r => ?_) fun _ => le_refl _
      split
      · exact posts_concluded hp he n m _ _ _
      · exact hnone

/-- The deed is the conclusion of the message with the number. -/
def concludesFor (n : Nat) : Deed → Bool
  | .concluded i .. => i == n
  | _ => false

theorem concluded_once {genuine : RunResult → Prop} {w : World ω}
    (h : Chronicle e genuine w.docket.deeds) (n : Nat) :
    (w.deeds.filter (concludesFor n)).length ≤ 1 := by
  have hown : (ownDeeds n w.docket.deeds).filter (concludesFor n) = w.deeds.filter (concludesFor n) := by
    rw [ownDeeds, World.docket, List.filter_filter, List.filter_filter]
    refine List.filter_congr fun d _ => ?_
    cases d <;> simp [concludesFor, Deed.number?, Deed.aboutWork]
  rw [← hown]
  have hcourse := h.course n
  generalize ownDeeds n w.docket.deeds = own at hcourse ⊢
  cases hcourse with
  | unknown => exact Nat.zero_le _
  | received m enabled => simp [concludesFor]
  | underway call commands sigil m => cases call <;> simp [concludesFor]
  | concluded c result retryAfterMs call commands sigil m => cases call <;> simp [concludesFor]

/-- What comes to an engine that has not sent anything yet. -/
abbrev Setup.PostRun (e : Setup ω) (p : Part ω Arrivals) : Scheduler (World ω) Product → Prop :=
  Scheduler.Reachable
    (fun w => (w.messages = 0 ∧ w.limiter = {} ∧ w.deeds = []) ∧ p.get w.env = {})
    (e.Chore fun x => Aside e p x)

theorem Setup.PostRun.run {k : Scheduler (World ω) Product} (h : e.PostRun p k) : e.Run k := by
  induction h with
  | start h => exact .start h.1
  | arrive _ hbody ih => exact ih.arrive hbody.errand
  | round _ hround ih => exact ih.round hround

/-- **A message is concluded once, and nothing arrives twice unless a call of a sink has failed
after a copy has arrived; never more than three times.** -/
theorem copies_accounted (hp : p.Lawful) (hsealed : e.Sealed) (he : e.Posts p)
    {k : Scheduler (World ω) Product} (hk : e.PostRun p k) (jobs : Nat) :
    let w := (k.amid jobs).shared
    let arrivals := p.get w.env
    (∀ n, (w.deeds.filter (concludesFor n)).length ≤ 1) ∧
    (∀ i, arrivals.copies.count i ≤ (e.issued w.deeds).count i + arrivals.spoiled.count i) ∧
    ∀ i, arrivals.copies.count i ≤ 3 * (e.issued w.deeds).count i := by
  have hholds : postTally.holds (postView e p (k.amid jobs).shared) 0 := by
    refine Tally.reachable ?_ ?_ hk jobs
    · rintro w ⟨⟨-, -, hdeeds⟩, harrivals⟩ i
      simp [postView, hdeeds, harrivals]
    · exact fun t ht => ht.within Tally.keeps_closed (keeps_handle hp he) fun hx =>
        Tally.keeps_of_minds hx
  obtain ⟨-, hchronicle⟩ := hk.run.chronicle hsealed genuine_any jobs
  exact ⟨concluded_once hchronicle, fun i => (hholds i).1, fun i => (hholds i).2⟩

/-! ### A sink that fails after a copy has arrived -/

/-- An engine with one command, whose replies arrive at once but whose sink reports a failure for the
first of them. -/
def hastySink : Setup Arrivals where
  config := { caseInsensitive := false }
  registry := { commands := fun _ => pure [hello], sigil := none }
  runtimes := [(.python, fun _ _ _ => pure { status := .success, output := text "hello" })]
  review := fun _ _ => .ok ([], { ok := true })
  reply := some fun channel content => posting .whole (.reply channel content) do
    if (← Action.askEnv fun a => a.copies.length) = 1 then Act.throw (.of .replySink [])
  audit := none
  clock := fun _ => 0

theorem hastySink_sealed : hastySink.Sealed where
  commands _ := avoids_closed.pure _
  sigil := nofun
  runtimes l run hrun code bindings timeout := by
    obtain ⟨-, rfl⟩ := Prod.mk.inj (List.mem_singleton.mp hrun)
    exact avoids_closed.pure _
  reply send hsend channel content := by
    cases hsend
    refine avoids_closed.bind (avoids_closed.change fun _ => rfl) fun _ =>
      avoids_closed.bind (avoids_closed.attempt ?_) fun r => ?_
    · exact avoids_closed.bind (avoids_closed.gets _) fun _ =>
        avoids_closed.ite (avoids_closed.throw _) (avoids_closed.pure _)
    · cases r with
      | ok a => exact avoids_closed.ofEnding _
      | error f =>
        exact avoids_closed.bind (avoids_closed.change fun _ => rfl) fun _ => avoids_closed.ofEnding _
  audit := nofun

theorem hastySink_posts : hastySink.Posts .whole where
  reply send hsend channel content := by
    cases hsend
    exact .now (aside_closed.bind (aside_closed.gets _) fun _ =>
      aside_closed.ite (aside_closed.throw _) (aside_closed.pure _))
  append := nofun
  trim := nofun
  commands _ := aside_closed.pure _
  sigil := nofun
  runtimes l run hrun code bindings timeout := by
    obtain ⟨-, rfl⟩ := Prod.mk.inj (List.mem_singleton.mp hrun)
    exact aside_closed.pure _

/-- The engine after one greeting. -/
def answeredTwice : Scheduler (World Arrivals) Product :=
  let new : Scheduler (World Arrivals) Product := { shared := { env := {} } }
  (new.addTask false (toTask .outcome (handle hastySink greeting))).2.rounds 9

theorem answeredTwice_run : hastySink.PostRun .whole answeredTwice := by
  have hnew : hastySink.PostRun .whole { shared := { env := {} } } := .start ⟨⟨rfl, rfl, rfl⟩, rfl⟩
  exact (hnew.arrive (.handle .outcome greeting)).rounds 9

/-- The reply to the greeting. -/
def greetingReply : Item := .reply (text "channel") (text "hello")

/-- What has arrived twice, once with a call that has failed, was to be sent at least once. -/
theorem copies_accounted_answeredTwice :
    let w := (answeredTwice.amid 0).shared
    w.env.copies.count greetingReply = 2 ∧ w.env.spoiled.count greetingReply = 1 ∧
      1 ≤ (hastySink.issued w.deeds).count greetingReply := by
  have hlawful : (Part.whole : Part Arrivals Arrivals).Lawful := fun _ _ => rfl
  have hcopies : (answeredTwice.amid 0).shared.env.copies.count greetingReply = 2 := by
    decide +kernel
  have hspoiled : (answeredTwice.amid 0).shared.env.spoiled.count greetingReply = 1 := by
    decide +kernel
  have hall := (copies_accounted hlawful hastySink_sealed hastySink_posts answeredTwice_run 0).2.1
    greetingReply
  refine ⟨hcopies, hspoiled, ?_⟩
  change (answeredTwice.amid 0).shared.env.copies.count greetingReply ≤
    _ + (answeredTwice.amid 0).shared.env.spoiled.count greetingReply at hall
  omega

/-- **One message, two copies of its reply.**  The copy of the first call has arrived, but the call
has failed, and so the sink is called again. -/
theorem reply_arrives_twice : hastySink.Sealed ∧ hastySink.Posts .whole ∧
    hastySink.PostRun .whole answeredTwice ∧
    let w := (answeredTwice.amid 0).shared
    w.messages = 1 ∧ (w.deeds.filter (concludesFor 0)).length = 1 ∧
      (hastySink.issued w.deeds).count greetingReply = 1 ∧ w.env.copies.count greetingReply = 2 := by
  refine ⟨hastySink_sealed, hastySink_posts, answeredTwice_run, ?_, ?_, ?_, ?_⟩
  all_goals decide +kernel

end ChatCommands.Engine
