import ChatCommands.Engine.Service
import ChatCommands.Proofs.Concurrency.View

/-!
What the collaborators of an engine may do, and the parts of an engine that leave its messages and
cooldowns alone.

Collaborators see what is outside the engine.  They may change it, take their time, write log
records, start tasks, and end as they like; but the limiter, the slots and the deeds are the
engine's own.  Of the engine itself only admission, runs and pruning are about messages and
cooldowns; what it does apart from that is of every kind that its collaborators are of.
-/

namespace ChatCommands

open Concurrency

variable {ω α : Type}

namespace World

/-- The part of the state that only the engine itself changes. -/
def own (w : World ω) : World Unit :=
  { w with env := (), journal := [], cachedCommands := [], cachedSigils := [] }

end World

/-- The deed is about cooldowns. -/
def Deed.aboutCooldowns : Deed → Bool
  | .asked .. | .committed _ | .released _ | .started .. | .pruned _ => true
  | .received .. | .listed .. | .matched .. | .entered .. | .concluded .. | .recorded _
  | .answered .. => false

/-- The deed is about the work on messages: it is neither an audit entry nor a reply. -/
def Deed.aboutWork : Deed → Bool
  | .recorded _ | .answered .. => false
  | _ => true

/-- The limiter and what was done about cooldowns, latest first. -/
structure Ledger where
  limiter : Cooldown.Limiter
  deeds : List Deed

/-- The cooldowns of an engine. -/
def World.ledger (w : World ω) : Ledger := ⟨w.limiter, w.deeds.filter Deed.aboutCooldowns⟩

/-- The messages taken in, the limiter, and what was done about messages, latest first. -/
structure Docket where
  messages : Nat
  limiter : Cooldown.Limiter
  deeds : List Deed

/-- The work of an engine. -/
def World.docket (w : World ω) : Docket :=
  ⟨w.messages, w.limiter, w.deeds.filter Deed.aboutWork⟩

theorem World.docket_eq_of_own {w w' : World ω} (h : w.own = w'.own) : w.docket = w'.docket := by
  have hmessages : w.messages = w'.messages := congrArg (·.messages) h
  have hlimiter : w.limiter = w'.limiter := congrArg (·.limiter) h
  have hdeeds : w.deeds = w'.deeds := congrArg (·.deeds) h
  rw [docket, docket, hmessages, hlimiter, hdeeds]

theorem World.ledger_eq_of_docket {w w' : World ω} (h : w.docket = w'.docket) :
    w.ledger = w'.ledger := by
  have hlimiter : w.limiter = w'.limiter := congrArg Docket.limiter h
  have hdeeds : w.deeds.filter Deed.aboutWork = w'.deeds.filter Deed.aboutWork :=
    congrArg Docket.deeds h
  have hwork : ∀ ds : List Deed,
      (ds.filter Deed.aboutWork).filter Deed.aboutCooldowns = ds.filter Deed.aboutCooldowns := by
    intro ds
    rw [List.filter_filter]
    exact List.filter_congr fun d _ => by cases d <;> rfl
  rw [ledger, ledger, hlimiter, ← hwork w.deeds, hdeeds, hwork w'.deeds]

/-- The record tells that the work on a message has failed. -/
def LogRecord.isFailure (r : LogRecord) : Bool :=
  r.component = .coordinator && r.message = text "Command pipeline failed"

/-- The records that work has failed, latest first. -/
def World.failures (w : World ω) : List LogRecord := w.journal.filter LogRecord.isFailure

/-- A view that shows nothing but the work of an engine, what is outside of it, its caches, and the
records that work has failed. -/
class Narrow {τ : Type} (view : World ω → τ) : Prop where
  eq_of : ∀ {w w' : World ω}, w.docket = w'.docket → w.env = w'.env →
    w.cachedCommands = w'.cachedCommands → w.cachedSigils = w'.cachedSigils →
      w.failures = w'.failures → view w = view w'

/-- A view that shows no log records. -/
class Unlogged {τ : Type} (view : World ω → τ) : Prop where
  eq_of : ∀ (w : World ω) (journal : List LogRecord), view w = view { w with journal }

instance narrow_docket : Narrow (World.docket (ω := ω)) := ⟨fun h _ _ _ _ => h⟩

instance unlogged_docket : Unlogged (World.docket (ω := ω)) := ⟨fun _ _ => rfl⟩

/-- A collaborator: it leaves alone what is the engine's own. -/
abbrev Confined (x : Action ω α) : Prop := x.Leaves World.own

/-- The computation leaves the cooldowns alone. -/
abbrev CooldownFree (x : Action ω α) : Prop := x.Leaves World.ledger

theorem Confined.cooldownFree {x : Action ω α} (h : Confined x) : CooldownFree x :=
  Act.Leaves.mono h fun _ _ heq => World.ledger_eq_of_docket (World.docket_eq_of_own heq)

namespace Audit

/-- The sink leaves alone what is the engine's own. -/
structure Sink.Confined (sink : Sink ω) : Prop where
  append : ∀ entry, ChatCommands.Confined (sink.append entry)
  trim : ∀ tenant keep, ChatCommands.Confined (sink.trim tenant keep)

/-- The sink is of a kind. -/
structure Sink.Within (K : {α : Type} → Action ω α → Prop) (sink : Sink ω) : Prop where
  append : ∀ entry, K (sink.append entry)
  trim : ∀ tenant keep, K (sink.trim tenant keep)

end Audit

namespace Engine

/-- The runtimes leave alone what is the engine's own. -/
def Runtimes.Confined (rs : Runtimes ω) : Prop :=
  ∀ l run, (l, run) ∈ rs → ∀ code bindings timeout, ChatCommands.Confined (run code bindings timeout)

/-- The runtimes are of a kind. -/
def Runtimes.Within (K : {α : Type} → Action ω α → Prop) (rs : Runtimes ω) : Prop :=
  ∀ l run, (l, run) ∈ rs → ∀ code bindings timeout, K (run code bindings timeout)

/-- The collaborators of an engine leave alone what is the engine's own. -/
structure Setup.Confined (e : Setup ω) : Prop where
  commands : ∀ tenant, ChatCommands.Confined (e.registry.commands tenant)
  sigil : ∀ ask, e.registry.sigil = some ask → ∀ tenant, ChatCommands.Confined (ask tenant)
  runtimes : e.runtimes.Confined
  reply : ∀ send, e.reply = some send → ∀ channel content,
    ChatCommands.Confined (send channel content)
  audit : ∀ sink, e.audit = some sink → sink.Confined

/-- The collaborators of an engine are of a kind. -/
structure Setup.Within (K : {α : Type} → Action ω α → Prop) (e : Setup ω) : Prop where
  commands : ∀ tenant, K (e.registry.commands tenant)
  sigil : ∀ ask, e.registry.sigil = some ask → ∀ tenant, K (ask tenant)
  runtimes : e.runtimes.Within K
  reply : ∀ send, e.reply = some send → ∀ channel content, K (send channel content)
  audit : ∀ sink, e.audit = some sink → sink.Within K

theorem Setup.Confined.within {e : Setup ω} (he : e.Confined) : e.Within CooldownFree where
  commands tenant := (he.commands tenant).cooldownFree
  sigil ask hask tenant := (he.sigil ask hask tenant).cooldownFree
  runtimes l run hrun code bindings timeout := (he.runtimes l run hrun code bindings timeout).cooldownFree
  reply send hsend channel content := (he.reply send hsend channel content).cooldownFree
  audit sink hsink := ⟨fun entry => ((he.audit sink hsink).append entry).cooldownFree,
    fun tenant keep => ((he.audit sink hsink).trim tenant keep).cooldownFree⟩

/-- Runtimes of a kind are so also when each call is noted, if the note is. -/
theorem Runtimes.Within.watched {K : {α : Type} → Action ω α → Prop}
    {view : World ω → α} (h : Act.Closed view @K) {n : Nat} {rs : Runtimes ω}
    (hnote : ∀ call, K (Action.note (.entered n call))) (hrs : rs.Within K) :
    (Engine.watched n rs).Within K := by
  intro l run hrun code bindings timeout
  obtain ⟨⟨l', run'⟩, hmem, heq⟩ := List.mem_map.mp hrun
  cases heq
  exact h.bind (hnote _) fun _ => hrs l run' hmem code bindings timeout

theorem Runtimes.mem_of_lookup {rs : Runtimes ω} {l : Language} {run : Runner ω}
    (h : rs.lookup l = some run) : (l, run) ∈ rs := by
  obtain ⟨before, after, heq, -⟩ := List.lookup_eq_some_iff.mp h
  simp [heq]

theorem Runtimes.lookup_map (f : Language → Runner ω → Runner ω) (rs : Runtimes ω) (l : Language) :
    (rs.map fun x => (x.1, f x.1 x.2)).lookup l = (rs.lookup l).map (f l) := by
  induction rs with
  | nil => rfl
  | cons x rs ih =>
    rw [List.map_cons, List.lookup_cons, List.lookup_cons]
    cases heq : l == x.1 with
    | true =>
      obtain rfl := eq_of_beq heq
      rfl
    | false => exact ih

end Engine

theorem prompt_logFailure (status : CellStatus Product) :
    (Engine.logFailure status : Action ω Unit).Prompt := by
  unfold Engine.logFailure
  split
  · exact Act.prompt_modify _
  · exact Act.prompt_pure ()

/-! ### Slots -/

namespace Concurrency.Act.Closed

open Engine

variable {K : {α : Type} → Action ω α → Prop}

section

variable {view : World ω → α} (h : Closed view @K)

include h

theorem anyLive (ws : List Nat) : K (Semaphore.Place.anyLive ws) := by
  induction ws with
  | nil => exact h.pure false
  | cons w ws ih => exact h.bind (h.call _ rfl) fun status => h.ite ih (h.pure true)

theorem firstPending (ws : List Nat) : K (Semaphore.Place.firstPending ws) := by
  induction ws with
  | nil => exact h.pure none
  | cons w ws ih => exact h.bind (h.call _ rfl) fun status => h.ite ih (h.pure (some w))

end

/-! ### The work apart from messages and cooldowns -/

variable {τ : Type} {view : World ω → τ} [Narrow view] (h : Closed view @K)

include h

/-- A record that does not tell that the work on a message has failed. -/
theorem log {level : Level} {component : Component} {message : Text}
    {context : List (String × Json)}
    (hr : LogRecord.isFailure ⟨level, component, message, context⟩ = false) :
    K (Action.log level component message context) :=
  h.modify fun _ => Narrow.eq_of rfl rfl rfl rfl (List.filter_cons_of_neg (by simp [hr])).symm

omit [Narrow view] in
theorem logAll [Unlogged view] (records : List LogRecord) : K (Action.logAll records) :=
  h.modify fun _ => Unlogged.eq_of _ _

theorem note {d : Deed} (hd : d.aboutWork = false) : K (Action.note d) := by
  refine h.modify fun w => Narrow.eq_of ?_ rfl rfl rfl rfl
  simp [World.docket, hd]

theorem modifySlots (f : Semaphore → Semaphore) : K (slotPlace.modify f) :=
  h.modify fun _ => Narrow.eq_of rfl rfl rfl rfl rfl

theorem wakeNext : K slotPlace.wakeNext := by
  refine h.bind (h.gets _) fun ws => h.bind (h.firstPending ws) fun first => ?_
  cases first with
  | none => exact h.pure ()
  | some w => exact h.bind (h.modifySlots _) fun _ => h.call _ rfl

theorem releaseSlot : K slotPlace.release := h.bind (h.modifySlots _) fun _ => h.wakeNext

theorem acquire : K slotPlace.acquire := by
  refine h.bind (h.gets _) fun s => h.bind (h.anyLive _) fun live => ?_
  refine h.ite ?_ (h.modifySlots _)
  refine h.bind h.newSignal fun w => h.bind (h.modifySlots _) fun _ =>
    h.bind (h.attempt (h.wait _)) fun r => h.bind (h.modifySlots _) fun _ => ?_
  cases r with
  | ok _ => exact h.bind (h.gets _) fun s => h.ite h.wakeNext (h.pure ())
  | error e =>
    exact h.bind (h.call _ rfl) fun status =>
      h.ite (h.bind h.releaseSlot fun _ => h.fail e) (h.fail e)

theorem changeActive (f : Nat → Nat) : K (Engine.changeActive f) :=
  h.modify fun _ => Narrow.eq_of rfl rfl rfl rfl rfl

theorem withSlot {run : Action ω RunResult} (hrun : K run) : K (Engine.withSlot run) :=
  h.bind h.acquire fun _ => h.bind (h.changeActive _) fun _ => h.bind (h.attempt hrun) fun r =>
    h.bind (h.changeActive _) fun _ => h.bind h.releaseSlot fun _ => h.ofEnding r

theorem execute {rs : Runtimes ω} (hrs : rs.Within K) (l : Language) (code : Text)
    (bindings : Json) (timeout : Binary64) : K (Engine.execute rs l code bindings timeout) := by
  unfold Engine.execute
  split
  · rename_i run hrun
    exact h.withSlot (hrs l run (Runtimes.mem_of_lookup hrun) code bindings timeout)
  · exact h.throw _

/-! ### Deliveries -/

theorem attempts {timeout : Option Rat} {call : Action ω α} (hcall : K call) (more : Nat) :
    K (Delivery.attempts timeout call more) := by
  induction more with
  | zero => exact h.within hcall timeout
  | succ more ih =>
    refine h.recover (h.within hcall timeout) fun f => h.ite ?_ (h.throw f)
    exact h.bind (h.modify fun _ => Narrow.eq_of rfl rfl rfl rfl rfl) fun _ =>
      h.bind (h.sleep _) fun _ => ih

theorem withRetries {timeout : Option Rat} {count : Int} {call : Action ω α} (hcall : K call) :
    K (Delivery.withRetries timeout count call) :=
  h.attempts hcall _

section

variable {s : Audit.Settings} {sink : Audit.Sink ω} (htrim : ∀ tenant keep, K (sink.trim tenant keep))

include htrim

theorem trim (tenant : Text) : K (Audit.trim s sink tenant) := by
  refine h.recover (h.bind (h.withRetries (htrim _ _)) fun removed => ?_) fun f => h.log rfl
  split
  · exact h.log rfl
  · exact h.pure ()

theorem stored (tenant : Text) : K (Audit.stored s sink tenant) := by
  refine h.bind (h.change fun _ => Narrow.eq_of rfl rfl rfl rfl rfl) fun n => ?_
  have hrest : K (if (n : Int) % s.trimEvery = 0 then Audit.trim s sink tenant else Pure.pure ()) :=
    h.ite (h.trim htrim tenant) (h.pure ())
  exact h.ite (h.bind (h.throw _) fun _ => hrest) hrest

end

theorem giveUpEntry (entry : AuditEntry) (f : Fault) : K (Audit.giveUp entry f) :=
  h.bind (h.modify fun _ => Narrow.eq_of rfl rfl rfl rfl rfl) fun _ => h.log rfl

theorem record {s : Audit.Settings} (sink : Option (Audit.Sink ω))
    (hsink : ∀ k, sink = some k → k.Within K) (entry : AuditEntry) :
    K (Audit.record s sink entry) := by
  refine h.bind (h.note rfl) fun _ => ?_
  cases sink with
  | none => exact h.bind (h.log rfl) fun _ => h.pure true
  | some sink =>
    refine h.bind (h.attempt (h.withRetries ((hsink sink rfl).append entry))) fun r => ?_
    match r with
    | .ok () => exact h.bind (h.stored (hsink sink rfl).trim _) fun _ => h.pure true
    | .error (.fault f) => exact h.bind (h.giveUpEntry entry f) fun _ => h.pure false
    | .error .interrupted => exact h.fail _

/-! ### Results -/

theorem logResult (m : Message) (c : Command) (r : RunResult) : K (Engine.logResult m c r) := by
  unfold Engine.logResult
  cases r.status <;> exact h.log rfl

variable {e : Setup ω}

theorem deliver (hreply : ∀ send, e.reply = some send → ∀ channel content, K (send channel content))
    (channel : Text) (reply : Option Text) : K (Engine.deliver e channel reply) := by
  unfold Engine.deliver
  split
  · rename_i send hsend
    refine h.bind (h.note rfl) fun _ =>
      h.bind (h.attempt (h.withRetries (hreply send hsend _ _))) fun r => ?_
    match r with
    | .ok () => exact h.pure true
    | .error (.fault f) => exact h.bind (h.log rfl) fun _ => h.pure false
    | .error .interrupted => exact h.fail _
  · exact h.pure false

theorem conclude (hreply : ∀ send, e.reply = some send → ∀ channel content, K (send channel content))
    (haudit : ∀ sink, e.audit = some sink → sink.Within K) (m : Message) (c : Command)
    (r : RunResult) (retryAfterMs : Int) : K (Engine.conclude e m c r retryAfterMs) :=
  h.bind (h.logResult m c r) fun _ => h.bind (h.spawn (h.record _ haudit _)) fun _ =>
    h.bind (h.spawn (h.deliver hreply _ _)) fun _ => h.bind (h.gather _ _ _) fun _ =>
      h.bind (h.valueOf _ _) fun _ => h.bind (h.valueOf _ _) fun _ => h.pure _

theorem settle [Unlogged view] (m : Message) (p : Progress) (r : Ending (Option RunResult)) :
    K (Engine.settle e m p r) := by
  match r with
  | .ok r => exact h.pure r
  | .error .interrupted => exact h.fail _
  | .error (.fault f) =>
    unfold Engine.settle
    simp only []
    split
    · split
      · exact h.pure _
      · exact h.bind (h.log rfl) fun _ => h.pure none
    · exact h.bind (h.modify fun _ => Unlogged.eq_of _ _) fun _ => h.pure _

/-! ### The life of an engine -/

theorem enable : K Engine.enable :=
  h.bind (h.modify fun _ => Narrow.eq_of rfl rfl rfl rfl rfl) fun _ => h.log rfl

theorem disable : K Engine.disable :=
  h.bind (h.modify fun _ => Narrow.eq_of rfl rfl rfl rfl rfl) fun _ => h.log rfl

theorem logFailure (status : CellStatus Product) : K (Engine.logFailure status) := by
  unfold Engine.logFailure
  split
  · exact h.log rfl
  · exact h.pure ()

/-- What is done about a task in the background once it is started. -/
theorem afterDispatch (t : Nat) : K (do
    Act.modify fun w => { w with inFlight := w.inFlight ++ [t] }
    let _ ← Act.watch .nothing t fun _ =>
      Act.modify fun w => { w with inFlight := w.inFlight.erase t }
    let _ ← Act.watch .nothing t Engine.logFailure : Action ω Unit) :=
  h.bind (h.modify fun _ => Narrow.eq_of rfl rfl rfl rfl rfl) fun _ =>
    h.bind (h.watch (fun _ => prompt_modify _) fun _ =>
      h.modify fun _ => Narrow.eq_of rfl rfl rfl rfl rfl) fun _ =>
        h.bind (h.watch prompt_logFailure h.logFailure) fun _ => h.pure ()

/-- What is done about the sweeper once it is started. -/
theorem afterStart (t : Nat) : K (do
    Act.modify fun w => { w with sweeper := some t }
    let _ ← Act.watch .nothing t Engine.logFailure : Action ω Unit) :=
  h.bind (h.modify fun _ => Narrow.eq_of rfl rfl rfl rfl rfl) fun _ =>
    h.bind (h.watch prompt_logFailure h.logFailure) fun _ => h.pure ()

theorem stopSweeper : K Engine.stopSweeper := by
  refine h.bind (h.gets _) fun sweeper => ?_
  cases sweeper with
  | none => exact h.pure ()
  | some t =>
    refine h.bind (h.call _ rfl) fun _ => h.bind (h.attempt (h.wait _)) fun r => ?_
    match r with
    | .error (.fault f) => exact h.throw f
    | .error .interrupted | .ok () => exact h.modify fun _ => Narrow.eq_of rfl rfl rfl rfl rfl

theorem stop : K Engine.stop :=
  h.bind h.stopSweeper fun _ => h.bind (h.gets _) fun _ =>
    h.ite (h.bind (h.log rfl) fun _ => h.gather _ _ _) (h.pure ())

end Concurrency.Act.Closed

/-! ### The parts that leave the cooldowns alone -/

open Act

theorem cooldownFree_closed : Closed World.docket (CooldownFree (ω := ω)) :=
  leaves_closed.mono fun _ _ => World.ledger_eq_of_docket

theorem quiet_log (level : Level) (component : Component) (message : Text)
    (context : List (String × Json)) :
    Quiet World.ledger (Action.log level component message context : Action ω Unit) :=
  quiet_modify fun _ => rfl

theorem cooldownFree_log {level : Level} {component : Component} {message : Text}
    {context : List (String × Json)} :
    CooldownFree (Action.log level component message context : Action ω Unit) :=
  (quiet_log level component message context).leaves

theorem cooldownFree_note {d : Deed} (h : d.aboutCooldowns = false) :
    CooldownFree (Action.note d : Action ω Unit) := by
  refine leaves_modify fun w => ?_
  simp [World.ledger, h]

namespace Engine

variable {e : Setup ω}

theorem cooldownFree_receive (m : Message) : CooldownFree (receive m : Action ω (Nat × Bool)) :=
  leaves_change fun w => by simp [World.ledger, Deed.aboutCooldowns]

theorem cooldownFree_readRegistry (he : e.Confined) (n : Nat) (tenant : Text) :
    CooldownFree (readRegistry e n tenant) := by
  have hnote : ∀ (commands : List Command) (sigil : Option Text),
      CooldownFree (do Action.note (.listed n tenant commands sigil); pure (commands, sigil) : Action ω _) :=
    fun _ _ => leaves_bind (cooldownFree_note rfl) fun _ => leaves_pure _
  refine leaves_recover (leaves_within (leaves_bind (he.commands tenant).cooldownFree
    fun commands => ?_) _) fun f => leaves_bind cooldownFree_log fun _ => leaves_pure _
  split
  · rename_i ask hask
    exact leaves_bind (he.sigil ask hask tenant).cooldownFree fun _ => hnote _ _
  · exact leaves_bind (leaves_pure none) fun _ => hnote _ _

theorem cooldownFree_run (he : e.Confined) (n : Nat) (m : Message) (c : Command) (l : Language) :
    CooldownFree (run e n m c l) :=
  cooldownFree_closed.execute
    (he.within.runtimes.watched cooldownFree_closed fun _ => cooldownFree_note rfl) _ _ _ _

theorem quiet_settle (m : Message) (p : Progress) (r : Ending (Option RunResult)) :
    Quiet World.ledger (settle e m p r) := by
  match r with
  | .ok r => exact quiet_pure r
  | .error .interrupted => exact quiet_fail _
  | .error (.fault f) =>
    unfold settle
    simp only []
    split
    · split
      · exact quiet_pure _
      · exact quiet_bind (quiet_log _ _ _ _) fun _ => quiet_pure none
    · exact quiet_bind (quiet_log _ _ _ _) fun _ => quiet_pure _

end Engine

end ChatCommands
