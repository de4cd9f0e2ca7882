import ChatCommands.Audit.Log
import ChatCommands.Config
import ChatCommands.Engine.Pool
import ChatCommands.Matching
import ChatCommands.Registry.Basic
import ChatCommands.Reply
import ChatCommands.Review.Basic

/-!
The engine: one message in, at most one reply out.

A message is matched, admitted by the cooldown limiter, reviewed and run; every message that matched
ends with one audit entry and at most one reply.  The work up to the end of the run is bounded by
the deadline of the message.
-/

namespace ChatCommands.Engine

open Concurrency

/-- An engine with everything that it works with. -/
structure Setup (ω : Type) where
  config : Config := {}
  registry : Registry.Source ω
  runtimes : Runtimes ω
  /-- The verdict on the code of a command with a language label, and what the review logs. -/
  review : (label code : Text) → Except Fault (List LogRecord × Verdict)
  /-- Delivers a text to a channel. -/
  reply : Option ((channel content : Text) → Action ω Unit)
  audit : Option (Audit.Sink ω)
  /-- The clock of the cooldowns, in milliseconds. -/
  clock : ω → Rat

variable {ω : Type}

namespace Setup

/-- How the cooldown limiter is set up. -/
def cooldowns (e : Setup ω) : Cooldown.Settings :=
  { maxEntries := e.config.cooldownMaxEntries, graceWindows := e.config.cooldownGraceWindows }

/-- How the audit log delivers. -/
def auditSettings (e : Setup ω) : Audit.Settings :=
  { timeout := e.config.auditTimeout.toRat?, retention := e.config.auditRetention }

end Setup

/-- How far the work on a message has come. -/
structure Progress where
  command : Option Command := none
  reservation : Option Cooldown.Reservation := none
  retryAfterMs : Int := 0
  deriving Inhabited

/-- What a stage of the work on a message comes to: the progress, and the ending.  The stage itself
does not fail, so that the progress is known however it ends. -/
abbrev Staged : Type := Progress × Ending (Option RunResult)

/-- Takes a message in: gives it its number, and looks at the kill switch. -/
def receive (m : Message) : Action ω (Nat × Bool) :=
  Act.change fun w => ((w.messages, w.enabled),
    { w with messages := w.messages + 1, deeds := .received w.messages m w.enabled :: w.deeds })

/-! ### Matching -/

/-- The commands and the prefix of a tenant; a registry that does not answer has none. -/
def readRegistry (e : Setup ω) (n : Nat) (tenant : Text) : Action ω (List Command × Option Text) :=
  let read : Action ω (List Command × Option Text) :=
    Act.within e.config.registryTimeout.toRat? do
      let commands ← e.registry.commands tenant
      let sigil ← match e.registry.sigil with
        | some ask => ask tenant
        | none => pure none
      Action.note (.listed n tenant commands sigil)
      pure (commands, sigil)
  Act.recover read fun f => do
    Action.log .warning .coordinator (text "Command registry unavailable, treating as no match")
      (("tenant_id", .str tenant) :: Audit.faultContext f)
    pure ([], none)

/-- The command that a message fires. -/
def matched? (e : Setup ω) (m : Message) (commands : List Command) (sigil : Option Text) :
    Option Command :=
  Matching.first? ⟨sigil, e.config.defaultSigil, e.config.caseInsensitive⟩ m.roles m.channel
    m.content commands

/-! ### Admission -/

/-- The members of log records about a message and its command. -/
def logContext (m : Message) (c : Command) : List (String × Json) :=
  [("tenant_id", .str m.tenant), ("command_id", .str c.id), ("author_id", .str m.author)]

/-- The key under which the cooldown of a command counts for an author. -/
def cooldownKey (m : Message) (c : Command) : Cooldown.Key := ⟨m.author, c.id⟩

/-- Asks the limiter for a run of the command. -/
def reserve (e : Setup ω) (m : Message) (c : Command) :
    Action ω (Decision × Option Cooldown.Reservation) :=
  Act.change fun w =>
    let now := e.clock w.env
    let (l, d, r) := w.limiter.reserve e.cooldowns (cooldownKey m c) c.cooldownMs now
    ((d, r), { w with limiter := l, deeds := .asked m c now r :: w.deeds })

/-- Turns a reservation into a fire. -/
def commit (e : Setup ω) (r : Cooldown.Reservation) : Action ω Unit :=
  Act.modify fun w =>
    { w with limiter := w.limiter.commitReservation e.cooldowns r, deeds := .committed r :: w.deeds }

/-- Gives a reservation back; nothing happens if it was committed. -/
def release (r : Option Cooldown.Reservation) : Action ω Unit :=
  match r with
  | some r => Act.modify fun w =>
    { w with limiter := w.limiter.release r, deeds := .released r :: w.deeds }
  | none => pure ()

/-- The result of a message that came too early. -/
def rateLimited (d : Decision) : RunResult :=
  { status := .rateLimited
    summary := some (text "Cooldown active for " ++ Text.ofInt d.retryAfterMs ++ text "ms") }

/-- The result of code that the review has refused. -/
def rejected (v : Verdict) : RunResult :=
  { status := .securityRejected
    summary := some (text "Rejected by validator: " ++ v.category.getD (text "None")) }

/-- The result of a command in a language that is not supported. -/
def unsupportedLanguage (c : Command) : RunResult :=
  { status := .runtimeUnavailable, summary := some (text "Unsupported language: " ++ c.language) }

/-- The runtime language of a command, if it is supported. -/
def runtimeLanguage? (e : Setup ω) (c : Command) : Option Language :=
  (Language.ofLabel? c.language).filter fun l => e.runtimes.any fun r => r.1 == l

/-- The runtimes, with a note of each call. -/
def watched (n : Nat) (rs : Runtimes ω) : Runtimes ω :=
  rs.map fun (l, run) => (l, fun code bindings timeout => do
    Action.note (.entered n ⟨l, code, bindings, timeout⟩)
    run code bindings timeout)

/-- Runs the command. -/
def run (e : Setup ω) (n : Nat) (m : Message) (c : Command) (l : Language) : Action ω RunResult :=
  execute (watched n e.runtimes) l c.code (Request.of m c).bindings (e.config.timeoutFor l)

/-- Commits the reservation and runs the command. -/
def start (e : Setup ω) (n : Nat) (m : Message) (c : Command) (r : Option Cooldown.Reservation) :
    Action ω Staged := do
  match runtimeLanguage? e c with
  | none =>
    Action.log .error .coordinator (text "Unsupported language")
      (logContext m c ++ [("language", .str c.language)])
    pure (⟨some c, r, 0⟩, .ok (some (unsupportedLanguage c)))
  | some l =>
    match r with
    | some r => commit e r
    | none => pure ()
    Action.note (.started m c r)
    let ending ← Act.attempt (run e n m c l)
    pure (⟨some c, r, 0⟩, ending.map some)

/-- Reviews the code and goes on if it passes. -/
def reviewThen (e : Setup ω) (n : Nat) (m : Message) (c : Command)
    (r : Option Cooldown.Reservation) : Action ω Staged := do
  match e.review c.language c.code with
  | .error f => pure (⟨some c, r, 0⟩, .error (.fault f))
  | .ok (records, v) =>
    Action.logAll records
    if v.ok then start e n m c r
    else
      Action.log .warning .coordinator (text "Code rejected")
        (logContext m c ++ [("category", .orNull (v.category.map .str))])
      pure (⟨some c, r, 0⟩, .ok (some (rejected v)))

/-- Asks for a run of the matched command and goes on if it is allowed. -/
def requestRun (e : Setup ω) (n : Nat) (m : Message) (c : Command) : Action ω Staged := do
  let (d, r) ← reserve e m c
  if d.allowed then reviewThen e n m c r
  else
    Action.log .debug .coordinator (text "Rate limited")
      (logContext m c ++ [("retry_after_ms", .int d.retryAfterMs)])
    pure (⟨some c, none, d.retryAfterMs⟩, .ok (some (rateLimited d)))

/-- The whole work on a message up to the end of the run. -/
def work (e : Setup ω) (n : Nat) (m : Message) : Action ω Staged := do
  match ← Act.attempt (readRegistry e n m.tenant) with
  | .error f => pure ({}, .error f)
  | .ok (commands, sigil) =>
    match matched? e m commands sigil with
    | none => pure ({}, .ok none)
    | some c =>
      Action.note (.matched m c)
      requestRun e n m c

/-- A stage under a time limit: its ending is a timeout if the limit has interrupted it. -/
def bounded (limit : Option Rat) (stage : Action ω Staged) : Action ω Staged :=
  match limit with
  | none => stage
  | some d => do
    let a ← Act.call (.setAlarm d)
    let (p, r) ← stage
    let expired ← Act.call (.dropAlarm a)
    match expired, r with
    | true, .error .interrupted => pure (p, .error (.fault (.of .timeout [])))
    | _, r => pure (p, r)

/-! ### Results -/

/-- The result of a message that ran into its deadline. -/
def deadlineExceeded (deadline : Binary64) : RunResult :=
  { status := .timeout
    summary := some (text "Message deadline of " ++ deadline.renderGeneral ++ text "s exceeded") }

/-- The result of a message on which the work failed. -/
def internalError (f : Fault) : RunResult :=
  { status := .runtimeUnavailable, summary := some (text "Internal error: " ++ text f.kind.name) }

/-- The record about a result. -/
def logResult (m : Message) (c : Command) (r : RunResult) : Action ω Unit :=
  let context := logContext m c ++
    [("status", .str (text r.status.name)), ("duration_ms", .int r.durationMs)]
  match r.status with
  | .runtimeUnavailable =>
    Action.log .error .coordinator (text "Runtime unavailable")
      (context ++ [("error", .orNull (r.summary.map .str))])
  | .timeout => Action.log .warning .coordinator (text "Command timed out") context
  | .rateLimited => Action.log .debug .coordinator (text "Command rate limited") context
  | _ => Action.log .info .coordinator (text "Command executed") context

/-- Delivers a reply; true if the sink has accepted it. -/
def deliver (e : Setup ω) (channel : Text) (reply : Option Text) : Action ω Bool :=
  match reply, e.reply with
  | some (c :: t), some send => do
    Action.note (.answered channel (c :: t))
    match ← Act.attempt (Delivery.withRetries e.config.replyTimeout.toRat? Delivery.defaultAttempts
        (send channel (c :: t))) with
    | .ok () => pure true
    | .error (.fault f) =>
      Action.log .error .coordinator (text "Reply delivery failed")
        (("channel_id", .str channel) :: Audit.faultContext f)
      pure false
    | .error .interrupted => Act.fail .interrupted
  | _, _ => pure false

/-- The audit entry about a result. -/
def auditEntry (m : Message) (c : Command) (r : RunResult) : AuditEntry where
  tenant := m.tenant
  command := c.id
  author := m.author
  status := r.status
  summary := r.summary
  durationMs := r.durationMs

/-- A truth value that a task has produced. -/
def flag? : Product → Option Bool
  | .flag b => some b
  | _ => none

/-- Audits a result and delivers its reply, both at the same time. -/
def conclude (e : Setup ω) (m : Message) (c : Command) (r : RunResult) (retryAfterMs : Int) :
    Action ω Outcome := do
  logResult m c r
  let reply := Reply.ofResult e.config.maxReplyChars c.language r retryAfterMs
  let auditing ← Act.spawn .flag (Audit.record e.auditSettings e.audit (auditEntry m c r))
  let delivering ← Act.spawn .flag (deliver e m.channel reply)
  Act.gather .nothing false [auditing, delivering]
  let audited ← Act.valueOf flag? auditing
  let delivered ← Act.valueOf flag? delivering
  pure ⟨c.id, r, reply, delivered, audited⟩

/-- The result that the ending of the work leads to, if the message is to be concluded. -/
def settle (e : Setup ω) (m : Message) (p : Progress) (r : Ending (Option RunResult)) :
    Action ω (Option RunResult) :=
  let deadline := e.config.messageDeadline none
  match r with
  | .ok r => pure r
  | .error .interrupted => Act.fail .interrupted
  | .error (.fault f) =>
    if f.kind = .timeout then
      match p.command with
      | some _ => pure (some (deadlineExceeded deadline))
      | none => do
        Action.log .warning .coordinator (text "Message deadline exceeded before matching")
          [("tenant_id", .str m.tenant), ("deadline", .real deadline)]
        pure none
    else do
      Action.log .error .coordinator (text "Command pipeline failed")
        [("tenant_id", .str m.tenant), ("command_id", .orNull (p.command.map fun c => .str c.id)),
          ("error_type", .str (text f.kind.name))]
      pure (p.command.map fun _ => internalError f)

/-- Handles a message; there is an outcome if it matched a command. -/
def handle (e : Setup ω) (m : Message) : Action ω (Option Outcome) := do
  let (n, enabled) ← receive m
  if !enabled then
    Action.log .debug .coordinator (text "Engine disabled, message ignored")
      [("tenant_id", .str m.tenant)]
    pure none
  else if m.fromBot then pure none
  else
    let (p, r) ← bounded (e.config.messageDeadline none).toRat? (work e n m)
    let r ← Act.ensuring (settle e m p r) (release p.reservation)
    match p.command, r with
    | some c, some r => do
      Action.note (.concluded n m c r p.retryAfterMs)
      some <$> conclude e m c r p.retryAfterMs
    | _, _ => pure none

end ChatCommands.Engine
