import ChatCommands.Audit.Store
import ChatCommands.Engine.Service
import ChatCommands.Registry.Cache

/-!
Surroundings of an engine that follow a script.

Every store, sink and runtime answers after a scripted delay, with an answer or with a fault, and
keeps count of what it was asked.
-/

namespace ChatCommands.Simulation

open Concurrency

/-- A sink whose first calls fail: how many, with which fault, after which delay. -/
structure FlakySink where
  failTimes : Nat := 0
  fault : Fault
  delay : Rat := 0
  /-- The calls so far. -/
  attempts : Nat := 0

/-- The next call of a sink fails. -/
def FlakySink.isFailing (s : FlakySink) : Bool := s.attempts < s.failTimes

/-- What a runtime does in one run. -/
structure RunScript where
  delay : Rat := 0
  ending : Except Fault RunResult := .ok { status := .success, output := text "ok\n" }

/-- A run that a runtime was asked for. -/
structure RunCall where
  language : Language
  code : Text
  bindings : Json
  timeout : Binary64

/-- The state of the surroundings. -/
structure Surroundings where
  store : Registry.Store := {}
  /-- The reads of the registry so far. -/
  reads : Nat := 0
  registryFault : Option Fault := none
  registryDelay : Rat := 0
  /-- The clock of the cooldowns, in milliseconds. -/
  clockMs : Rat := 0
  /-- The clock of the cache, in seconds. -/
  cacheClock : Rat := 0
  scripts : List (Language × List RunScript) := []
  /-- The runs so far, latest first. -/
  runs : List RunCall := []
  /-- The runs that have ended, with the instants of their ends, latest first. -/
  ended : List (Nat × Rat) := []
  replySink : FlakySink := { fault := .of .replySink (text "down") }
  /-- The replies so far, latest first. -/
  replies : List (Text × Text) := []
  auditSink : FlakySink := { fault := .of .auditSink (text "down") }
  auditStore : Audit.Store := {}
  trimFault : Option Fault := none
  /-- The trims so far, latest first. -/
  trims : List (Text × Int) := []

namespace Surroundings

/-- A read of the registry. -/
def read {α : Type} (answer : Registry.Store → α) : OutsideCall Surroundings α where
  start s := (some s.registryDelay, { s with reads := s.reads + 1 })
  finish s :=
    match s.registryFault with
    | some f => (.error f, s)
    | none => (.ok (answer s.store), s)

/-- The registry; `sigils` tells whether it knows prefixes. -/
def registry (sigils : Bool) : Registry.Source Surroundings where
  commands tenant := (read fun s => s.commandsOf tenant).make
  sigil := if sigils then some fun tenant => (read fun s => s.sigilOf tenant).make else none

/-- The registry with a cache in front. -/
def cachedRegistry (sigils : Bool) (ttl : Rat) : Registry.Source Surroundings :=
  Registry.cached ⟨ttl, Action.askEnv (·.cacheClock)⟩ (registry sigils)

/-- What the `n`-th run of a script does; the last one is repeated. -/
def scriptAt (scripts : List RunScript) (n : Nat) : RunScript :=
  scripts[n]?.getD (scripts.getLast?.getD {})

/-- A runtime: it notes the run, takes its time and ends as the script says. -/
def runner (l : Language) : Engine.Runner Surroundings := fun code bindings timeout => do
  let script ← Action.onEnv fun s =>
    let earlier := s.runs.countP fun r => r.language == l
    (scriptAt ((s.scripts.lookup l).getD []) earlier,
      { s with runs := ⟨l, code, bindings, timeout⟩ :: s.runs })
  if script.delay ≠ 0 then Act.sleep (some script.delay)
  Act.ofExcept script.ending

/-- The runtimes of the scripted languages. -/
def runtimes (ls : List Language) : Engine.Runtimes Surroundings := ls.map fun l => (l, runner l)

/-- The delivery of a reply. -/
def replyCall (channel content : Text) : Action Surroundings Unit := do
  let sink ← Action.onEnv fun s =>
    (s.replySink, { s with replySink := { s.replySink with attempts := s.replySink.attempts + 1 } })
  if sink.isFailing then
    if sink.delay ≠ 0 then Act.sleep (some sink.delay)
    Act.throw sink.fault
  Action.onEnv fun s => ((), { s with replies := (channel, content) :: s.replies })

/-- The storing of an audit entry. -/
def appendCall (e : AuditEntry) : Action Surroundings Unit := do
  let sink ← Action.onEnv fun s =>
    (s.auditSink, { s with auditSink := { s.auditSink with attempts := s.auditSink.attempts + 1 } })
  if sink.isFailing then
    if sink.delay ≠ 0 then Act.sleep (some sink.delay)
    Act.throw sink.fault
  Action.onEnv fun s => ((), { s with auditStore := s.auditStore.append e })

/-- The trimming of a tenant's entries. -/
def trimCall (tenant : Text) (keep : Int) : Action Surroundings Nat := do
  let fault ← Action.onEnv fun s => (s.trimFault, { s with trims := (tenant, keep) :: s.trims })
  match fault with
  | some f => Act.throw f
  | none =>
    let r ← Action.onEnv fun s =>
      let (r, store) := s.auditStore.trim? tenant keep
      (r, { s with auditStore := store })
    Act.ofExcept r

/-- The audit sink. -/
def auditSinkOf : Audit.Sink Surroundings := ⟨appendCall, trimCall⟩

end Surroundings

end ChatCommands.Simulation
