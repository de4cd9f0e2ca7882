import ChatCommands.Json.Access
import ChatCommands.Json.Shown
import ChatCommands.Simulation.AuditSession
import ChatCommands.Simulation.Session

/-!
Scenarios: engines, their surroundings, and the steps of a session, described in JSON.

A description need not be complete: what it leaves out is ordinary, a command that answers to `ping`
and a message that says so.
-/

namespace ChatCommands.Simulation.Scenario

/-! ### Domain objects -/

/-- A command over an ordinary one. -/
def commandOf (v : Json) : Except Fault Command :=
  (Command.check (v.withDefaults [("id", .ofString "c"), ("tenant_id", .ofString "g"),
    ("trigger", .ofString "ping"), ("language", .ofString "python"),
    ("code", .ofString "reply(1)")])).orFault

/-- A message over an ordinary one. -/
def messageOf (v : Json) : Except Fault Message :=
  (Message.check (v.withDefaults [("tenant_id", .ofString "g"), ("author_id", .ofString "u1"),
    ("channel_id", .ofString "c1"), ("text", .ofString "!ping")])).orFault

/-- An audit entry over an ordinary one. -/
def auditEntryOf (v : Json) : Except Fault AuditEntry :=
  (AuditEntry.check (v.withDefaults [("tenant_id", .ofString "g"), ("command_id", .ofString "c"),
    ("author_id", .ofString "u"), ("status", .ofString "success")])).orFault

/-- A result of a run. -/
def resultOf (v : Json) : Except Fault RunResult := (RunResult.check v).orFault

/-- A value that names no member of an enumeration. -/
def notMember (v : Json) (enumeration : String) : Fault :=
  .of .value (v.shown ++ text " is not a valid " ++ text enumeration)

/-- The language that a value names. -/
def languageOf (v : Json) : Except Fault Language :=
  match v.text?.bind Language.ofName? with
  | some l => .ok l
  | none => .error (notMember v "Language")

/-- A fault of a kind that a name stands for. -/
def namedFault (kind message : Text) : Except Fault (Option Fault) :=
  match FaultKind.ofName? kind with
  | some .runtimeUnavailable => .ok (some (.runtimeUnavailable message (text "bin")))
  | some k => .ok (some (.of k message))
  | none => .error (.of .value (text "unknown kind"))

/-- The fault that a description asks for: the name of its kind, or its kind and message. -/
def faultOf (v : Json) : Except Fault (Option Fault) :=
  match v with
  | .str kind => namedFault kind (text "down")
  | .obj _ => namedFault (v.textAt "kind") (v.textAt "message" "down")
  | _ => .ok none

/-! ### Surroundings -/

/-- A sink that fails at first. -/
def flakySinkOf (kind : FaultKind) (v : Json) : Except Fault FlakySink := do
  let fault ← faultOf (v.get "error")
  return { failTimes := v.natAt "fail_times"
           fault := fault.getD (.of kind (text "down"))
           delay := v.ratAt "delay" }

/-- What a runtime does in one run. -/
def runScriptOf (v : Json) : Except Fault RunScript := do
  let delay := v.ratAt "delay"
  match ← faultOf (v.get "raise") with
  | some f => return { delay, ending := .error f }
  | none =>
    let r ← resultOf (v.withDefaults [("status", .ofString "success"),
      ("output", .ofString "ok\n")])
    return { delay, ending := .ok r }

/-- What the runtimes do, by language. -/
def scriptsOf : Option Json → Except Fault (List (Language × List RunScript))
  | none => .ok [(.python, [{}])]
  | some v => v.asMembers.mapM fun (name, scripts) => do
    return (← languageOf (.str name), ← scripts.asItems.mapM runScriptOf)

/-- The store of a registry. -/
def storeOf (v : Json) : Except Fault Registry.Store := do
  let commands ← (v.itemsAt "commands").mapM commandOf
  return .ofCommands commands ((v.get "prefixes").asMembers.map fun (t, p) => (t, p.asText))

/-- The surroundings of an engine. -/
def surroundingsOf (v : Json) : Except Fault Surroundings := do
  let registry := v.get "registry"
  let sink := v.get "audit_sink"
  return { store := ← storeOf v
           registryFault := ← faultOf (registry.get "error")
           registryDelay := registry.ratAt "delay"
           scripts := ← scriptsOf (v.field? "runtimes")
           replySink := ← flakySinkOf .replySink (v.get "reply_sink")
           auditSink := ← flakySinkOf .auditSink sink
           auditStore := { retention := (sink.get "retention").int?.map Int.toNat }
           trimFault := ← faultOf (sink.get "trim_error") }

/-- The registry of an engine, behind a cache if a lifetime is given. -/
def registryOf (v : Json) : Registry.Source Surroundings :=
  let sigils := !v.flagAt "no_prefix"
  match (v.get "ttl").rat? with
  | some ttl => Surroundings.cachedRegistry sigils ttl
  | none => Surroundings.registry sigils

/-- Something that is there unless it is set to `null`. -/
def unlessNull {α : Type} (v : Json) (name : String) (a : α) : Option α :=
  match v.field? name with
  | some .null => none
  | _ => some a

/-- An engine in its surroundings. -/
def setupOf (v : Json) (env : Surroundings) : Except Fault (Engine.Setup Surroundings) := do
  let config ← (Config.check ((v.field? "config").getD (.obj []))).orFault
  let reviewer : Reviewer := { maxBytes := config.maxCodeBytes }
  return { config
           registry := registryOf (v.get "registry")
           runtimes := Surroundings.runtimes (env.scripts.map (·.1))
           review := fun label code => .ok (reviewer.examine label code)
           reply := unlessNull v "reply_sink" Surroundings.replyCall
           audit := unlessNull v "audit_sink" Surroundings.auditSinkOf
           clock := (·.clockMs) }

/-- The world at the start of an engine's life. -/
def worldOf {ω : Type} (env : ω) (slots : Int := 4) : Except Fault (World ω) :=
  (Concurrency.Semaphore.ofSlots? slots).map fun s => { env, slots := s }

/-! ### Steps -/

/-- A step of a session. -/
def stepOf (v : Json) : Except Fault Step := do
  let tenant := v.textAt "tenant_id"
  match (v.textAt "do").toString with
  | "message" => return .message (← messageOf (v.get "message"))
  | "batch" => return .batch (← (v.itemsAt "messages").mapM messageOf)
  | "dispatch" => return .dispatch (← messageOf (v.get "message"))
  | "start" => return .start
  | "stop" => return .stop
  | "enable" => return .enable
  | "disable" => return .disable
  | "clock" =>
    match (v.get "ms").rat? with
    | some ms => return .clock ms
    | none => return .cacheClock (v.ratAt "seconds")
  | "sleep" => return .sleep (v.ratAt "seconds")
  | "prune" => return .prune
  | "get_commands" => return .commandsOf tenant
  | "get_prefix" => return .sigilOf tenant
  | "add" => return .add (← commandOf (v.get "command"))
  | "remove" => return .remove tenant (v.textAt "command_id")
  | "set_prefix" => return .setSigil tenant (v.get "prefix").text?
  | "fail" => return .setFault (← faultOf (v.get "error"))
  | "delay" => return .setDelay (v.ratAt "seconds")
  | "invalidate" => return .invalidate (v.get "tenant_id").text?
  | _ => .error (.of .value (text "unknown step"))

/-- A step of a session with the audit log. -/
def auditStepOf (v : Json) : Except Fault AuditStep := do
  match (v.textAt "do").toString with
  | "record" => return .record (← auditEntryOf (v.get "entry")) (v.natAt "times" 1)
  | "append" => return .append (← auditEntryOf (v.get "entry"))
  | "trim" => return .trim (v.textAt "tenant_id") (v.intAt "keep")
  | _ => return .entries (v.get "tenant_id").text?

/-- The settings of an audit log. -/
def auditSettingsOf (v : Json) : Audit.Settings :=
  let d : Audit.Settings := {}
  { timeout := match v.field? "timeout" with
      | some x => x.rat?
      | none => d.timeout
    retention := v.intAt "retention" d.retention
    trimEvery := v.intAt "trim_every" d.trimEvery }

/-- What the calls of one delivery do. -/
def deliveryOf (v : Json) : Except Fault DeliveryScript := do
  let outcomes ← (v.itemsAt "outcomes").mapM fun o => do
    match ← faultOf (o.get "raise") with
    | some f => return (o.ratAt "delay", Except.error f)
    | none => return (o.ratAt "delay", Except.ok (o.get "value"))
  return { outcomes }

end ChatCommands.Simulation.Scenario
