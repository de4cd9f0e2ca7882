import ChatCommands.Command

/-!
The limits that the engine enforces.

Seconds are floating-point numbers, as the host's clock counts them.  The deadline of a message is
either fixed or follows from the timeout of the run and a margin for the rest of the work.
-/

namespace ChatCommands

open Schema

/-- Limits of the engine. -/
structure Config where
  timeout : Binary64 := .ofInt 3
  languageTimeouts : List (Language × Binary64) := []
  deadline : Option Binary64 := none
  maxConcurrent : Int := 8
  memoryMb : Int := 256
  maxCodeBytes : Int := 5000
  maxOutputBytes : Int := 10000
  maxExcerptChars : Int := 300
  maxReplyChars : Int := 2000
  caseInsensitive : Bool := true
  defaultSigil : Text := [33]
  registryTimeout : Binary64 := .ofInt 2
  auditTimeout : Binary64 := .ofInt 2
  replyTimeout : Binary64 := .ofInt 2
  cooldownMaxEntries : Int := 100000
  cooldownGraceWindows : Int := 3
  sweepInterval : Binary64 := .ofInt 60
  auditRetention : Int := 10000
  deriving Repr, Inhabited

namespace Config

/-- The shortest timeout of a script. -/
def minTimeout : Binary64 := .ofDecimal false 1 (-1)

/-- The longest timeout of a script. -/
def maxTimeout : Binary64 := .ofInt 30

/-- What a deadline allows beyond the script's timeout: reading the registry, review, scratch files
and reaping the process. -/
def deadlineMargin : Binary64 := .ofInt 2

/-- A language by its name, as the key of a dictionary. -/
def languageKey (t : Text) : Checked Language := oneOf Language.names Language.ofName? (.str t)

/-- Timeouts by language, each in the range of timeouts. -/
def languageTimeouts? : Check (List (Language × Binary64)) := fun v =>
  (dict languageKey number v).andThen fun ts =>
    match ts.find? fun (_, x) => !(minTimeout.le x && x.le maxTimeout) with
    | some (l, _) =>
      .fail (.rule (text "Timeout for " ++ text l.name ++ text " must be between " ++
        minTimeout.render ++ text " and " ++ maxTimeout.render ++ text " seconds"))
    | none => .ok ts

/-- A timeout of a collaborator: positive and at most a minute. -/
def minute? : Check Binary64 := numberIn (some (.ofInt 60)) none (some (.ofInt 0))

/-- The names of all fields. -/
def fieldNames : List String :=
  ["execution_timeout_seconds", "language_timeouts", "message_deadline_seconds",
    "max_concurrent_executions", "memory_limit_mb", "max_code_bytes", "max_output_bytes",
    "max_error_excerpt_chars", "max_reply_chars", "case_insensitive", "default_prefix",
    "registry_timeout_seconds", "audit_timeout_seconds", "reply_timeout_seconds",
    "cooldown_max_entries", "cooldown_grace_windows", "cooldown_sweep_interval_seconds",
    "audit_retention_per_tenant"]

/-- The fields of a configuration; no other field may be given. -/
def ofMembers (ms : List (Text × Json)) : Checked Config :=
  let d : Config := {}
  let between (lo hi : Int) := integerIn (some lo) (some hi)
  (fun c _ => c) <$> (Config.mk
    <$> defaulted ms "execution_timeout_seconds" d.timeout
      (numberIn (some maxTimeout) (some minTimeout) none)
    <*> defaulted ms "language_timeouts" [] languageTimeouts?
    <*> defaulted ms "message_deadline_seconds" none
      (optional (numberIn none none (some (.ofInt 0))))
    <*> defaulted ms "max_concurrent_executions" d.maxConcurrent (between 1 256)
    <*> defaulted ms "memory_limit_mb" d.memoryMb (between 32 4096)
    <*> defaulted ms "max_code_bytes" d.maxCodeBytes (between 1 100000)
    <*> defaulted ms "max_output_bytes" d.maxOutputBytes (between 256 1000000)
    <*> defaulted ms "max_error_excerpt_chars" d.maxExcerptChars (between 16 4000)
    <*> defaulted ms "max_reply_chars" d.maxReplyChars (between 16 100000)
    <*> defaulted ms "case_insensitive" d.caseInsensitive flag
    <*> defaulted ms "default_prefix" d.defaultSigil (stringOf 1 (some 16))
    <*> defaulted ms "registry_timeout_seconds" d.registryTimeout minute?
    <*> defaulted ms "audit_timeout_seconds" d.auditTimeout minute?
    <*> defaulted ms "reply_timeout_seconds" d.replyTimeout minute?
    <*> defaulted ms "cooldown_max_entries" d.cooldownMaxEntries (integerIn (some 1) none)
    <*> defaulted ms "cooldown_grace_windows" d.cooldownGraceWindows (between 1 100)
    <*> defaulted ms "cooldown_sweep_interval_seconds" d.sweepInterval
      (numberIn none none (some (.ofInt 0)))
    <*> defaulted ms "audit_retention_per_tenant" d.auditRetention (integerIn (some 1) none))
    <*> noOthers ms fieldNames

/-- Checks a JSON value as a configuration. -/
def check : Check Config := object "EngineConfig" ofMembers

/-- A configuration as a JSON value. -/
def toJson (c : Config) : Json :=
  .record [("execution_timeout_seconds", .real c.timeout),
    ("language_timeouts", .obj (c.languageTimeouts.map fun (l, x) => (text l.name, .real x))),
    ("message_deadline_seconds", .orNull (c.deadline.map .real)),
    ("max_concurrent_executions", .int c.maxConcurrent), ("memory_limit_mb", .int c.memoryMb),
    ("max_code_bytes", .int c.maxCodeBytes), ("max_output_bytes", .int c.maxOutputBytes),
    ("max_error_excerpt_chars", .int c.maxExcerptChars), ("max_reply_chars", .int c.maxReplyChars),
    ("case_insensitive", .bool c.caseInsensitive), ("default_prefix", .str c.defaultSigil),
    ("registry_timeout_seconds", .real c.registryTimeout),
    ("audit_timeout_seconds", .real c.auditTimeout),
    ("reply_timeout_seconds", .real c.replyTimeout),
    ("cooldown_max_entries", .int c.cooldownMaxEntries),
    ("cooldown_grace_windows", .int c.cooldownGraceWindows),
    ("cooldown_sweep_interval_seconds", .real c.sweepInterval),
    ("audit_retention_per_tenant", .int c.auditRetention)]

/-- The timeout of scripts in a language. -/
def timeoutFor (c : Config) (l : Language) : Binary64 :=
  (c.languageTimeouts.lookup l).getD c.timeout

/-- The longest timeout of any language. -/
def longestTimeout (c : Config) : Binary64 :=
  c.languageTimeouts.foldl (fun m (_, x) => if m.lt x then x else m) c.timeout

/-- The deadline of a message in a language, or of any message. -/
def messageDeadline (c : Config) (l : Option Language) : Binary64 :=
  match c.deadline with
  | some d => d
  | none => (l.elim c.longestTimeout c.timeoutFor).add deadlineMargin

end Config

end ChatCommands
