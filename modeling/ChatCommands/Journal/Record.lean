import ChatCommands.Json.Basic

/-!
Log records: a level, the component that writes, a message, and context for the operators.
-/

namespace ChatCommands

/-- The level of a log record. -/
inductive Level
  | debug
  | info
  | warning
  | error
  | critical
  deriving DecidableEq, Repr, Inhabited

namespace Level

/-- Every level, least severe first. -/
def all : List Level := [debug, info, warning, error, critical]

/-- The name of a level. -/
def name : Level → String
  | debug => "DEBUG"
  | info => "INFO"
  | warning => "WARNING"
  | error => "ERROR"
  | critical => "CRITICAL"

/-- The rank of a level. -/
def rank : Level → Int
  | debug => 10
  | info => 20
  | warning => 30
  | error => 40
  | critical => 50

end Level

/-- The components that write log records. -/
inductive Component
  | audit
  | cooldown
  | coordinator
  | cleanup
  | pool
  | review
  | runtime
  | store
  | processIo
  deriving DecidableEq, Repr, Inhabited

/-- The name of a component's log. -/
def Component.name : Component → String
  | audit => "command_engine.audit"
  | cooldown => "command_engine.cooldown"
  | coordinator => "command_engine.coordinator"
  | cleanup => "command_engine.resource_cleanup"
  | pool => "command_engine.runtimes.pool"
  | review => "command_engine.validator"
  | runtime => "command_engine.runtimes.subprocess_runtime"
  | store => "command_engine.stores"
  | processIo => "command_engine.subprocess_utils"

/-- A log record. -/
structure LogRecord where
  level : Level
  component : Component
  message : Text
  context : List (String × Json) := []
  deriving Inhabited

end ChatCommands
