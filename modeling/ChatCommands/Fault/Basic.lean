import ChatCommands.Schema.Issue
import ChatCommands.Text.Quoted

/-!
Faults: what the engine and its collaborators report instead of an answer.

A fault has a kind, a message and a context for the operators.  Kinds form a hierarchy: of the
engine's own faults, transient ones may go away when the call is repeated and permanent ones will
not.
-/

namespace ChatCommands

/-- The kinds of faults. -/
inductive FaultKind
  | engine
  | transient
  | permanent
  | registryUnavailable
  | auditSink
  | replySink
  | runtimeUnavailable
  | unsupportedLanguage
  | timeout
  | value
  | key
  | noAttribute
  | typeMismatch
  | index
  | zeroDivision
  | runtime
  | os
  | fileNotFound
  | fileExists
  | isADirectory
  | notADirectory
  | permission
  | processLookup
  | brokenPipe
  | connectionReset
  | undecodable
  | unencodable
  | malformedJson
  | invalid
  | importRefused
  | usage
  | settings
  | group
  deriving DecidableEq, Repr, Inhabited

namespace FaultKind

/-- The name of a kind, as log records and summaries give it. -/
def name : FaultKind → String
  | engine => "EngineError"
  | transient => "TransientError"
  | permanent => "PermanentError"
  | registryUnavailable => "RegistryUnavailableError"
  | auditSink => "AuditSinkError"
  | replySink => "ReplySinkError"
  | runtimeUnavailable => "RuntimeUnavailableError"
  | unsupportedLanguage => "UnsupportedLanguageError"
  | timeout => "TimeoutError"
  | value => "ValueError"
  | key => "KeyError"
  | noAttribute => "AttributeError"
  | typeMismatch => "TypeError"
  | index => "IndexError"
  | zeroDivision => "ZeroDivisionError"
  | runtime => "RuntimeError"
  | os => "OSError"
  | fileNotFound => "FileNotFoundError"
  | fileExists => "FileExistsError"
  | isADirectory => "IsADirectoryError"
  | notADirectory => "NotADirectoryError"
  | permission => "PermissionError"
  | processLookup => "ProcessLookupError"
  | brokenPipe => "BrokenPipeError"
  | connectionReset => "ConnectionResetError"
  | undecodable => "UnicodeDecodeError"
  | unencodable => "UnicodeEncodeError"
  | malformedJson => "JSONDecodeError"
  | invalid => "ValidationError"
  | importRefused => "ImportError"
  | usage => "UsageError"
  | settings => "SettingsError"
  | group => "ExceptionGroup"

/-- The kinds that a test double or an operator may ask for by name. -/
def named : List FaultKind :=
  [engine, transient, permanent, registryUnavailable, auditSink, replySink, runtimeUnavailable,
    unsupportedLanguage, timeout, value, key, runtime, os]

/-- The kind of a name. -/
def ofName? (t : Text) : Option FaultKind := named.find? fun k => text k.name == t

/-- Repeating the call may help. -/
def isTransient : FaultKind → Bool
  | transient | registryUnavailable | auditSink | replySink => true
  | _ => false

/-- Repeating the call will not help. -/
def isPermanent : FaultKind → Bool
  | permanent | runtimeUnavailable | unsupportedLanguage => true
  | _ => false

/-- Nobody reads what was to be written. -/
def isClosedPipe : FaultKind → Bool
  | brokenPipe | connectionReset => true
  | _ => false

/-- The operating system refused an operation. -/
def isOs : FaultKind → Bool
  | os | fileNotFound | fileExists | isADirectory | notADirectory | permission | processLookup
  | brokenPipe | connectionReset => true
  | _ => false

/-- A kind of the engine's own. -/
def isEngine (k : FaultKind) : Bool := k == engine || k.isTransient || k.isPermanent

/-- A delivery that failed in this way is tried again. -/
def isRetryable (k : FaultKind) : Bool := k.isTransient || k == timeout

end FaultKind

/-- A fault.  `issues` holds what a schema check found, where that is the fault or its cause. -/
structure Fault where
  kind : FaultKind
  message : Text := []
  context : List (Text × Json) := []
  issues : List Schema.Issue := []
  deriving Inhabited

namespace Fault

/-- A fault without context. -/
def of (kind : FaultKind) (message : Text) : Fault := { kind, message }

/-- The wording of a fault; a missing key is shown in quotes. -/
def wording (f : Fault) : Text := if f.kind = .key then Text.quoted f.message else f.message

/-- What a schema check found. -/
def invalid (issues : List Schema.Issue) : Fault := { kind := .invalid, issues }

/-- A text that has no bytes: the first run of surrogates in it is reported. -/
def unencodable (t : Text) : Fault :=
  let start := (t.takeWhile fun c => !Text.isSurrogate c).length
  let run := (t.drop start).takeWhile Text.isSurrogate
  let place :=
    match run with
    | [c] =>
      text "character '\\u" ++ Text.ofHex 4 c ++ text "' in position " ++ Text.ofNat start
    | _ =>
      text "characters in position " ++ Text.ofNat start ++ text "-" ++
        Text.ofNat (start + run.length - 1)
  .of .unencodable (text "'utf-8' codec can't encode " ++ place ++ text ": surrogates not allowed")

/-- An interpreter that cannot be started: its name joins the context unless the context has one. -/
def runtimeUnavailable (message binary : Text) (context : List (Text × Json) := []) : Fault where
  kind := .runtimeUnavailable
  message
  context :=
    if (Json.member? (text "binary") context).isSome then context
    else Json.setMember (text "binary") (.str binary) context

end Fault

/-- The value that a check accepts, or its issues as a fault. -/
def Schema.Checked.orFault {α : Type} : Schema.Checked α → Except Fault α
  | .ok a => .ok a
  | .issues is => .error (.invalid is)

end ChatCommands
