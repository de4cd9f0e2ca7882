import ChatCommands.Fault.Basic
import ChatCommands.Journal.Record
import ChatCommands.Json.Shown
import ChatCommands.Json.Writer
import ChatCommands.Text.Ansi
import ChatCommands.Text.Blank

/-!
Log lines: log records as operators read them.

A line holds the level, the time, the component and the message, and then the context as pairs of a
name and a value.  A value with white space in it is written in JSON, so that it cannot be mistaken
for something else.
-/

namespace ChatCommands.Journal

/-! ### Context -/

/-- A value of the context. -/
def renderValue : Json → Text
  | .arr items => (Json.arr items).write .compact
  | .obj ms => (Json.obj ms).write .compact
  | v =>
    let t := v.plain
    if t.isEmpty || t.any Text.isBlank then (Json.str t).write .compact else t

/-- The names that every record has a meaning of its own for. -/
def reservedNames : List String :=
  ["name", "msg", "args", "levelname", "levelno", "pathname", "filename", "module", "exc_info",
    "exc_text", "stack_info", "lineno", "funcName", "created", "msecs", "relativeCreated", "thread",
    "threadName", "processName", "process", "message", "asctime"]

/-- A reserved name. -/
def isReserved (name : Text) : Bool := reservedNames.any fun r => text r == name

/-- Checks that no name of a context is reserved. -/
def checkContext (context : List (Text × Json)) : Except Fault Unit :=
  match context.find? fun m => isReserved m.1 with
  | some (name, _) =>
    .error (.of .key (text "Attempt to overwrite " ++ Text.quoted name ++ text " in LogRecord"))
  | none => .ok ()

/-- The context of a line; names that begin with an underscore are left out. -/
def renderContext (context : List (Text × Json)) : Text :=
  let shown := context.filter fun m => m.1.head? != some (cp '_') && !isReserved m.1
  Text.join [32] (shown.map fun (name, v) => name ++ text "=" ++ renderValue v)

/-! ### Time -/

/-- A day by year, month and day of the month. -/
structure Day where
  year : Int
  month : Nat
  day : Nat
  deriving DecidableEq, Repr

/-- The day that is `n` days after the first day of 1970.  Years are taken to begin in March, so
that the leap day is the last day of its year, and 400 such years have 146097 days. -/
def Day.ofNumber (n : Int) : Day :=
  let shifted := n + 719468
  let era := shifted.fdiv 146097
  let dayOfEra := (shifted.fmod 146097).toNat
  let yearOfEra := (dayOfEra - dayOfEra / 1460 + dayOfEra / 36524 - dayOfEra / 146096) / 365
  let dayOfYear := dayOfEra - (365 * yearOfEra + yearOfEra / 4 - yearOfEra / 100)
  let march := (5 * dayOfYear + 2) / 153
  let month := if march < 10 then march + 3 else march - 9
  { year := yearOfEra + era * 400 + (if month ≤ 2 then 1 else 0)
    month
    day := dayOfYear - (153 * march + 2) / 5 + 1 }

/-- A number of at least two digits. -/
def twoDigits (n : Nat) : Text := if n < 10 then 48 :: Text.ofNat n else Text.ofNat n

/-- The first and the last second whose year can be written. -/
def writableSeconds : Int × Int := (-67768040609740800, 67768036191676799)

/-- A number of seconds since the beginning of 1970 as a date and a time, if it can be written. -/
def renderTime? (seconds : Int) : Option Text :=
  if seconds < writableSeconds.1 || writableSeconds.2 < seconds then none
  else
    let d := Day.ofNumber (seconds.fdiv 86400)
    let s := (seconds.fmod 86400).toNat
    some (Text.ofInt d.year ++ text "-" ++ twoDigits d.month ++ text "-" ++ twoDigits d.day ++
      text " " ++ twoDigits (s / 3600) ++ text ":" ++ twoDigits (s / 60 % 60) ++ text ":" ++
      twoDigits (s % 60))

/-! ### Lines -/

/-- A line, without its end. -/
def line (time level component message : Text) (context : List (Text × Json)) : Text :=
  let shown := renderContext context
  level ++ text " [" ++ time ++ text "] " ++ component ++ text " - " ++ message ++
    (if shown.isEmpty then [] else 32 :: shown)

/-- A line as it is written where no terminal is. -/
def plainLine (time level component message : Text) (context : List (Text × Json)) : Text :=
  Text.withoutAnsi (line time level component message context) ++ [10]

end ChatCommands.Journal

namespace ChatCommands.LogRecord

/-- A record as a line. -/
def line (r : LogRecord) (time : Text) : Text :=
  Journal.line time (text r.level.name) (text r.component.name) r.message
    (r.context.map fun (n, v) => (text n, v))

end ChatCommands.LogRecord
