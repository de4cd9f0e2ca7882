import ChatCommands.Fault.Basic
import ChatCommands.Journal.Record
import ChatCommands.Json.Shown

/-!
Thresholds: from which level on records are written, and how the log is set up.
-/

namespace ChatCommands.Journal

/-- The names of levels, with the second names that some have. -/
def levelNames : List (String × Int) :=
  Level.all.map (fun l => (l.name, l.rank)) ++ [("NOTSET", 0), ("WARN", 30), ("FATAL", 50)]

/-- A threshold: a rank, and how it was written. -/
structure Threshold where
  rank : Int := 0
  written : Text := text "0"
  deriving DecidableEq, Repr

namespace Threshold

/-- The threshold of a level. -/
def ofLevel (l : Level) : Threshold := ⟨l.rank, Text.ofInt l.rank⟩

/-- The name of a threshold: that of the level of its rank, if there is one. -/
def name (t : Threshold) : Text :=
  match levelNames.find? fun n => n.2 = t.rank with
  | some (n, _) => text n
  | none => text "Level " ++ t.written

/-- Reads a threshold: a rank or the name of a level. -/
def ofJson? : Json → Except Fault Threshold
  | .int i => .ok ⟨i, Text.ofInt i⟩
  | .bool b => .ok ⟨if b then 1 else 0, (Json.bool b).shown⟩
  | .str t =>
    match levelNames.find? fun n => text n.1 == t with
    | some (_, rank) => .ok ⟨rank, Text.ofInt rank⟩
    | none => .error (.of .value (text "Unknown level: " ++ Text.quoted t))
  | v => .error (.of .typeMismatch
      (text "Level not an integer or a valid string: " ++ v.shown))

end Threshold

/-- How the log is set up: its threshold, and how many places it is written to. -/
structure LogSetup where
  threshold : Threshold := {}
  handlers : Nat := 0
  deriving DecidableEq, Repr

/-- Sets the log up: it is written to one place, however often it is set up.  A quiet log holds
errors only; else a threshold that is given counts. -/
def LogSetup.configure (s : LogSetup) (level : Json) (quiet : Bool) :
    LogSetup × Except Fault Unit :=
  let s := { s with handlers := max s.handlers 1 }
  if quiet then ({ s with threshold := .ofLevel .error }, .ok ())
  else
    match level with
    | .null => (s, .ok ())
    | v =>
      match Threshold.ofJson? v with
      | .ok t => ({ s with threshold := t }, .ok ())
      | .error f => (s, .error f)

end ChatCommands.Journal
