import ChatCommands.Cli.Screen
import ChatCommands.Json.Writer
import ChatCommands.Run

/-!
Reports: how results and outcomes are shown, and the exit codes that go with them.

What a script has written goes to the standard output, everything about it to the standard error
output.  In JSON both go to the standard output.
-/

namespace ChatCommands.Cli

/-- The exit code for a command line that is wrong. -/
def usageCode : Nat := 2

/-- The exit code for a message that no command has matched. -/
def noMatchCode : Nat := 3

/-- The exit code for interpreters that are missing. -/
def unavailableCode : Nat := 125

/-- The exit code for a status. -/
def exitCode : Status → Nat
  | .success | .rateLimited => 0
  | .scriptError => 1
  | .timeout => 124
  | .runtimeUnavailable => unavailableCode
  | .securityRejected => 126

/-- An error message: what happened, why, and what to do about it. -/
def formatError (title message : Text) (advice : List Text := []) : Text :=
  let lines := [styled [.red, .bold] (text "Error: " ++ title), [], text "  " ++ message] ++
    (if advice.isEmpty then [] else [[], text "  Suggestions:"] ++ advice.map (text "    • " ++ ·))
  Text.join [10] lines

/-- A text, unless it is missing or empty. -/
def orElse (t : Option Text) (default : String) : Text :=
  match t with
  | some (c :: rest) => c :: rest
  | _ => text default

/-- What is said about a result that is no success. -/
def diagnosis? (r : RunResult) : Option Text :=
  match r.status with
  | .scriptError => some (formatError (text "Script error") (orElse r.summary "the script failed"))
  | .timeout => some (formatError (text "Execution timed out")
      (orElse r.summary "the script did not finish in time")
      [text "Increase timeout with -t/--timeout", text "Check for infinite loops in your code"])
  | .runtimeUnavailable => some (formatError (text "Runtime unavailable")
      (orElse r.summary "the interpreter could not be started")
      [text "Run `command-engine probe` to see which interpreters are installed"])
  | _ => none

/-- Shows a JSON value. -/
def showJson (s : Screen) (v : Json) : Screen := s.printLine (v.write .indented)

/-- The member that tells when a result was made. -/
def stamp (time : Text) : List (String × Json) := [("timestamp", .str time)]

/-- Shows the output of a script. -/
def showOutput (s : Screen) (r : RunResult) : Screen :=
  let s :=
    if r.output.isEmpty then s
    else if r.output.getLast? = some 10 then s.print r.output
    else s.printLine r.output
  if r.truncated then s.reportLine (styled [.yellow] (text "(output truncated)")) else s

/-- Shows a result. -/
def showResult (s : Screen) (json quiet : Bool) (time : Text) (r : RunResult) : Screen :=
  if json then showJson s (r.toJson (stamp time))
  else
    let s := showOutput s r
    match diagnosis? r with
    | some t => s.reportLine t
    | none =>
      if !quiet && s.stdoutTerminal then
        s.reportLine (styled [.green, .dim]
          (text "✓ Done in " ++ Text.ofInt r.durationMs ++ text "ms"))
      else s

/-- Shows an outcome. -/
def showOutcome (s : Screen) (json : Bool) (time : Text) (o : Outcome) : Screen :=
  if json then showJson s (o.toJson (stamp time))
  else
    let s := s.reportLine (styled [.dim] (text "[" ++ o.command ++ text "] " ++
      text o.result.status.name ++ text " (" ++ Text.ofInt o.result.durationMs ++ text "ms)"))
    match o.reply with
    | some (c :: reply) => s.printLine (c :: reply)
    | _ => s

end ChatCommands.Cli
