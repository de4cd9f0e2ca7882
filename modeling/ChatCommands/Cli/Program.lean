import ChatCommands.Cli.Commands
import ChatCommands.Cli.Desk
import ChatCommands.Cli.Report
import ChatCommands.Cli.Source

/-!
The program: from a command line to what is written and the exit code.
-/

namespace ChatCommands.Cli

open Host

/-- What the program is called with. -/
structure Invocation where
  arguments : List Text
  environment : Environment := []
  host : Host := {}
  input : Input := {}
  screen : Screen := {}
  /-- When it is called, as results tell it. -/
  time : Text := []

/-- What came of a call of the program. -/
structure Finished where
  exitCode : Nat
  screen : Screen
  host : Host
  journal : List LogRecord := []
  /-- The level from which on the log was to be shown, and whether only errors were. -/
  logging : Option (Level × Bool) := none
  /-- The fault that ended the program. -/
  fault : Option Fault := none

/-- The log records that were to be shown. -/
def Finished.shownRecords (f : Finished) : List LogRecord :=
  match f.logging with
  | none => []
  | some (level, quiet) =>
    let least := if quiet then Level.error else level
    f.journal.filter fun r => least.rank ≤ r.level.rank

namespace Invocation

/-- The program has ended without having done anything. -/
def ended (i : Invocation) (exitCode : Nat) (screen : Screen) (fault : Option Fault := none) :
    Finished :=
  { exitCode, screen, host := i.host, fault }

/-- The program stops. -/
def stopped (i : Invocation) : Stop → Finished
  | .usage help message =>
    i.ended usageCode ((i.screen.report ((help.map fun g => g.usage ++ [10]).getD [])).reportLine
      (text "Error: " ++ message))
  | .page content => i.ended 0 (i.screen.print content)
  | .fault f => i.ended 1 i.screen (some f)

/-- The stop for a fault in a command; a complaint about the command line is one about its usage. -/
def stopFor (c : Command) (f : Fault) : Stop :=
  if f.kind = .usage then .usage (some c.grammar) f.message else .fault f

/-- The program ends with an answer, or with the fault in its place. -/
def conclude {α : Type} (i : Invocation) (c : Desk.Completed α) (present : Screen → α → Screen)
    (code : α → Nat) : Finished :=
  match c.answer with
  | .ok a =>
    { exitCode := code a, screen := present i.screen a, host := c.host, journal := c.journal }
  | .error f =>
    { exitCode := 1, screen := i.screen, host := c.host, journal := c.journal, fault := some f }

/-! ### Running a script -/

/-- Shows the result of a snippet. -/
def showSnippet (i : Invocation) (json quiet : Bool) (s : Screen) (r : RunResult) : Screen :=
  if r.status = .securityRejected && !json then
    s.reportLine (formatError (text "Code rejected") (orElse r.summary "disallowed construct"))
  else showResult s json quiet i.time r

/-- Reviews a script and runs it. -/
def run (i : Invocation) (v : Grammar.Values) (quiet : Bool) : Except Fault Finished := do
  let source := v.text? "SOURCE"
  let code ← readSource i.host.files i.input source (v.text? "code")
  let language := (v.language? "language").getD ((languageOf? source).getD .python)
  let timeout := (v.number? "timeout").getD ({} : Config).timeout
  let config ← snippetConfig timeout
  let run := runSnippet config (Desk.runtimes i.environment config) code language timeout
    ((v.text? "message").getD [])
  return i.conclude (Desk.complete i.host config.maxConcurrent run)
    (i.showSnippet (v.has "json") quiet) fun r => exitCode r.status

/-! ### Feeding messages -/

/-- Shows the outcome of a message, if a command has matched it. -/
def showMatch (i : Invocation) (json : Bool) (s : Screen) : Option Outcome → Screen
  | some o => showOutcome s json i.time o
  | none => s.reportLine (styled [.yellow] (text "No command matched"))

/-- The exit code for the outcome of a message. -/
def matchCode : Option Outcome → Nat
  | some o => exitCode o.result.status
  | none => noMatchCode

/-- The message that the values describe. -/
def messageOf (v : Grammar.Values) : Message where
  tenant := (v.text? "tenant").getD (text "local")
  author := (v.text? "author").getD (text "user")
  roles := Text.sortedSet (v.texts "role")
  channel := (v.text? "channel").getD (text "general")
  content := (v.text? "TEXT").getD []

/-- Feeds a message to an engine, and again as often as is asked for.  The last outcome decides. -/
def simulate (i : Invocation) (v : Grammar.Values) : Except Fault Finished := do
  let path := (v.path? "COMMANDS_FILE").getD {}
  let times := ((v.whole? "repeat").getD 1).toNat
  let runtimes ← Desk.runtimes i.environment {}
  let fed := feed (Desk.engine runtimes path) (messageOf v) times
  return i.conclude (Desk.complete i.host ({} : Config).maxConcurrent fed)
    (fun s outcomes => outcomes.foldl (i.showMatch (v.has "json")) s)
    fun outcomes => (outcomes.getLast?.map matchCode).getD 0

/-! ### Probing -/

/-- Shows whether the interpreter of a language is there. -/
def showProbe (settings : Settings) (s : Screen) (found : Language × Bool) : Screen :=
  let (l, ok) := found
  let mark := if ok then styled [.green] (text "✓") else styled [.red] (text "✗")
  let name := text l.name
  s.printLine (mark ++ text " " ++ name ++ List.replicate (11 - name.length) 32 ++ text " " ++
    Sandbox.binaryOf settings l)

/-- Tells which interpreters are there. -/
def probe (i : Invocation) (v : Grammar.Values) : Except Fault Finished := do
  let settings ← Settings.ofEnvironment i.environment
  let config : Config := {}
  let probed := Sandbox.probeAll Desk.hostPart (Sandbox.standard settings config)
  return i.conclude (Desk.complete i.host config.maxConcurrent probed)
    (fun s found =>
      if v.has "json" then showJson s (.record (found.map fun (l, ok) => (l.name, .bool ok)))
      else found.foldl (showProbe settings) s)
    fun found => if found.all (·.2) then 0 else unavailableCode

/-! ### The program -/

/-- Carries a command out. -/
def carryOut (i : Invocation) (c : Command) (words : List Text) (quiet : Bool) : Finished :=
  match c.grammar.read i.host.files words with
  | .error s => i.stopped s
  | .ok v =>
    let finished := match c with
      | .run => i.run v quiet
      | .simulate => i.simulate v
      | .probe => i.probe v
    match finished with
    | .ok f => f
    | .error f => i.stopped (stopFor c f)

/-- The stop for a word that calls no command.
One that looks like an option is read as one first. -/
def noSuchCommand (i : Invocation) (word : Text) (rest : List Text) : Stop :=
  let unknown : Stop :=
    .usage (some mainGrammar) (text "No such command " ++ Text.quoted word ++ text ".")
  match word with
  | [] => unknown
  | c :: _ =>
    if c = cp '-' then
      match mainGrammar.read i.host.files (word :: rest) with
      | .error s => s
      | .ok _ => unknown
    else unknown

/-- Runs the program. -/
def finish (i : Invocation) : Finished :=
  if i.arguments.isEmpty then i.ended usageCode (i.screen.report (text mainPage))
  else
    match mainGrammar.read i.host.files i.arguments with
    | .error s => i.stopped s
    | .ok v =>
      match v.call with
      | [] => i.stopped (.usage (some mainGrammar) (text "Missing command."))
      | word :: rest =>
        match Command.ofName? word with
        | none => i.stopped (i.noSuchCommand word rest)
        | some c =>
          let quiet := v.has "quiet"
          { i.carryOut c rest quiet with
            logging := some (if v.has "verbose" then .debug else .warning, quiet) }

end Invocation

end ChatCommands.Cli
