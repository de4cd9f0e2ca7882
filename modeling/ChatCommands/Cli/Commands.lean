import ChatCommands.Cli.Grammar
import ChatCommands.Config

/-!
The commands of the command line: their grammars and their pages of help.
-/

namespace ChatCommands.Cli

/-! ### Pages -/

/-- The help of the program. -/
def mainPage : String :=
"Usage: command-engine [OPTIONS] COMMAND [ARGS]...

  Run untrusted custom-command scripts the way the chat bot does.

Options:
  -v, --verbose  Show debug logs
  -q, --quiet    Only show errors
  -V, --version  Show the version and exit.
  -h, --help     Show this message and exit.

Commands:
  probe     Report which language interpreters are installed.
  run       Validate and run a script.
  simulate  Feed a message through the full pipeline against COMMANDS_FILE.
"

/-- The help of `run`. -/
def runPage : String :=
"Usage: command-engine run [OPTIONS] [SOURCE]

  Validate and run a script.

  SOURCE can be inline code, a file path, or \"-\" for stdin. Language is auto-
  detected from the file extension and defaults to Python.

  Examples:

    command-engine run \"reply('pong')\"
    command-engine run -l javascript \"reply(message.content)\" -m hello
    command-engine run main.go -t 10

Options:
  -l, --language [javascript|python|go]
                                  Script language (auto-detected from file
                                  extension)
  -c, --code TEXT                 Code to execute (alternative to SOURCE)
  -t, --timeout FLOAT RANGE       Timeout in seconds  [default: 3.0;
                                  0.1<=x<=30.0]
  -m, --message TEXT              Message text exposed to the script
  --json                          Output as JSON
  -h, --help                      Show this message and exit.
"

/-- The help of `simulate`. -/
def simulatePage : String :=
"Usage: command-engine simulate [OPTIONS] COMMANDS_FILE TEXT

  Feed a message through the full pipeline against COMMANDS_FILE.

  COMMANDS_FILE is JSON: \x7b\"prefixes\": \x7b...\x7d, \"commands\": [...]\x7d or a bare list of
  commands.

Options:
  --tenant TEXT                Tenant (guild) id  [default: local]
  --author TEXT                Author id  [default: user]
  --channel TEXT               Channel id  [default: general]
  -r, --role TEXT              Author role (repeatable)
  -n, --repeat INTEGER RANGE   Send the message N times  [default: 1;
                               1<=x<=100]
  --json                       Output as JSON
  -h, --help                   Show this message and exit.
"

/-- The help of `probe`. -/
def probePage : String :=
"Usage: command-engine probe [OPTIONS]

  Report which language interpreters are installed.

Options:
  --json      Output as JSON
  -h, --help  Show this message and exit.
"

/-- The version of the program. -/
def versionPage : String := "command-engine, version 0.1.0\n"

/-! ### Grammars -/

/-- The option that shows a page of help. -/
def helpOption (content : String) : Choice :=
  { name := "help", spellings := ["-h", "--help"], kind := .page content }

/-- The option for output in JSON. -/
def jsonOption : Choice := { name := "json", spellings := ["--json"], kind := .mark }

/-- The grammar of the program. -/
def mainGrammar : Grammar where
  call := "command-engine"
  callsOthers := true
  options := [
    { name := "verbose", spellings := ["-v", "--verbose"], kind := .mark },
    { name := "quiet", spellings := ["-q", "--quiet"], kind := .mark },
    { name := "version", spellings := ["-V", "--version"], kind := .page versionPage },
    helpOption mainPage]

/-- The grammar of `run`. -/
def runGrammar : Grammar where
  call := "command-engine run"
  arguments := [{ name := "SOURCE", required := false }]
  options := [
    { name := "language", spellings := ["-l", "--language"], kind := .language },
    { name := "code", spellings := ["-c", "--code"] },
    { name := "timeout", spellings := ["-t", "--timeout"]
      kind := .number Config.minTimeout Config.maxTimeout },
    { name := "message", spellings := ["-m", "--message"] },
    jsonOption, helpOption runPage]

/-- The grammar of `simulate`. -/
def simulateGrammar : Grammar where
  call := "command-engine simulate"
  arguments := [{ name := "COMMANDS_FILE", kind := .file }, { name := "TEXT" }]
  options := [
    { name := "tenant", spellings := ["--tenant"] },
    { name := "author", spellings := ["--author"] },
    { name := "channel", spellings := ["--channel"] },
    { name := "role", spellings := ["-r", "--role"], repeated := true },
    { name := "repeat", spellings := ["-n", "--repeat"], kind := .whole 1 100 },
    jsonOption, helpOption simulatePage]

/-- The grammar of `probe`. -/
def probeGrammar : Grammar where
  call := "command-engine probe"
  options := [jsonOption, helpOption probePage]

/-- A command. -/
inductive Command
  | run
  | simulate
  | probe
  deriving DecidableEq, Repr

namespace Command

/-- Every command. -/
def all : List Command := [run, simulate, probe]

/-- The word that calls a command. -/
def name : Command → String
  | run => "run"
  | simulate => "simulate"
  | probe => "probe"

/-- The command that a word calls. -/
def ofName? (t : Text) : Option Command := all.find? fun c => text c.name == t

/-- The grammar of a command. -/
def grammar : Command → Grammar
  | run => runGrammar
  | simulate => simulateGrammar
  | probe => probeGrammar

end Command

end ChatCommands.Cli
