import ChatCommands.Host.Process
import ChatCommands.Language
import ChatCommands.Number.Binary64
import ChatCommands.Text.Quoted
import ChatCommands.Text.Word

/-!
Runtimes: how the scripts of each language are run.

A runtime starts an interpreter on a script in its scratch directory, with an environment that takes
nothing from the host and with limits on what the process may use.
-/

namespace ChatCommands

namespace Language

/-- The name of a script's file. -/
def scriptName : Language → Text
  | javascript => text "script.js"
  | python => text "script.py"
  | go => text "main.go"

/-- What the program that runs the scripts is called. -/
def programName : Language → Text
  | javascript => text "node"
  | python => text "python"
  | go => text "go"

/-- The exit code of a script whose time was up, where the interpreter watches the time itself. -/
def deadlineCode? : Language → Option Int
  | javascript => some 124
  | _ => none

end Language

namespace Sandbox

open Host

/-- A runtime and its settings. -/
structure Runtime where
  language : Language
  /-- The interpreter: a path, or a name to be looked for. -/
  binary : Text
  /-- The parent of the scratch directories, if it is not the host's own for temporary files. -/
  scratchRoot : Option Path := none
  /-- What is put before every command line. -/
  wrapper : List Text := []
  maxOutputBytes : Int := 10000
  maxExcerptChars : Int := 300
  memoryMb : Int := 256
  /-- Where compiled packages are kept from one run to the next. -/
  cacheDir : Path := .ofText (text "/cache/go-build")
  /-- Where the programs are that run a script inside its interpreter. -/
  runners : Path := .ofText (text "/usr/lib/chat-commands/runners")
  deriving Inhabited

namespace Runtime

/-- The class of a runtime, as diagnostics name it. -/
def className : Language → String
  | .javascript => "JavaScriptRuntime"
  | .python => "PythonRuntime"
  | .go => "GoRuntime"

/-- A runtime in the notation of diagnostics. -/
def shown (r : Runtime) : Text :=
  text (className r.language) ++ text "(binary=" ++ Text.quoted r.binary ++ text ")"

/-- A timeout in whole milliseconds. -/
def milliseconds (timeout : Binary64) : Int := (Binary64.ofRat (timeout.toRat * 1000)).truncate

/-- The arguments of the interpreter. -/
def arguments (r : Runtime) (script : Path) (timeout : Binary64) : List Text :=
  match r.language with
  | .python =>
    [text "-I", text "-S", text "-B", (r.runners.child (text "python_runner.py")).toText,
      script.toText]
  | .javascript =>
    [text "--max-old-space-size=" ++ Text.ofInt r.memoryMb,
      text "--disallow-code-generation-from-strings",
      (r.runners.child (text "javascript_runner.js")).toText, script.toText,
      Text.ofInt (milliseconds timeout)]
  | .go => [text "run", script.toText]

/-- The environment that every interpreter gets. -/
def baseEnvironment (scratch : Path) : List (String × Text) :=
  [("PATH", text "/usr/local/bin:/usr/bin:/bin"), ("HOME", scratch.toText),
    ("TMPDIR", scratch.toText), ("LANG", text "C.UTF-8"), ("LC_ALL", text "C.UTF-8")]

/-- The environment of the interpreter. -/
def environment (r : Runtime) (scratch : Path) : List (String × Text) :=
  baseEnvironment scratch ++
    match r.language with
    | .python => [("PYTHONIOENCODING", text "utf-8"), ("PYTHONDONTWRITEBYTECODE", text "1")]
    | .javascript => []
    | .go =>
      [("GOCACHE", r.cacheDir.toText), ("GOPATH", (scratch.child (text "gopath")).toText),
        ("GOTMPDIR", scratch.toText), ("GOFLAGS", text "-buildvcs=false"),
        ("GOTOOLCHAIN", text "local"), ("GOPROXY", text "off"), ("GOWORK", text "off"),
        ("CGO_ENABLED", text "0")]

/-- The processor time that a script may use: its timeout in whole seconds and one more. -/
def cpuSeconds (timeout : Binary64) : Int := timeout.toRat.ceil + 1

/-- The limits of the interpreter.  Only one of the languages can live with a bounded address space
and without writing files. -/
def limits (r : Runtime) (timeout : Binary64) : List Limit :=
  let cpu := cpuSeconds timeout
  [⟨.core, 0, 0⟩, ⟨.cpu, cpu, cpu + 1⟩] ++
    match r.language with
    | .python =>
      let memory := r.memoryMb * 1024 * 1024
      [⟨.addressSpace, memory, memory⟩, ⟨.fileSize, 0, 0⟩]
    | _ => []

/-- A line that the toolchain writes about itself. -/
def isNoise (line : Text) : Bool :=
  let line := if line.getLast? = some 10 then line.dropLast else line
  line == text "# command-line-arguments" ||
    match Text.dropStart? (text "exit status ") line with
    | some code => !code.isEmpty && code.all Text.isDigit
    | none => false

/-- The lines of a script's diagnostics without those that the toolchain writes about itself. -/
def withoutNoise (l : Language) (lines : List Text) : List Text :=
  match l with
  | .go => lines.filter fun line => !isNoise line
  | _ => lines

end Runtime

end Sandbox

end ChatCommands
