import ChatCommands.Cli.Program
import ChatCommands.Journal.Line
import Std.Time.DateTime.Timestamp

/-!
The command line program: it looks at the host, lets the program work on what it has seen, and
writes the outcome.

No process is started: each attempt to start one fails as not permitted, so that a script which
passes the review ends as one whose interpreter could not be started.
-/

namespace ChatCommands.Main

open Cli

/-- The environment variables that matter. -/
def variableNames : List String :=
  ["HOME", "XDG_CACHE_HOME", "COMMAND_ENGINE_CACHE_DIR", "COMMAND_ENGINE_NODE_BIN",
    "COMMAND_ENGINE_PYTHON_BIN", "COMMAND_ENGINE_GO_BIN", "COMMAND_ENGINE_SCRATCH_DIR",
    "COMMAND_ENGINE_GO_CACHE_DIR", "COMMAND_ENGINE_SANDBOX_WRAPPER"]

/-- The environment, as far as it matters. -/
def readEnvironment : IO Environment :=
  variableNames.filterMapM fun n => do
    return (← IO.getEnv n).map fun t => (text n, text t)

/-- The content of a file, if it can be read. -/
def contentOf? (name : String) : IO (Option Bytes) := do
  try return some (← IO.FS.readBinFile name).toList
  catch _ => return none

/-- A file system with the files that are named, in the working directory. -/
def readFiles (names : List String) : IO Host.FileSystem := do
  let mut fs : Host.FileSystem := { tree := .directory false false [(text "tmp", .emptyDirectory)] }
  for name in names do
    if let some content ← contentOf? name then
      let path := Host.Path.ofText (text name)
      match fs.makeDirectories path.root path.parent.names.reverse with
      | .ok made =>
        match made.tree.create (made.locate path) (.file false content) with
        | .ok tree => fs := { made with tree }
        | .error _ => pure ()
      | .error _ => pure ()
  return fs

/-- The program is found in one of the directories for programs. -/
def isInstalled (program : Text) : IO Bool := do
  let path := (← IO.getEnv "PATH").getD ""
  for directory in path.splitOn ":" do
    let name := directory ++ "/" ++ program.toString
    try
      let _ ← IO.FS.Handle.mk name .read
      return true
    catch _ => pure ()
  return false

/-- The host, as far as a command line can tell. -/
def readHost (names : List String) (env : Environment) : IO Host := do
  let programs := match Settings.ofEnvironment env with
    | .ok s => Language.all.map (Sandbox.binaryOf s)
    | .error _ => []
  return {
    files := ← readFiles names
    installed := ← programs.filterM isInstalled
    behaviour := fun _ => { startError := some ⟨some 1, text "Operation not permitted"⟩ } }

/-- Everything that comes in on the standard input. -/
def readInput (stdin : IO.FS.Stream) : IO Input := do
  if ← stdin.isTty then return { terminal := true }
  let mut content := []
  repeat
    let line ← stdin.getLine
    if line.isEmpty then break
    content := content ++ text line
  return { content }

/-- What a call of the program has written to the standard error output, after its log. -/
def errorOutput (f : Finished) (time : Text) : Text :=
  let log := f.shownRecords.flatMap fun r => r.line time ++ [10]
  let fault := (f.fault.map fun e => text e.kind.name ++ text ": " ++ e.wording ++ [10]).getD []
  log ++ f.screen.stderr ++ fault

/-- Calls the program. -/
def run (arguments : List String) : IO UInt32 := do
  let stdout ← IO.getStdout
  let stderr ← IO.getStderr
  let environment ← readEnvironment
  let host ← readHost arguments environment
  let input ← if arguments.contains "-" then readInput (← IO.getStdin) else pure {}
  let seconds := (← Std.Time.Timestamp.now).toSecondsSinceUnixEpoch.val
  let time := (Journal.renderTime? seconds).getD []
  let screen : Screen := { stdoutTerminal := ← stdout.isTty, stderrTerminal := ← stderr.isTty }
  let f := Invocation.finish
    { arguments := arguments.map text, environment, host, input, screen, time }
  stdout.putStr f.screen.stdout.toString
  stderr.putStr (errorOutput f time).toString
  return f.exitCode.toUInt32

end ChatCommands.Main

/-- The entry of the program. -/
def main (arguments : List String) : IO UInt32 := ChatCommands.Main.run arguments
