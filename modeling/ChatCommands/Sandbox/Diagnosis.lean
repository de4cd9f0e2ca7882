import ChatCommands.Run
import ChatCommands.Sandbox.Capture
import ChatCommands.Sandbox.Runtime
import ChatCommands.Text.Blank

/-!
Diagnoses: what the exit code and the output of a script say about the run.
-/

namespace ChatCommands.Sandbox

open Host

/-! ### The signals that end a process -/

/-- The names of the signals from number 1 on. -/
def signalNames : List String :=
  ["SIGHUP", "SIGINT", "SIGQUIT", "SIGILL", "SIGTRAP", "SIGABRT", "SIGBUS", "SIGFPE", "SIGKILL",
    "SIGUSR1", "SIGSEGV", "SIGUSR2", "SIGPIPE", "SIGALRM", "SIGTERM", "SIGSTKFLT", "SIGCHLD",
    "SIGCONT", "SIGSTOP", "SIGTSTP", "SIGTTIN", "SIGTTOU", "SIGURG", "SIGXCPU", "SIGXFSZ",
    "SIGVTALRM", "SIGPROF", "SIGWINCH", "SIGIO", "SIGPWR", "SIGSYS"]

/-- The name of a signal, if it has one: of the real-time signals only the first and the last do. -/
def signalName? (n : Nat) : Option String :=
  match n with
  | 0 => none
  | 34 => some "SIGRTMIN"
  | 64 => some "SIGRTMAX"
  | n + 1 => signalNames[n]?

/-- The signal that nothing survives. -/
def killSignal : Nat := 9

/-- The signal for too much processor time. -/
def cpuSignal : Nat := 24

/-! ### What a script says of itself -/

/-- What stands for the script and its directory in an excerpt. -/
def scriptPlaceholder : Text := text "<script>"

/-- The texts that an excerpt does not show, in the order in which they are looked for. -/
def hiddenPaths (r : Runtime) (scratch : Path) : List Text :=
  [(scratch.child r.language.scriptName).toText, text "./" ++ r.language.scriptName, scratch.toText]

/-- The text with every hidden path replaced. -/
def hidePaths (r : Runtime) (scratch : Path) (t : Text) : Text :=
  (hiddenPaths r scratch).foldl (fun t path => Text.replaceAll path scriptPlaceholder t) t

/-- The lines of a script's diagnostics that tell something. -/
def tellingLines (r : Runtime) (scratch : Path) (stderr : Bytes) : List Text :=
  let lines := (Text.lines (hidePaths r scratch (Utf8.decodeLossy stderr))).filter fun line =>
    !Text.isBlankText line
  Runtime.withoutNoise r.language (lines.map Text.stripEnd)

/-- The text up to the index `n`; a negative index counts from the end. -/
def upTo (n : Int) (t : Text) : Text :=
  if 0 ≤ n then t.take n.toNat else t.take (t.length + n).toNat

/-- A text of at most `limit` code points: a longer one is cut, and dots say so. -/
def shortened (limit : Int) (t : Text) : Text :=
  if limit < t.length then Text.stripEnd (upTo (limit - 3) t) ++ text "..." else t

/-- An excerpt of a script's diagnostics, if they tell anything. -/
def excerpt? (r : Runtime) (scratch : Path) (stderr : Bytes) : Option Text :=
  match tellingLines r scratch stderr with
  | [] => none
  | lines => some (shortened r.maxExcerptChars (Text.join [10] lines))

/-! ### Verdicts -/

/-- The exit code says that the time of the script was up. -/
def isDeadlineCode (l : Language) (code : Int) : Bool :=
  code = -(cpuSignal : Int) || some code == l.deadlineCode?

/-- What ended a process with a negative exit code. -/
def terminationSummary (code : Int) : Text :=
  let signal := (-code).toNat
  match signalName? signal with
  | some name => text "Terminated by " ++ text name
  | none => text "Terminated by signal " ++ Text.ofNat signal

/-- What is said about a script that ended with a positive exit code. -/
def failureSummary (r : Runtime) (scratch : Path) (stderr : Bytes) (code : Int) : Text :=
  match excerpt? r scratch stderr with
  | some t => if t.isEmpty then text "Exited with status " ++ Text.ofInt code else t
  | none => text "Exited with status " ++ Text.ofInt code

/-- The result of a run whose process has ended. -/
def diagnose (r : Runtime) (scratch : Path) (code : Int) (stdout stderr : Capture) : RunResult :=
  let output := Utf8.decodeLossy stdout.data
  if code = 0 then
    { status := .success, output, truncated := stdout.truncated, exitCode := some 0 }
  else
    let (status, summary) :=
      if isDeadlineCode r.language code then (Status.timeout, text "Execution time limit exceeded")
      else if code < 0 then (.scriptError, terminationSummary code)
      else (.scriptError, failureSummary r scratch stderr.data code)
    { status, output, truncated := stdout.truncated, summary := some summary,
      exitCode := some code }

end ChatCommands.Sandbox
