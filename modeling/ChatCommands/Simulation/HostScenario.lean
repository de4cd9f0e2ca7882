import ChatCommands.Json.Access
import ChatCommands.Sandbox.Execution
import ChatCommands.Simulation.Scenario

/-!
Scenarios of the host: runtimes, processes and files, described in JSON.
-/

namespace ChatCommands.Simulation.Scenario

open Host

/-- Hexadecimal digits as bytes. -/
def bytesOfHex : Text → Bytes
  | a :: b :: rest => (16 * nibble a + nibble b).toUInt8 :: bytesOfHex rest
  | _ => []
where
  /-- The value of one digit. -/
  nibble (c : Nat) : Nat :=
    if Text.isAsciiDigit c then c - 48 else Text.lowerAsciiPoint c - 87

mutual

/-- Bytes: a text, hexadecimal digits, or a list of these. -/
def bytesOf : Json → Bytes
  | .str t => t.flatMap Utf8.encodePoint
  | .arr items => bytesOfItems items
  | .obj ms => bytesOfHex ((Json.obj ms).textAt "hex")
  | _ => []

/-- The bytes of all items. -/
def bytesOfItems : List Json → Bytes
  | [] => []
  | v :: rest => bytesOf v ++ bytesOfItems rest

end

/-- A runtime. -/
def runtimeOf (v : Json) (runners : Text) : Except Fault Sandbox.Runtime := do
  let options := v.get "options"
  return { language := ← languageOf (v.get "language")
           binary := v.textAt "binary" "bin"
           wrapper := options.textsAt "sandbox_wrapper"
           maxOutputBytes := options.intAt "max_output_bytes" 10000
           maxExcerptChars := options.intAt "max_error_excerpt_chars" 300
           memoryMb := options.intAt "memory_limit_mb" 256
           cacheDir := .ofText (v.textAt "cache_dir" "/cache/go-build")
           runners := .ofText runners }

/-- The kinds of faults that the system raises without a message. -/
def systemKinds : List FaultKind :=
  [.processLookup, .permission, .brokenPipe, .connectionReset, .fileNotFound, .os, .runtime, .value,
    .timeout, .key]

/-- A fault of the system, by the name of its kind. -/
def systemFaultOf (v : Json) : Option Fault :=
  v.text?.bind fun name => (systemKinds.find? fun k => text k.name == name).map fun k => .of k []

/-- Resources by their names. -/
def resourcesOf (names : List Text) : List Resource :=
  names.filterMap fun n => Resource.all.find? fun r => text r.name == n

/-- The behaviour of a process. -/
def behaviourOf (v : Json) : Behaviour where
  startError := (v.field? "spawn_error").map fun e =>
    ⟨(e.get "errno").int?.map Int.toNat, e.textAt "message"⟩
  refusedLimits := resourcesOf (v.textsAt "refuse_limits")
  leaves := (v.textsAt "leaves_files").map fun t => (Path.ofText t).names
  stdin := if v.flagAt "no_stdin" then none
    else some { fault := systemFaultOf (v.get "stdin_error") }
  stdout := { chunks := [(0, bytesOf (v.get "stdout"))] }
  stderr := { chunks := [(0, bytesOf (v.get "stderr"))] }
  exitAfter := if v.flagAt "hang" then none else some (v.ratAt "delay")
  exitCode := (v.get "returncode").int?.getD (v.intAt "exit_code")
  gone := (v.get "returncode").int?.isSome
  survival := if v.flagAt "unkillable" then none else some 0
  killFault := systemFaultOf (v.get "kill_error")

/-- What the process table tells about a process with a number other than zero. -/
def tableEntryOf (pid : Nat) (v : Json) : Option TableEntry :=
  let refused (name : String) : Bool := !(v.get name).isNull
  if pid = 0 then none
  else some {
    pid
    watched := !refused "psutil_error"
    running := if refused "running_error" then none else some (v.flagAt "running" true)
    descendants := if refused "children_error" then none
      else some ((v.itemsAt "children").map fun c => c.natAt "pid")
    group := match systemFaultOf (v.get "pgid") with
      | some f => .error f
      | none => .ok (v.natAt "pgid")
    groupKill := match systemFaultOf (v.get "killpg_error") with
      | some f => .error f
      | none => .ok (v.flagAt "killpg_works") }

end ChatCommands.Simulation.Scenario
