import ChatCommands.Fault.Basic
import ChatCommands.Host.Path
import ChatCommands.Json.Reader
import ChatCommands.Schema.Field

/-!
Settings of a host, from its environment variables.

Every setting has a variable whose name begins with `COMMAND_ENGINE_`, in any case.  The directory
for what is kept between runs has variables of its own, in exactly their case.
-/

namespace ChatCommands

open Schema Host

/-- The environment variables of a process, in order. -/
abbrev Environment := List (Text × Text)

namespace Environment

/-- The value of the variable of exactly this name. -/
def value? (env : Environment) (name : String) : Option Text := env.lookup (text name)

/-- The value of a variable, unless it is empty. -/
def nonEmpty? (env : Environment) (name : String) : Option Text :=
  (env.value? name).filter (!·.isEmpty)

/-- The home directory. -/
def home (env : Environment) : Except Fault Path :=
  let written := Text.stripEndOf (· == Path.separator) ((env.value? "HOME").getD [])
  if written.head? = some (cp '~') then
    .error (.of .runtime (text "Could not determine home directory."))
  else .ok (.ofText (if written.isEmpty then [Path.separator] else written))

/-- The directory for what is kept between runs. -/
def cacheDir (env : Environment) : Except Fault Path :=
  match env.nonEmpty? "COMMAND_ENGINE_CACHE_DIR" with
  | some t => .ok (.ofText t)
  | none => do
    let base ← match env.nonEmpty? "XDG_CACHE_HOME" with
      | some t => .ok (Path.ofText t)
      | none => env.home.map (·.child (text ".cache"))
    return base.child (text "command-engine")

end Environment

/-- The settings of a host. -/
structure Settings where
  nodeBin : Text := text "node"
  pythonBin : Text := text "python3"
  goBin : Text := text "go"
  /-- The parent of the scratch directories, if it is not the host's own for temporary files. -/
  scratchDir : Option Path := none
  goCacheDir : Path
  /-- What is put before every command line. -/
  wrapper : List Text := []
  deriving Inhabited

namespace Settings

/-- The settings that the environment gives, by name in lower case; of several variables for one
setting the last one counts. -/
def ownVariables (env : Environment) : List (Text × Text) :=
  env.foldl (fun vs (n, v) =>
    match Text.dropStart? (text "command_engine_") (Text.lowerAscii n) with
    | some name => (name, v) :: vs.filter (·.1 != name)
    | none => vs) []

/-- A list that is written in JSON.  One that is not written at all can have items in variables of
their own, but these do not make a list. -/
def writtenList (vs : List (Text × Text)) (name : String) : Except Fault Json :=
  match vs.lookup (text name) with
  | some t =>
    match Json.read t with
    | .ok v => .ok v
    | .error _ => .error (.of .settings (text "error parsing value for field \"" ++ text name ++
        text "\" from source \"EnvSettingsSource\""))
  | none =>
    let items := vs.filter fun v => Text.startsWith v.1 (text (name ++ "__"))
    .ok (if items.isEmpty then .null else .obj (items.map fun (n, v) => (n, .str v)))

/-- The settings of an environment. -/
def ofEnvironment (env : Environment) : Except Fault Settings := do
  let vs := ownVariables env
  let wrapper ← writtenList vs "sandbox_wrapper"
  let goCacheDir ← match vs.lookup (text "go_cache_dir") with
    | some t => .ok (Path.ofText t)
    | none => env.cacheDir.map (·.child (text "go-build"))
  let wrapper ← match wrapper with
    | .null => pure []
    | v => ((list string v).under (.name (text "sandbox_wrapper"))).orFault
  let named (name default : String) : Text := (vs.lookup (text name)).getD (text default)
  return { nodeBin := named "node_bin" "node"
           pythonBin := named "python_bin" "python3"
           goBin := named "go_bin" "go"
           scratchDir := (vs.lookup (text "scratch_dir")).map .ofText
           goCacheDir
           wrapper }

/-- The settings as a JSON value. -/
def toJson (s : Settings) : Json :=
  .record [("node_bin", .str s.nodeBin), ("python_bin", .str s.pythonBin), ("go_bin", .str s.goBin),
    ("scratch_dir", .orNull (s.scratchDir.map fun p => .str p.toText)),
    ("go_cache_dir", .str s.goCacheDir.toText), ("sandbox_wrapper", .texts s.wrapper)]

end Settings

end ChatCommands
