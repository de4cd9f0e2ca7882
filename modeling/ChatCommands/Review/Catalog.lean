import ChatCommands.Fault.Basic
import ChatCommands.Language
import ChatCommands.Pattern.Parser

/-!
Catalogs of constructs that scripts must not use.

A catalog holds rules under keys: the key `common` for every script, the name of a language for
scripts in it.  A rule has a category, which operators see, and a pattern.
-/

namespace ChatCommands

/-- A denied construct: the pattern that recognises it and the category that is reported. -/
structure Rule where
  category : Text
  pattern : Pattern

/-- Rules by key, in order. -/
abbrev Catalog := List (Text × List Rule)

namespace Catalog

/-- The key of the rules that apply to every script. -/
def commonKey : Text := text "common"

/-- The rules under a key. -/
def under (c : Catalog) (key : Text) : List Rule := (c.lookup key).getD []

/-- The rules that apply to a language, the common ones first; no language has only these. -/
def rulesFor (c : Catalog) (l : Option Language) : List Rule :=
  c.under commonKey ++ l.elim [] fun l => c.under (text l.name)

/-- Appends rules to those under a key; a key that is new comes last. -/
def extend (key : Text) (rules : List Rule) : Catalog → Catalog
  | [] => [(key, rules)]
  | (k, rs) :: rest =>
    if k = key then (k, rs ++ rules) :: rest else (k, rs) :: extend key rules rest

/-- The catalog with further rules, key by key. -/
def extendAll (c : Catalog) (extra : List (Text × List Rule)) : Catalog :=
  extra.foldl (fun c (key, rules) => c.extend key rules) c

/-- A rule from its category and the written form of its pattern. -/
def rule? (category pattern : Text) : Except Fault Rule :=
  match Pattern.parse? pattern with
  | some p => .ok ⟨category, p⟩
  | none => .error (.of .value (text "unreadable pattern " ++ Text.quoted pattern))

/-- A member of a written rule. -/
def ruleText (name : String) (v : Json) : Except Fault Text :=
  match v.field? name with
  | some (.str t) => .ok t
  | _ => .error (.of .key (text name))

/-- A rule of a written catalog. -/
def ruleOfJson? (v : Json) : Except Fault Rule := do
  let category ← ruleText "category" v
  let pattern ← ruleText "pattern" v
  rule? category pattern

/-- A written catalog. -/
def ofJson? : Json → Except Fault Catalog
  | .obj members =>
    members.mapM fun (key, rules) =>
      match rules with
      | .arr rules => return (key, ← rules.mapM ruleOfJson?)
      | _ => .error (.of .typeMismatch (text "the rules of a key must be a list"))
  | _ => .error (.of .typeMismatch (text "a catalog must be an object"))

/-- The written rules of the bundled catalog. -/
def bundledRules : List (String × List (String × String)) := [
  ("common", [
    ("dynamic_eval", r"\beval\s*\("),
    ("shell", r"\b(?:bash|sh|zsh|cmd\.exe|powershell)\s+-c\b"),
    ("filesystem", r"/etc/(?:passwd|shadow)|/proc/self")]),
  ("javascript", [
    ("process_spawn", r"child_process"),
    ("process_spawn", r"\b(?:spawn|spawnSync|execSync|execFile|execFileSync|fork)\s*\("),
    ("module_access", r"\brequire\s*\("),
    ("module_access", r"\bimport\s*\(|^\s*import\s"),
    ("host_access", r"\bprocess\b"),
    ("host_access", r"\bglobalThis\b"),
    ("dynamic_eval", r"\bnew\s+Function\b|\bFunction\s*\("),
    ("dynamic_eval", r#"\b(?:setTimeout|setInterval)\s*\(\s*['"`]"#),
    ("sandbox_escape", r"\bconstructor\b|__proto__|\bReflect\b|\bProxy\b"),
    ("filesystem", r"\bfs\b|\bfs/promises\b"),
    ("network", r"\b(?:fetch|WebSocket|XMLHttpRequest)\b|\bnet\.|\bdgram\b"),
    ("native_code", r"\bWebAssembly\b|\bbun:ffi\b")]),
  ("python", [
    ("process_spawn", r"\bsubprocess\b|\bos\.(?:system|popen|exec\w*|spawn\w*|fork)\b|\bpty\b"),
    ("module_access",
      r"^\s*(?:import|from)\s+(?:os|sys|subprocess|shutil|socket|ctypes|cffi|" ++
        r"importlib|multiprocessing|threading|signal|pty|pathlib|builtins|pickle|" ++
        r"marshal|asyncio|urllib|http|requests|io|inspect|gc|code|codeop|runpy|resource|" ++
        r"tempfile|glob|mmap|fcntl|select|ssl|ftplib|smtplib|telnetlib|webbrowser)\b"),
    ("module_access", r"\b__import__\b|\bimportlib\b"),
    ("dynamic_eval", r"\bexec\s*\(|\bcompile\s*\("),
    ("filesystem", r"\bopen\s*\("),
    ("sandbox_escape",
      r"__(?:subclasses|globals|builtins|bases|mro|code|class|dict|getattribute|" ++
        r"closure|loader|spec|self|func|wrapped|traceback|reduce|reduce_ex)__"),
    ("sandbox_escape",
      r"\b(?:tb_frame|tb_next|f_back|f_globals|f_locals|f_builtins|f_code|gi_frame|" ++
        r"gi_code|cr_frame|cr_code|ag_frame|ag_code)\b"),
    ("sandbox_escape", r"\b(?:getattr|setattr|delattr|globals|locals|vars|breakpoint)\s*\("),
    ("network", r"\bsocket\b")]),
  ("go", [
    ("process_spawn", r#""os/exec"|\bexec\.Command\b|\bsyscall\.(?:Exec|ForkExec)\b"#),
    ("module_access",
      r#""(?:os/signal|os/user|syscall|unsafe|plugin|runtime/cgo|runtime/debug|"# ++
        r#"io/ioutil|path/filepath|golang\.org/x/sys/[\w/]+)""#),
    ("native_code", r#"import\s+"C"|//\s*#cgo|//go:linkname"#),
    ("network", r#""net(?:/[\w/]+)?"|"crypto/tls""#),
    ("filesystem",
      r"\bos\.(?:Create|Remove|RemoveAll|WriteFile|ReadFile|Open|OpenFile|Chmod|Mkdir|" ++
        r"Chdir|Symlink|Link)\b"),
    ("filesystem",
      r"\bos\.(?:DirFS|ReadDir|Stat|Lstat|Readlink|NewFile|Truncate|Rename|Chown|" ++
        r#"Lchown|CopyFS|UserHomeDir)\b|"io/fs"|"embed""#),
    ("host_access",
      r"\bos\.(?:Getenv|LookupEnv|Environ|Setenv|Unsetenv|Exit|Getwd|Hostname|" ++
        r"Executable|Getpid|Getppid|Kill|FindProcess|StartProcess)\b")])]

/-- The bundled catalog. -/
def bundled : Catalog :=
  bundledRules.map fun (key, rules) =>
    (text key, rules.filterMap fun (category, pattern) =>
      (Pattern.parse? (text pattern)).map (Rule.mk (text category)))

end Catalog

end ChatCommands
