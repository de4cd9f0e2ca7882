import ChatCommands.Json.Access
import ChatCommands.Json.Parse
import ChatCommands.Json.Shown
import ChatCommands.Text.Blank

/-!
The inside of the sandbox: what a script in Python finds there, and how its failure is described.

A script sees a short list of built-in names and may import a short list of modules.  What it is
told about its caller cannot be changed by it.
-/

namespace ChatCommands.Sandbox.Script

/-! ### Names -/

/-- The built-in names that a script sees. -/
def builtins : List String :=
  ["abs", "all", "any", "ascii", "bin", "bool", "bytes", "callable", "chr", "complex", "dict",
    "divmod", "enumerate", "filter", "float", "format", "frozenset", "hash", "hex", "int",
    "isinstance", "issubclass", "iter", "len", "list", "map", "max", "min", "next", "object",
    "oct", "ord", "pow", "print", "range", "repr", "reversed", "round", "set", "slice", "sorted",
    "str", "sum", "super", "tuple", "zip", "__build_class__", "ArithmeticError", "AssertionError",
    "AttributeError", "Exception", "IndexError", "KeyError", "LookupError", "NameError",
    "NotImplementedError", "OverflowError", "RuntimeError", "StopIteration", "TypeError",
    "ValueError", "ZeroDivisionError"]

/-- The modules that a script may import. -/
def modules : List String :=
  ["collections", "datetime", "functools", "itertools", "json", "math", "random", "re",
    "statistics", "string", "textwrap"]

/-- The name is in a list. -/
def isListed (names : List String) (name : Text) : Bool := names.any fun n => text n == name

/-- Imports a module by its name; `level` counts the packages to go up for a relative import. -/
def importModule (name : Text) (level : Int) : Except Fault Unit :=
  if level ≠ 0 || !isListed modules name then
    .error (.of .importRefused (text "import of '" ++ name ++ text "' is not allowed"))
  else .ok ()

/-! ### What a script is told -/

/-- A value that cannot be changed. -/
inductive Frozen
  | nothing
  | flag (b : Bool)
  | whole (i : Int)
  | real (x : Binary64)
  | text (t : Text)
  | tuple (items : List Frozen)
  | view (members : List (Text × Frozen))
  deriving Inhabited

mutual

/-- A JSON value, frozen: lists become tuples, and objects read-only views. -/
def freeze : Json → Frozen
  | .null => .nothing
  | .bool b => .flag b
  | .int i => .whole i
  | .real x => .real x
  | .str t => .text t
  | .arr items => .tuple (freezeItems items)
  | .obj ms => .view (freezeMembers ms)

/-- All items, frozen. -/
def freezeItems : List Json → List Frozen
  | [] => []
  | v :: rest => freeze v :: freezeItems rest

/-- All members, frozen. -/
def freezeMembers : List (Text × Json) → List (Text × Frozen)
  | [] => []
  | (n, v) :: rest => (n, freeze v) :: freezeMembers rest

end

/-- The names under which a script is told about its caller. -/
def topics : List String := ["message", "author", "channel", "guild", "command"]

/-- The type of a JSON value. -/
def typeName : Json → String
  | .null => "NoneType"
  | .bool _ => "bool"
  | .int _ => "int"
  | .real _ => "float"
  | .str _ => "str"
  | .arr _ => "list"
  | .obj _ => "dict"

/-- What a script is told, given the input of its process: for each name the frozen member of that
name, or nothing if the input has no such member.  Blank input has no members. -/
def told (input : Text) : Except Fault (List (String × Frozen)) := do
  let bindings ← if Text.isBlankText input then pure (.obj []) else Json.parse input
  match bindings with
  | .obj _ => pure (topics.map fun name => (name, freeze (bindings.get name)))
  | v => .error (.of .noAttribute (text ("'" ++ typeName v ++ "' object has no attribute 'get'")))

mutual

/-- A frozen value with the type of each of its parts. -/
def Frozen.tagged : Frozen → Json
  | .nothing => .record [("NoneType", .null)]
  | .flag b => .record [("bool", .bool b)]
  | .whole i => .record [("int", .int i)]
  | .real x => .record [("float", .real x)]
  | .text t => .record [("str", .str t)]
  | .tuple items => .record [("tuple", .arr (Frozen.taggedItems items))]
  | .view ms => .record [("mappingproxy", .obj (Frozen.taggedMembers ms))]

/-- All items with their types. -/
def Frozen.taggedItems : List Frozen → List Json
  | [] => []
  | v :: rest => v.tagged :: Frozen.taggedItems rest

/-- All members with their types. -/
def Frozen.taggedMembers : List (Text × Frozen) → List (Text × Json)
  | [] => []
  | (n, v) :: rest => (n, v.tagged) :: Frozen.taggedMembers rest

end

/-! ### What a script says -/

/-- The line that a reply writes. -/
def replyLine (sep : Text) (parts : List Json) : Text :=
  Text.join sep (parts.map Json.plain) ++ [10]

/-- An exception that has ended a script. -/
inductive Raised
  /-- The script could not be compiled; the line may be unknown. -/
  | syntaxError (message : Text) (line : Option Int)
  /-- Any other exception, with the line of the script that it passed last, if it passed any. -/
  | other (fault : Fault) (line : Option Nat)

/-- The description of an exception. -/
def Raised.describe : Raised → Text
  | .syntaxError message line =>
    text "SyntaxError: " ++ message ++ text " (line " ++
      (line.map Text.ofInt).getD (text "None") ++ text ")"
  | .other f line =>
    text f.kind.name ++ text ": " ++ f.wording ++
      (line.map fun n => text " (line " ++ Text.ofNat n ++ text ")").getD []

end ChatCommands.Sandbox.Script
