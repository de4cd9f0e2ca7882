import ChatCommands.Cli.Suggestion
import ChatCommands.Cli.Value

/-!
The grammar of a command line.

A command takes options and arguments.  A word that begins with a dash is an option in its long
spelling, perhaps with a value after an equals sign, or a run of options in their short spelling, of
which the last one may have its value attached.  A word of two dashes ends the options.  A command
that calls others ends its options at its first argument as well.
-/

namespace ChatCommands.Cli

/-- An option. -/
structure Choice where
  name : String
  /-- How the option is spelled: with one dash and a letter, or with two dashes. -/
  spellings : List String
  kind : Kind := .text
  /-- The option may be given more than once; otherwise the last time counts. -/
  repeated : Bool := false
  deriving DecidableEq, Repr

/-- An argument. -/
structure Argument where
  name : String
  required : Bool := true
  kind : Kind := .text
  deriving DecidableEq, Repr

/-- The grammar of a command. -/
structure Grammar where
  /-- The words that call the command. -/
  call : String
  options : List Choice
  arguments : List Argument := []
  /-- The arguments are the call of another command. -/
  callsOthers : Bool := false
  deriving DecidableEq, Repr

/-- Why a command line comes to nothing. -/
inductive Stop
  /-- It is wrong; the usage of a command may help. -/
  | usage (help : Option Grammar) (message : Text)
  /-- A page was asked for. -/
  | page (content : Text)
  | fault (f : Fault)

/-- Two dashes. -/
def twoDashes : Text := text "--"

namespace Choice

/-- The option has this spelling. -/
def isSpelled (o : Choice) (t : Text) : Bool := o.spellings.any fun s => text s == t

/-- The option as messages name it. -/
def shown (o : Choice) : Text :=
  Text.join (text " / ") (o.spellings.map fun s => text "'" ++ text s ++ text "'")

end Choice

namespace Grammar

/-- How the arguments are shown in the usage of the command. -/
def argumentPlaces (g : Grammar) : List String :=
  (g.arguments.map fun a => if a.required then a.name else "[" ++ a.name ++ "]") ++
    (if g.callsOthers then ["COMMAND [ARGS]..."] else [])

/-- The usage of the command, and how to get help. -/
def usage (g : Grammar) : Text :=
  text ("Usage: " ++ " ".intercalate (g.call :: "[OPTIONS]" :: g.argumentPlaces) ++
    "\nTry '" ++ g.call ++ " -h' for help.\n")

/-- The option of this spelling. -/
def option? (g : Grammar) (t : Text) : Option Choice := g.options.find? (·.isSpelled t)

/-- The long spellings of all options. -/
def longSpellings (g : Grammar) : List Text :=
  ((g.options.flatMap (·.spellings)).map text).filter fun t => Text.startsWith t twoDashes

/-! ### Words -/

/-- An option as it was given, with the word for its value. -/
abbrev Given : Type := Choice × Text

/-- The options of one word; the last one may still want the next word for its value. -/
structure Piece where
  given : List Given := []
  wants : Option (Choice × Text) := none

/-- The option of a long spelling, with what is attached to it. -/
def readLong (o : Choice) (spelling : Text) (attached : Option Text) : Except Stop Piece :=
  match o.kind.takesWord, attached with
  | true, some t => .ok { given := [(o, t)] }
  | true, none => .ok { wants := some (o, spelling) }
  | false, none => .ok { given := [(o, [])] }
  | false, some _ =>
    .error (.usage none (text "Option " ++ Text.quoted spelling ++ text " does not take a value."))

/-- The options of a run of letters after one dash. -/
def readShort (g : Grammar) : Text → Except Stop Piece
  | [] => .ok {}
  | c :: rest =>
    let spelling := [cp '-', c]
    match g.option? spelling with
    | none => .error (.usage (some g) (text "No such option: " ++ spelling))
    | some o =>
      if o.kind.takesWord then
        if rest.isEmpty then .ok { wants := some (o, spelling) } else .ok { given := [(o, rest)] }
      else (readShort g rest).map fun p => { p with given := (o, []) :: p.given }

/-- The options of a word that begins with a dash. -/
def readWord (g : Grammar) (word : Text) : Except Stop Piece :=
  let spelling := word.takeWhile (· != cp '=')
  let attached :=
    if spelling.length < word.length then some (word.drop (spelling.length + 1)) else none
  match g.longSpellings.contains spelling, g.option? spelling with
  | true, some o => readLong o spelling attached
  | _, _ =>
    if Text.startsWith word twoDashes then
      .error (.usage (some g) (text "No such option: " ++ spelling ++
        didYouMean (suggestions g.longSpellings spelling)))
    else g.readShort (word.drop 1)

/-- The words of a command line: the options in the order in which they were given, and the
arguments. -/
structure Reading where
  given : List Given := []
  arguments : List Text := []

/-- The word is an option. -/
def isOption (word : Text) : Bool := word.head? == some (cp '-') && 1 < word.length

/-- Reads words on. -/
def readOn (g : Grammar) (r : Reading) (words : List Text) : Except Stop Reading :=
  match words with
  | [] => .ok r
  | w :: rest =>
    if w == twoDashes then .ok { r with arguments := r.arguments ++ rest }
    else if isOption w then
      match g.readWord w, rest with
      | .error s, _ => .error s
      | .ok ⟨given, none⟩, rest => readOn g { r with given := r.given ++ given } rest
      | .ok ⟨given, some (o, _)⟩, v :: rest =>
        readOn g { r with given := r.given ++ given ++ [(o, v)] } rest
      | .ok ⟨_, some (_, spelling)⟩, [] =>
        .error (.usage none
          (text "Option " ++ Text.quoted spelling ++ text " requires an argument."))
    else if g.callsOthers then .ok { r with arguments := r.arguments ++ w :: rest }
    else readOn g { r with arguments := r.arguments ++ [w] } rest
termination_by words.length

/-! ### Values -/

/-- The values of a command line, by name, in order. -/
structure Values where
  values : List (String × Value) := []
  /-- The arguments that are the call of another command. -/
  call : List Text := []

/-- The stop for a word that is no value of a parameter. -/
def refuse (g : Grammar) (parameter : Text) : Refusal → Stop
  | .refused message =>
    .usage (some g) (text "Invalid value for " ++ parameter ++ text ": " ++ message)
  | .failed f => .fault f

/-- The page that the options ask for: that of the first one. -/
def page? (given : List Given) : Option Text :=
  given.findSome? fun (o, _) =>
    match o.kind with
    | .page content => some (text content)
    | _ => none

/-- The options that count, in the order in which each was first given. -/
def counting (given : List Given) : List Given :=
  let choices := (given.map (·.1)).eraseDups
  choices.flatMap fun o =>
    let words := given.filter fun p => p.1 == o
    if o.repeated then words else words.getLast?.toList

/-- The values of options. -/
def readOptions (g : Grammar) (fs : Host.FileSystem) (given : List Given) :
    Except Stop (List (String × Value)) :=
  (counting given).mapM fun (o, word) =>
    ((o.kind.read fs word).map fun v => (o.name, v)).mapError (g.refuse o.shown)

/-- The values of arguments; the words that are left over come with them. -/
def readArguments (g : Grammar) (fs : Host.FileSystem) :
    List Argument → List Text → Except Stop (List (String × Value) × List Text)
  | [], words => .ok ([], words)
  | a :: as, [] =>
    if a.required then
      .error (.usage (some g) (text "Missing argument '" ++ text a.name ++ text "'."))
    else readArguments g fs as []
  | a :: as, w :: words => do
    let v ← (a.kind.read fs w).mapError (g.refuse (text "'" ++ text a.name ++ text "'"))
    let (vs, left) ← readArguments g fs as words
    return ((a.name, v) :: vs, left)

/-- The stop for arguments that nobody asked for. -/
def unexpected (g : Grammar) (words : List Text) : Stop :=
  .usage (some g) (text "Got unexpected extra argument" ++
    text (if words.length = 1 then "" else "s") ++ text " (" ++ Text.join [32] words ++ text ")")

/-- Reads a command line. -/
def read (g : Grammar) (fs : Host.FileSystem) (words : List Text) : Except Stop Values := do
  let r ← g.readOn {} words
  match page? r.given with
  | some content => .error (.page content)
  | none =>
    let options ← g.readOptions fs r.given
    let (arguments, left) ← g.readArguments fs g.arguments r.arguments
    if g.callsOthers then return { values := options ++ arguments, call := left }
    else if left.isEmpty then return { values := options ++ arguments }
    else .error (g.unexpected left)

namespace Values

/-- The mark was given. -/
def has (v : Values) (name : String) : Bool := (v.values.lookup name).isSome

/-- The texts given under a name. -/
def texts (v : Values) (name : String) : List Text :=
  v.values.filterMap fun
    | (n, .text t) => if n = name then some t else none
    | _ => none

/-- The text of a parameter. -/
def text? (v : Values) (name : String) : Option Text := (v.texts name).head?

/-- The language of a parameter. -/
def language? (v : Values) (name : String) : Option Language :=
  match v.values.lookup name with
  | some (.language l) => some l
  | _ => none

/-- The number of a parameter. -/
def number? (v : Values) (name : String) : Option Binary64 :=
  match v.values.lookup name with
  | some (.number x) => some x
  | _ => none

/-- The whole number of a parameter. -/
def whole? (v : Values) (name : String) : Option Int :=
  match v.values.lookup name with
  | some (.whole i) => some i
  | _ => none

/-- The path of a parameter. -/
def path? (v : Values) (name : String) : Option Host.Path :=
  match v.values.lookup name with
  | some (.path p) => some p
  | _ => none

end Values

end Grammar

end ChatCommands.Cli
