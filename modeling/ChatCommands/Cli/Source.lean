import ChatCommands.Host.FileTree
import ChatCommands.Language
import ChatCommands.Text.Blank

/-!
The source of a script: code on the command line, a file, or the standard input.
-/

namespace ChatCommands.Cli

open Host

/-- The standard input. -/
structure Input where
  content : Text := []
  /-- The input comes from a terminal. -/
  terminal : Bool := false
  deriving Repr, Inhabited

/-- The word for the standard input in place of a file. -/
def inputWord : Text := text "-"

/-- The languages of files by the ends of their names. -/
def suffixes : List (String × Language) :=
  [(".py", .python), (".js", .javascript), (".mjs", .javascript), (".go", .go)]

/-- The language of a file, by the end of its name. -/
def languageOf? (source : Option Text) : Option Language :=
  source.bind fun t =>
    if t.isEmpty || t == inputWord then none
    else
      let suffix := Text.lowerAscii (Path.ofText t).suffix
      (suffixes.find? fun s => text s.1 == suffix).map (·.2)

/-- The most bytes of a path. -/
def maxPathSize : Nat := 4095

/-- A path leads to a file.  What cannot be a path does not, and neither does one that leads
nowhere; one that is too long to be looked for is a fault. -/
def isFile (fs : FileSystem) (source : Text) (path : Path) : Except Fault Bool :=
  if source.contains 0 || source.any Text.isSurrogate then .ok false
  else if maxPathSize < Utf8.size path.toText then .error (Errno.nameTooLong.fault path.toText)
  else
    match fs.tree.find true (fs.locate path) with
    | .ok (.file ..) => .ok true
    | .ok _ | .error .noEntry | .error .notADirectory | .error .tooManyLinks => .ok false
    | .error e => .error (e.fault path.toText)

/-- The text of a file. -/
def readFile (fs : FileSystem) (path : Path) : Except Fault Text :=
  match fs.tree.read (fs.locate path) with
  | .error e => .error (e.fault path.toText)
  | .ok content =>
    match Utf8.decode content with
    | .ok t => .ok (Text.unifyLineEnds t)
    | .error m => .error (.of .undecodable m.message)

/-- A complaint about the command line. -/
def complaint (message : String) : Fault := .of .usage (text message)

/-- The code that a source stands for, whatever is in it. -/
def readAnySource (fs : FileSystem) (input : Input) (source inline : Option Text) :
    Except Fault Text :=
  match inline, source with
  | some (c :: code), _ => .ok (c :: code)
  | _, some (c :: source) =>
    if c :: source == inputWord then
      if input.terminal then
        .error (complaint "No input provided. Pipe code to stdin or use -c flag.")
      else .ok (Text.unifyLineEnds input.content)
    else do
      let path := Path.ofText (c :: source)
      if ← isFile fs (c :: source) path then readFile fs path else return c :: source
  | _, _ => .error (complaint "No code provided. Provide SOURCE argument or use -c flag.")

/-- The code that a source stands for; it must not be blank. -/
def readSource (fs : FileSystem) (input : Input) (source inline : Option Text) :
    Except Fault Text := do
  let code ← readAnySource fs input source inline
  if (Text.strip code).isEmpty then .error (complaint "Empty code provided.") else return code

end ChatCommands.Cli
