import ChatCommands.Fault.Basic
import ChatCommands.Host.FileTree
import ChatCommands.Json.Shown
import ChatCommands.Language
import ChatCommands.Schema.Field
import ChatCommands.Text.Folding
import ChatCommands.Text.Word

/-!
Values on a command line: what a word may stand for, and what is said about one that does not fit.
-/

namespace ChatCommands.Cli

open Host

/-- What a word of the command line stands for. -/
inductive Kind
  /-- A mark takes no word: it is there or not. -/
  | mark
  /-- A mark that asks for a page to be shown. -/
  | page (content : String)
  | text
  | language
  | number (least most : Binary64)
  | whole (least most : Int)
  /-- A file that exists. -/
  | file
  deriving DecidableEq, Repr

/-- The kind takes a word. -/
def Kind.takesWord : Kind → Bool
  | .mark | .page _ => false
  | _ => true

/-- A value. -/
inductive Value
  | mark
  | text (t : Text)
  | language (l : Language)
  | number (x : Binary64)
  | whole (i : Int)
  | path (p : Path)
  deriving DecidableEq, Repr, Inhabited

/-- Why a word is no value: it is refused in so many words, or the attempt itself fails. -/
inductive Refusal
  | refused (message : Text)
  | failed (f : Fault)

/-! ### Numerals -/

/-- The ASCII digit for a decimal digit of any script, and a space for a blank. -/
def plainPoint (c : Nat) : Nat :=
  if c < 127 then c
  else if Text.isBlank c then 32
  else
    match Text.digitRanges.find? fun r => r.1 ≤ c && c ≤ r.2 with
    | some r => 48 + (c - r.1) % 10
    | none => c

/-- A blank around a numeral. -/
def isPadding (c : Nat) : Bool := c == 32 || (9 ≤ c && c ≤ 13)

/-- A numeral in ASCII, without the blanks around it; one with other separators at its ends is left
alone. -/
def plainNumeral (t : Text) : Text :=
  Text.stripEndOf isPadding (Text.stripStartOf isPadding (t.map plainPoint))

/-- The number that a numeral stands for. -/
def number? (t : Text) : Option Binary64 :=
  let t := plainNumeral t
  if t.any Text.isBlank then none else Schema.parseFloat? t

/-- The whole number that a numeral stands for. -/
def whole? (t : Text) : Option Int :=
  let (negative, t) := Schema.signed (plainNumeral t)
  let (ds, rest) := Schema.digitRun t
  if ds.isEmpty || !rest.isEmpty || Json.maxDigits < ds.length then none
  else
    let n : Int := Text.toNat ds
    some (if negative then -n else n)

/-- A number outside of its range. -/
def outOfRange (shown least most : Text) : Refusal :=
  .refused (shown ++ text " is not in the range " ++ least ++ text "<=x<=" ++ most ++ text ".")

/-! ### File names -/

/-- The bytes of a file name.  A surrogate from U+DC80 to U+DCFF stands for a byte that is no UTF-8;
no other surrogate has a place in a name. -/
def nameBytes? (t : Text) : Option Bytes :=
  t.foldr (fun c rest => rest.bind fun bs =>
    if 0xDC80 ≤ c && c ≤ 0xDCFF then some (UInt8.ofNat (c - 0xDC00) :: bs)
    else if Text.isSurrogate c then none
    else some (Utf8.encodePoint c ++ bs)) (some [])

/-- Reads the name of a file that must exist.  A name that ends in a slash can only be a
directory's. -/
def readFileName (fs : FileSystem) (t : Text) : Except Refusal Path :=
  match nameBytes? t with
  | none => .error (.failed (.unencodable t))
  | some bytes =>
    let shown := Text.quoted (Utf8.decodeLossy bytes)
    let path := Path.ofText t
    let wantsDirectory := Text.endsWith t (text "/") || Text.endsWith t (text "/.")
    if t.contains 0 then .error (.failed (.of .value (text "embedded null byte")))
    else
      match t, fs.tree.find true (fs.locate path) with
      | _ :: _, .ok (.directory ..) =>
        .error (.refused (text "File " ++ shown ++ text " is a directory."))
      | _ :: _, .ok (.file ..) =>
        if wantsDirectory then .error (.refused (text "File " ++ shown ++ text " does not exist."))
        else .ok path
      | _, _ => .error (.refused (text "File " ++ shown ++ text " does not exist."))

/-! ### Reading values -/

/-- The languages that a word may name. -/
def languageChoices : String := ", ".intercalate (Language.names.map fun n => "'" ++ n ++ "'")

/-- A word that cannot be read as a value of its kind. -/
def unreadable (word : Text) (complaint : String) : Refusal :=
  .refused (Text.quoted word ++ text complaint)

/-- Reads a word as a value. -/
def Kind.read (fs : FileSystem) (t : Text) : Kind → Except Refusal Value
  | .mark | .page _ => .ok .mark
  | .text => .ok (.text t)
  | .language =>
    match Language.ofName? (Text.fold t) with
    | some l => .ok (.language l)
    | none => .error (unreadable t (" is not one of " ++ languageChoices ++ "."))
  | .number least most =>
    match number? t with
    | none => .error (unreadable t " is not a valid float range.")
    | some x =>
      if x.lt least || most.lt x then .error (outOfRange x.render least.render most.render)
      else .ok (.number x)
  | .whole least most =>
    match whole? t with
    | none => .error (unreadable t " is not a valid integer range.")
    | some i =>
      if i < least || most < i then
        .error (outOfRange (Text.ofInt i) (Text.ofInt least) (Text.ofInt most))
      else .ok (.whole i)
  | .file => (readFileName fs t).map .path

end ChatCommands.Cli
