import ChatCommands.Text.Blank

/-!
The languages in which commands are written.

A command stores its language as a free label, so that an unknown one can be reported; `ofLabel?`
resolves the label, `ofName?` accepts only the language's own name.
-/

namespace ChatCommands

/-- A language that some runtime can execute. -/
inductive Language
  | javascript
  | python
  | go
  deriving DecidableEq, Repr, Inhabited

namespace Language

/-- Every language, in the order in which they are listed to users. -/
def all : List Language := [javascript, python, go]

/-- The name of a language. -/
def name : Language → String
  | javascript => "javascript"
  | python => "python"
  | go => "go"

/-- The name as it is shown in replies. -/
def displayName : Language → String
  | javascript => "JavaScript"
  | python => "Python"
  | go => "Go"

/-- The names of all languages. -/
def names : List String := all.map name

/-- The language of exactly this name. -/
def ofName? (t : Text) : Option Language := all.find? fun l => text l.name == t

/-- The labels under which a language may be stored, in lower case. -/
def labels : List (String × Language) :=
  [("javascript", javascript), ("js", javascript), ("node", javascript), ("python", python),
    ("py", python), ("python3", python), ("go", go), ("golang", go)]

/-- The language of a stored label, whatever its case and the blanks around it.  The labels are
ASCII, and no letter outside ASCII has a lower case that occurs in one. -/
def ofLabel? (label : Text) : Option Language :=
  let key := Text.lowerAscii (Text.strip label)
  (labels.find? fun (l, _) => text l == key).map (·.2)

end Language

end ChatCommands
