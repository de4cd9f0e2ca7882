import ChatCommands.Text.Basic

/-!
Paths of the host's file system in their written form.

A path is its root and the names on the way.  Empty names and the name `.` lead nowhere and are
dropped when a path is read, so that each path is written in one way; `..` is kept, since what it
leads to depends on the links of the file system.
-/

namespace ChatCommands.Host

/-- A path: its root, which is empty for a relative path, and the names on the way. -/
structure Path where
  root : Text := []
  names : List Text := []
  deriving DecidableEq, Repr, Inhabited

namespace Path

/-- The slash that separates names. -/
def separator : Nat := 47

/-- The root of a written path: one slash or exactly two. -/
def rootOf : Text → Text
  | 47 :: 47 :: 47 :: _ => [separator]
  | 47 :: 47 :: _ => [separator, separator]
  | 47 :: _ => [separator]
  | _ => []

/-- Reads a path. -/
def ofText (t : Text) : Path :=
  ⟨rootOf t, (Text.splitOn separator t).filter fun n => !n.isEmpty && n != [46]⟩

/-- Writes a path. -/
def toText (p : Path) : Text :=
  if p.root.isEmpty && p.names.isEmpty then [46] else p.root ++ Text.join [separator] p.names

/-- The path is not relative. -/
def isAbsolute (p : Path) : Bool := !p.root.isEmpty

/-- The path with one more name. -/
def child (p : Path) (name : Text) : Path := { p with names := p.names ++ [name] }

/-- The path without its last name. -/
def parent (p : Path) : Path := { p with names := p.names.dropLast }

/-- The last name. -/
def name (p : Path) : Text := p.names.getLast?.getD []

/-- The last name from its last dot on, if something stands before and after that dot. -/
def suffix (p : Path) : Text :=
  let tail := (p.name.reverse.takeWhile (· != 46)).reverse
  if tail.isEmpty || p.name.length ≤ tail.length + 1 then [] else 46 :: tail

end Path

end ChatCommands.Host
