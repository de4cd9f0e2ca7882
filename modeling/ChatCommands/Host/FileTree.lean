import ChatCommands.Host.Errno
import ChatCommands.Host.Path
import ChatCommands.Text.Utf8

/-!
File trees: directories, files and symbolic links.

A node may refuse to be removed, and a directory may refuse to be listed.  `resolve` follows the
links of a location; the other operations work on locations that are resolved.
-/

namespace ChatCommands.Host

/-- A place in a tree: the names on the way from its root. -/
abbrev Location := List Text

/-- A node of a file tree.  A node is `kept` if it refuses to be removed, and a directory is
`closed` if it refuses to be listed. -/
inductive Node
  | file (kept : Bool) (content : Bytes)
  | link (kept : Bool) (target : Location)
  | directory (kept closed : Bool) (entries : List (Text × Node))
  deriving Inhabited

/-- How many links a walk may follow. -/
def maxLinks : Nat := 40

/-- The most bytes of a name. -/
def maxNameSize : Nat := 255

namespace Node

/-- A directory with nothing in it. -/
def emptyDirectory : Node := .directory false false []

/-- The node is a directory. -/
def isDirectory : Node → Bool
  | .directory .. => true
  | _ => false

/-- The entries of a directory, and none for any other node. -/
def entries : Node → List (Text × Node)
  | .directory _ _ es => es
  | _ => []

/-- The node at a location; links are not followed. -/
def lookup : Node → Location → Option Node
  | n, [] => some n
  | n, name :: rest => (n.entries.lookup name).bind fun child => lookup child rest

/-- Sets or removes an entry; a new one is the last. -/
def setEntry (name : Text) (child : Option Node) : List (Text × Node) → List (Text × Node)
  | [] => (child.map fun c => (name, c)).toList
  | e :: es =>
    if e.1 = name then (child.map fun c => (name, c)).toList ++ es else e :: setEntry name child es

/-- Sets or removes the node at a location, whose parent is a directory;
the root is only replaced. -/
def set (new : Option Node) : Node → Location → Node
  | n, [] => new.getD n
  | .directory kept closed es, [name] => .directory kept closed (setEntry name new es)
  | .directory kept closed es, name :: rest =>
    match es.lookup name with
    | some child => .directory kept closed (setEntry name (some (set new child rest)) es)
    | none => .directory kept closed es
  | n, _ => n

/-- The location that names lead to from the directory at `here`.  A link is left to `follow`, which
is given its target with the names after it.  The last name need not exist; a link there is followed
only if `through` is set. -/
def walkNames (tree : Node) (through : Bool) (follow : List Text → Except Errno Location)
    (here : Location) : List Text → Except Errno Location
  | [] => .ok here
  | name :: rest =>
    match tree.lookup here with
    | none => .error .noEntry
    | some (.directory _ _ es) =>
      if name = [46, 46] then walkNames tree through follow here.dropLast rest
      else if maxNameSize < Utf8.size name then .error .nameTooLong
      else
        match es.lookup name with
        | none => if rest.isEmpty then .ok (here ++ [name]) else .error .noEntry
        | some (.link _ target) =>
          if rest.isEmpty && !through then .ok (here ++ [name]) else follow (target ++ rest)
        | some _ => walkNames tree through follow (here ++ [name]) rest
    | some _ => .error .notADirectory

/-- The location that names lead to from the directory at `here`, with at most `links` links
followed, each from the root. -/
def walk (tree : Node) (through : Bool) :
    (links : Nat) → (here : Location) → (todo : List Text) → Except Errno Location
  | 0, here, todo => tree.walkNames through (fun _ => .error .tooManyLinks) here todo
  | links + 1, here, todo => tree.walkNames through (tree.walk through links []) here todo

/-- The location that a location leads to once its links are followed, the last one only if asked
for. -/
def resolve (tree : Node) (through : Bool) (l : Location) : Except Errno Location :=
  tree.walk through maxLinks [] l

/-- The node that a location leads to. -/
def find (tree : Node) (through : Bool) (l : Location) : Except Errno Node := do
  let real ← tree.resolve through l
  match tree.lookup real with
  | some n => .ok n
  | none => .error .noEntry

/-- A location leads to a directory. -/
def leadsToDirectory (tree : Node) (l : Location) : Bool :=
  match tree.find true l with
  | .ok n => n.isDirectory
  | .error _ => false

/-- A location leads to a file. -/
def leadsToFile (tree : Node) (l : Location) : Bool :=
  match tree.find true l with
  | .ok (.file ..) => true
  | _ => false

/-- A location leads to a node. -/
def leadsSomewhere (tree : Node) (l : Location) : Bool :=
  match tree.find true l with
  | .ok _ => true
  | .error _ => false

/-- Puts a new node at a location; nothing may be there, not even a link. -/
def create (tree : Node) (l : Location) (new : Node) : Except Errno Node := do
  let real ← tree.resolve false l
  match tree.lookup real with
  | some _ => .error .fileExists
  | none => .ok (tree.set (some new) real)

/-- The names in a directory. -/
def list (tree : Node) (l : Location) : Except Errno (List Text) := do
  match ← tree.find true l with
  | .directory _ closed es => if closed then .error .refused else .ok (es.map (·.1))
  | _ => .error .notADirectory

/-- The content of the file that a location leads to. -/
def read (tree : Node) (l : Location) : Except Errno Bytes := do
  match ← tree.find true l with
  | .file _ content => .ok content
  | .directory .. => .error .isADirectory
  | .link .. => .error .tooManyLinks

/-- Removes the file or the link at a resolved location. -/
def unlinkHere (tree : Node) (real : Location) : Except Errno Node :=
  match tree.lookup real with
  | none => .error .noEntry
  | some (.directory ..) => .error .isADirectory
  | some (.file kept _) | some (.link kept _) =>
    if kept then .error .refused else .ok (tree.set none real)

/-- Removes a file or a link. -/
def unlink (tree : Node) (l : Location) : Except Errno Node := do
  tree.unlinkHere (← tree.resolve false l)

/-- Removes the empty directory at a resolved location. -/
def removeDirectoryHere (tree : Node) (real : Location) : Except Errno Node :=
  match tree.lookup real with
  | none => .error .noEntry
  | some (.directory kept _ es) =>
    if !es.isEmpty then .error .notEmpty
    else if kept then .error .refused
    else .ok (tree.set none real)
  | some _ => .error .notADirectory

end Node

/-- A file tree, and the directory from which relative paths lead. -/
structure FileSystem where
  tree : Node := .emptyDirectory
  workingDirectory : Location := []
  deriving Inhabited

namespace FileSystem

/-- The location that a path writes. -/
def locate (fs : FileSystem) (p : Path) : Location :=
  if p.isAbsolute then p.names else fs.workingDirectory ++ p.names

/-- Changes the tree in a way that may be refused. -/
def update (fs : FileSystem) (path : Path) (r : Except Errno Node) : Except Fault FileSystem :=
  match r with
  | .ok tree => .ok { fs with tree }
  | .error e => .error (e.fault path.toText)

/-- Makes the directory at a path.  A directory that is there already is as good. -/
def makeDirectory (fs : FileSystem) (path : Path) : Except Fault FileSystem :=
  match fs.tree.create (fs.locate path) .emptyDirectory with
  | .ok tree => .ok { fs with tree }
  | .error e =>
    if fs.tree.leadsToDirectory (fs.locate path) then .ok fs else .error (e.fault path.toText)

/-- Makes the directory at a path and those above it that are missing, given the names from the last
one back. -/
def makeDirectories (fs : FileSystem) (root : Text) :
    (reversed : List Text) → Except Fault FileSystem
  | [] => .ok fs
  | name :: above => do
    let parent : Path := ⟨root, above.reverse⟩
    let fs ←
      if fs.tree.leadsSomewhere (fs.locate parent) then pure fs
      else
        match makeDirectories fs root above with
        | .error f => if f.kind = .fileExists then pure fs else .error f
        | .ok fs => pure fs
    fs.makeDirectory (parent.child name)

end FileSystem

end ChatCommands.Host
