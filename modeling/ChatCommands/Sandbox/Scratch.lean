import ChatCommands.Host.FileTree
import ChatCommands.Journal.Record

/-!
Scratch directories: each run gets one of its own, with its script in it, and gives it back
afterwards.

Removing a scratch directory never stops at the first failure: what can be removed is removed, every
failure is logged, and links are removed and not followed.
-/

namespace ChatCommands.Sandbox

open Host

/-- The permissions of a scratch directory: its owner's only. -/
def directoryMode : Nat := 0o700

/-- The permissions of a script: its owner's only. -/
def scriptMode : Nat := 0o600

/-- What the name of every scratch directory begins with. -/
def scratchMark : Text := text "cmdexec-"

/-- The name of the `n`-th scratch directory. -/
def scratchName (n : Nat) : Text := scratchMark ++ Text.ofNat n

/-- The first number from `n` on whose name is not taken. -/
def freeNumber (taken : List Text) (n : Nat) : Nat :=
  let fits (k : Nat) : Bool := !taken.contains (scratchName (n + k))
  n + ((List.range (taken.length + 1)).find? fits).getD 0

/-- Makes a scratch directory in `root`, which is made as well if it is not there. -/
def createScratch (fs : FileSystem) (root : Path) (count : Nat) :
    Except Fault (Path × Nat × FileSystem) := do
  let fs ← fs.makeDirectories root.root root.names.reverse
  let taken := match fs.tree.find true (fs.locate root) with
    | .ok n => n.entries.map (·.1)
    | .error _ => []
  let n := freeNumber taken count
  let path := root.child (scratchName n)
  let fs ← fs.update path (fs.tree.create (fs.locate path) .emptyDirectory)
  return (path, n + 1, fs)

/-- Writes a script to a new file.  The file is there even if the script has no bytes. -/
def writeScript (fs : FileSystem) (path : Path) (code : Text) : Except Fault Unit × FileSystem :=
  match fs.tree.create (fs.locate path) (.file false ((Utf8.encode code).getD [])) with
  | .ok tree =>
    (if (Utf8.encode code).isSome then .ok () else .error (.unencodable code), { fs with tree })
  | .error e => (.error (e.fault path.toText), fs)

/-! ### Removal -/

/-- The log record of a path that could not be removed. -/
def removalRecord (message : Text) (id : Text) (path : Path) (e : Errno) : LogRecord where
  level := .error
  component := .cleanup
  message := message
  context := [("context_id", .str id), ("path", .str path.toText),
    ("error", .str (e.fault path.toText).message), ("error_type", .str (text e.kind.name))]

/-- The record of a file that could not be removed. -/
def fileRecord (description id : Text) : Path → Errno → LogRecord :=
  removalRecord (description ++ text " OS error during deletion") id

/-- The record of a directory that could not be removed. -/
def directoryRecord (id : Text) : Path → Errno → LogRecord :=
  removalRecord (text "Scratch directory removal error") id

/-- What an attempt to remove something came to: whether nothing was left, what was left, and what
was logged. -/
structure Removal (α : Type) where
  ok : Bool
  left : α
  records : List LogRecord := []
  deriving Inhabited

/-- What the removal of a file came to; one that is not there is as good. -/
def fileRemoval (tree : Node) (unlinked : Except Errno Node) (id description : Text) (path : Path) :
    Removal Node :=
  match unlinked with
  | .ok tree => ⟨true, tree, []⟩
  | .error .noEntry => ⟨true, tree, []⟩
  | .error e => ⟨false, tree, [fileRecord description id path e]⟩

/-- Removes a file; one that is not there is as good. -/
def removeFile (fs : FileSystem) (id description : Text) (path : Path) : Removal FileSystem :=
  let r := fileRemoval fs.tree (fs.tree.unlink (fs.locate path)) id description path
  ⟨r.ok, { fs with tree := r.left }, r.records⟩

/-- The resolved location of what stands under the directory at `base`; the names in `below` are
those of its entries, of their entries and so on.  The way to the directory is gone anew each time,
and the last link on it is followed if `through` is set or there are names to follow. -/
def resolveBelow (tree : Node) (through : Bool) (base below : Location) : Except Errno Location := do
  return (← tree.resolve (through || !below.isEmpty) base) ++ below

/-- The node under the directory at `base`. -/
def findBelow (tree : Node) (through : Bool) (base below : Location) : Except Errno Node := do
  match tree.lookup (← resolveBelow tree through base below) with
  | some n => .ok n
  | none => .error .noEntry

/-- The names in a directory under the one at `base`. -/
def listBelow (tree : Node) (base below : Location) : Except Errno (List Text) := do
  match ← findBelow tree true base below with
  | .directory _ closed es => if closed then .error .refused else .ok (es.map (·.1))
  | _ => .error .notADirectory

/-- There is a directory under the one at `base`, and no link to one. -/
def hasDirectoryBelow (tree : Node) (base below : Location) : Bool :=
  match findBelow tree false base below with
  | .ok n => n.isDirectory
  | .error _ => false

/-- Removes a file or a link under the directory at `base`. -/
def unlinkBelow (tree : Node) (base below : Location) : Except Errno Node := do
  tree.unlinkHere (← resolveBelow tree false base below)

/-- Removes an empty directory, which is under the one at `base` or that one itself. -/
def removeDirectoryBelow (tree : Node) (base below : Location) : Except Errno Node := do
  tree.removeDirectoryHere (← resolveBelow tree false base below)

/-- What the removal of a directory came to, once its entries were seen to. -/
def directoryRemoval (inner : Removal Node) (removed : Except Errno Node) (id : Text) (path : Path) :
    Removal Node :=
  match removed with
  | .ok tree => ⟨inner.ok, tree, inner.records⟩
  | .error .noEntry => ⟨true, inner.left, inner.records⟩
  | .error e => ⟨false, inner.left, inner.records ++ [directoryRecord id path e]⟩

mutual

/-- Removes a directory with everything in it, given what stood there at first. -/
def removeDirectory (id : Text) (base : Location) (tree : Node) (below : Location) (path : Path) :
    Node → Removal Node
  | .directory _ _ es =>
    match listBelow tree base below with
    | .ok _ =>
      let inner := removeEntries id base tree below path es
      directoryRemoval inner (removeDirectoryBelow inner.left base below) id path
    | .error .noEntry => ⟨true, tree, []⟩
    | .error e => ⟨false, tree, [directoryRecord id path e]⟩
  | _ => ⟨false, tree, [directoryRecord id path .notADirectory]⟩

/-- Removes the entries of a directory, one after the other. -/
def removeEntries (id : Text) (base : Location) (tree : Node) (below : Location) (path : Path) :
    List (Text × Node) → Removal Node
  | [] => ⟨true, tree, []⟩
  | (name, n) :: rest =>
    let entry := below ++ [name]
    let one :=
      if hasDirectoryBelow tree base entry then
        removeDirectory id base tree entry (path.child name) n
      else
        fileRemoval tree (unlinkBelow tree base entry) id (text "scratch file") (path.child name)
    let others := removeEntries id base one.left below path rest
    ⟨one.ok && others.ok, others.left, one.records ++ others.records⟩

end

/-- Removes a scratch directory from a tree; one that is not there is as good.  A link to a directory
is no directory: what it leads to is emptied, and the link stays. -/
def removeAt (tree : Node) (l : Location) (id : Text) (path : Path) : Removal Node :=
  match tree.find true l with
  | .ok n => removeDirectory id l tree [] path n
  | .error .noEntry => ⟨true, tree, []⟩
  | .error e => ⟨false, tree, [directoryRecord id path e]⟩

/-- Removes a scratch directory; one that is not there is as good. -/
def removeScratch (fs : FileSystem) (id : Text) (path : Path) : Removal FileSystem :=
  let r := removeAt fs.tree (fs.locate path) id path
  ⟨r.ok, { fs with tree := r.left }, r.records⟩

end ChatCommands.Sandbox
