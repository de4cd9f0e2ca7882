import ChatCommands.Host.Process

/-!
The host: its files, its programs, and the processes that were started on it.
-/

namespace ChatCommands

/-- The state of the host. -/
structure Host where
  files : Host.FileSystem := {}
  /-- The directory for temporary files. -/
  temporary : Host.Path := .ofText (text "/tmp")
  /-- The programs that are found by their name or path. -/
  installed : List Text := []
  /-- How a process behaves. -/
  behaviour : Host.Launch → Host.Behaviour := fun _ => {}
  /-- How many scratch directories were made. -/
  scratchCount : Nat := 0
  /-- The starts that were tried, latest first. -/
  launches : List Host.Launch := []
  /-- The processes in the order of their start. -/
  processes : List Host.Process := []
  /-- What was done to processes, latest first. -/
  calls : List Host.ProcessCall := []
  deriving Inhabited

namespace Host

/-- The path of a program, if it is found. -/
def which (h : Host) (program : Text) : Option Text :=
  if h.installed.contains program then some (text "/bin/" ++ program) else none

/-- Changes the process number `n`. -/
def modifyProcess (h : Host) (n : Nat) (f : Process → Process) : Host :=
  { h with processes := h.processes.modify n f }

/-- The process number `n`. -/
def process (h : Host) (n : Nat) : Process := h.processes[n]?.getD default

/-- The files that a process leaves, with the directories above them. -/
def leaveFiles (fs : FileSystem) (directory : Path) (files : List Location) : FileSystem :=
  files.foldl (fun fs names =>
    let above := (directory.names ++ names.dropLast).reverse
    match fs.makeDirectories directory.root above with
    | .ok fs =>
      let path : Path := ⟨directory.root, directory.names ++ names⟩
      match fs.tree.create (fs.locate path) (.file false []) with
      | .ok tree => { fs with tree }
      | .error _ => fs
    | .error _ => fs) fs

end Host

end ChatCommands
