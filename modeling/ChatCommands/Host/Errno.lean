import ChatCommands.Fault.Basic

/-!
The errors with which the operating system refuses an operation on a path.
-/

namespace ChatCommands.Host

/-- Why the operating system refuses an operation. -/
inductive Errno
  | noEntry
  | refused
  | fileExists
  | notADirectory
  | isADirectory
  | nameTooLong
  | notEmpty
  | tooManyLinks
  deriving DecidableEq, Repr, Inhabited

namespace Errno

/-- The number of an error. -/
def number : Errno → Nat
  | noEntry => 2
  | refused => 13
  | fileExists => 17
  | notADirectory => 20
  | isADirectory => 21
  | nameTooLong => 36
  | notEmpty => 39
  | tooManyLinks => 40

/-- The wording of an error. -/
def reason : Errno → String
  | noEntry => "No such file or directory"
  | refused => "Permission denied"
  | fileExists => "File exists"
  | notADirectory => "Not a directory"
  | isADirectory => "Is a directory"
  | nameTooLong => "File name too long"
  | notEmpty => "Directory not empty"
  | tooManyLinks => "Too many levels of symbolic links"

/-- The kind of fault that an error is. -/
def kind : Errno → FaultKind
  | noEntry => .fileNotFound
  | refused => .permission
  | fileExists => .fileExists
  | notADirectory => .notADirectory
  | isADirectory => .isADirectory
  | nameTooLong | notEmpty | tooManyLinks => .os

/-- The fault of an operation on a path. -/
def fault (e : Errno) (path : Text) : Fault :=
  .of e.kind (text "[Errno " ++ Text.ofNat e.number ++ text "] " ++ text e.reason ++ text ": " ++
    Text.quoted path)

end Errno

end ChatCommands.Host
