import ChatCommands.Text.Ansi

/-!
The screen: what a command writes, and where.

Styles are control sequences around a text.  They reach a terminal only; a file or a pipe gets the
text without any control sequence, whoever has written it.
-/

namespace ChatCommands.Cli

/-- A style of a text. -/
inductive Style
  | bold
  | dim
  | red
  | green
  | yellow
  deriving DecidableEq, Repr

/-- The control sequence with a number. -/
def controlSequence (number : String) : Text := 27 :: text ("[" ++ number ++ "m")

/-- The control sequence that starts a style. -/
def Style.start : Style → Text
  | bold => controlSequence "1"
  | dim => controlSequence "2"
  | red => controlSequence "31"
  | green => controlSequence "32"
  | yellow => controlSequence "33"

/-- A text in styles. -/
def styled (styles : List Style) (t : Text) : Text :=
  styles.flatMap Style.start ++ t ++ controlSequence "0"

/-- What was written so far, and which of the two outputs are terminals. -/
structure Screen where
  stdout : Text := []
  stderr : Text := []
  stdoutTerminal : Bool := false
  stderrTerminal : Bool := false
  deriving DecidableEq, Repr, Inhabited

namespace Screen

/-- A text as it reaches its output. -/
def shown (terminal : Bool) (t : Text) : Text := if terminal then t else Text.withoutAnsi t

/-- Writes to the standard output. -/
def print (s : Screen) (t : Text) : Screen :=
  { s with stdout := s.stdout ++ shown s.stdoutTerminal t }

/-- Writes to the standard error output. -/
def report (s : Screen) (t : Text) : Screen :=
  { s with stderr := s.stderr ++ shown s.stderrTerminal t }

/-- Writes a line to the standard output. -/
def printLine (s : Screen) (t : Text) : Screen := s.print (t ++ [10])

/-- Writes a line to the standard error output. -/
def reportLine (s : Screen) (t : Text) : Screen := s.report (t ++ [10])

end Screen

end ChatCommands.Cli
