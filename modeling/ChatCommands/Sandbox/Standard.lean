import ChatCommands.Config
import ChatCommands.Sandbox.Execution
import ChatCommands.Settings

/-!
The standard runtimes: one for each language, set up from the settings of the host and the
configuration of the engine.
-/

namespace ChatCommands.Sandbox

open Concurrency

variable {ω : Type}

/-- The program that runs the scripts of a language. -/
def binaryOf (s : Settings) : Language → Text
  | .javascript => s.nodeBin
  | .python => s.pythonBin
  | .go => s.goBin

/-- The runtime of a language. -/
def runtimeOf (s : Settings) (c : Config) (l : Language) : Runtime where
  language := l
  binary := binaryOf s l
  scratchRoot := s.scratchDir
  wrapper := s.wrapper
  maxOutputBytes := c.maxOutputBytes
  maxExcerptChars := c.maxExcerptChars
  memoryMb := c.memoryMb
  cacheDir := s.goCacheDir

/-- The runtimes of all languages. -/
def standard (s : Settings) (c : Config) : List Runtime := Language.all.map (runtimeOf s c)

/-- What runs the scripts of each language. -/
def runners (h : Part ω Host) (rs : List Runtime) : Engine.Runtimes ω :=
  rs.map fun r => (r.language, execute h r)

/-- Which interpreters can be found; the others are logged. -/
def probeAll (h : Part ω Host) (rs : List Runtime) : Action ω (List (Language × Bool)) := do
  let found ← rs.mapM fun r => return (r.language, ← probe h r)
  let missing := found.filterMap fun (l, ok) => if ok then none else some (text l.name)
  if !missing.isEmpty then
    Action.log .warning .pool (text "Interpreters missing") [("languages", .texts missing)]
  pure found

end ChatCommands.Sandbox
