import ChatCommands.Text.Utf8

/-!
Captures: what is kept of the output of a script.

A capture keeps at most a given number of bytes and goes on counting the others, so that a script
that writes much is neither blocked nor kept in memory.
-/

namespace ChatCommands.Sandbox

/-- What is kept of a stream, whether some of it was left out, and how long it was. -/
structure Capture where
  data : Bytes := []
  truncated : Bool := false
  total : Nat := 0
  deriving DecidableEq, Repr, Inhabited

namespace Capture

/-- The capture after one more chunk; no chunk is empty, since an empty one is the end of the
stream. -/
def add (limit : Int) (c : Capture) (chunk : Bytes) : Capture :=
  if chunk.isEmpty then c
  else
    let total := c.total + chunk.length
    { data := c.data ++ chunk.take (limit - c.data.length).toNat
      truncated := c.truncated || limit < total
      total }

/-- The capture of a whole stream, given in chunks. -/
def ofChunks (limit : Int) (chunks : List Bytes) : Capture := chunks.foldl (add limit) {}

end Capture

end ChatCommands.Sandbox
