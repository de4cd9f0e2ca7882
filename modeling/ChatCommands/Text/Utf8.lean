import ChatCommands.Text.Basic

/-!
UTF-8: encoding, strict decoding, and decoding with replacement.

A decoder takes one scalar value off the front of the bytes at a time.  Where the bytes are not
well formed, the defect covers the longest prefix that could still have begun a scalar value; the
strict decoder reports the defect with its place, the replacing decoder writes one U+FFFD for it.
-/

namespace ChatCommands

/-- A sequence of bytes. -/
abbrev Bytes := List UInt8

namespace Utf8

/-- What is wrong with ill-formed bytes. -/
inductive Defect
  | invalidStart
  | invalidContinuation
  | unexpectedEnd
  deriving DecidableEq, Repr

/-- A defect and the bytes it covers: `length` bytes from index `start`. -/
structure Malformed where
  defect : Defect
  start : Nat
  length : Nat
  first : UInt8

/-- The outcome of reading at the front of some bytes: a scalar value or a defect, with the number
of bytes after the first that belong to it. -/
inductive Front
  | scalar (value extra : Nat)
  | defect (d : Defect) (extra : Nat)

/-- The second bytes that may follow a lead byte, and the number of further bytes: the ranges leave
out overlong forms, surrogates and values above U+10FFFF. -/
def follow (lead : Nat) : Option (Nat × Nat × Nat) :=
  if 0xC2 ≤ lead && lead ≤ 0xDF then some (0x80, 0xBF, 0)
  else if lead = 0xE0 then some (0xA0, 0xBF, 1)
  else if lead = 0xED then some (0x80, 0x9F, 1)
  else if 0xE1 ≤ lead && lead ≤ 0xEF then some (0x80, 0xBF, 1)
  else if lead = 0xF0 then some (0x90, 0xBF, 2)
  else if 0xF1 ≤ lead && lead ≤ 0xF3 then some (0x80, 0xBF, 2)
  else if lead = 0xF4 then some (0x80, 0x8F, 2)
  else none

/-- The payload bits of a lead byte with `tail` bytes after the second. -/
def leadBits (lead tail : Nat) : Nat := lead % Nat.pow 2 (5 - tail)

/-- Reads `tail` continuation bytes after `taken` bytes of a scalar value. -/
def readTail (value taken : Nat) : (tail : Nat) → Bytes → Front
  | 0, _ => .scalar value taken
  | _ + 1, [] => .defect .unexpectedEnd taken
  | tail + 1, b :: rest =>
    if 0x80 ≤ b.toNat && b.toNat ≤ 0xBF then
      readTail (value * 64 + b.toNat % 64) (taken + 1) tail rest
    else .defect .invalidContinuation taken

/-- Reads the first scalar value of `lead :: rest`. -/
def readFront (lead : UInt8) (rest : Bytes) : Front :=
  if lead.toNat < 0x80 then .scalar lead.toNat 0
  else
    match follow lead.toNat, rest with
    | none, _ => .defect .invalidStart 0
    | some _, [] => .defect .unexpectedEnd 0
    | some (lo, hi, tail), b :: rest =>
      if lo ≤ b.toNat && b.toNat ≤ hi then
        readTail (leadBits lead.toNat tail * 64 + b.toNat % 64) 1 tail rest
      else .defect .invalidContinuation 0

/-- Decodes the bytes; one U+FFFD stands for each defect. -/
def decodeLossy : Bytes → Text
  | [] => []
  | b :: rest =>
    match readFront b rest with
    | .scalar v extra => v :: decodeLossy (rest.drop extra)
    | .defect _ extra => 0xFFFD :: decodeLossy (rest.drop extra)
termination_by bs => bs.length
decreasing_by all_goals (simp only [List.length_drop, List.length_cons]; omega)

/-- Decodes the bytes from index `start` on, or reports the first defect. -/
def decodeFrom (start : Nat) : Bytes → Except Malformed Text
  | [] => .ok []
  | b :: rest =>
    match readFront b rest with
    | .scalar v extra => (decodeFrom (start + 1 + extra) (rest.drop extra)).map (v :: ·)
    | .defect d extra => .error ⟨d, start, 1 + extra, b⟩
termination_by bs => bs.length
decreasing_by simp only [List.length_drop, List.length_cons]; omega

/-- Decodes the bytes, or reports the first defect. -/
def decode (bs : Bytes) : Except Malformed Text := decodeFrom 0 bs

/-- The bytes of one code point, which need not be a scalar value. -/
def encodePoint (c : Nat) : Bytes :=
  if c < 0x80 then [c.toUInt8]
  else if c < 0x800 then [(0xC0 + c / 64).toUInt8, (0x80 + c % 64).toUInt8]
  else if c < 0x10000 then
    [(0xE0 + c / 4096).toUInt8, (0x80 + c / 64 % 64).toUInt8, (0x80 + c % 64).toUInt8]
  else
    [(0xF0 + c / 262144).toUInt8, (0x80 + c / 4096 % 64).toUInt8, (0x80 + c / 64 % 64).toUInt8,
      (0x80 + c % 64).toUInt8]

/-- The number of bytes of one code point. -/
def pointSize (c : Nat) : Nat :=
  if c < 0x80 then 1 else if c < 0x800 then 2 else if c < 0x10000 then 3 else 4

/-- The bytes of a text; there are none if it holds a surrogate. -/
def encode (t : Text) : Option Bytes :=
  if t.any Text.isSurrogate then none else some (t.flatMap encodePoint)

/-- The number of bytes that encoding a text without surrogates takes. -/
def size (t : Text) : Nat := t.foldr (fun c n => pointSize c + n) 0

/-- The wording of a defect. -/
def Malformed.message (m : Malformed) : Text :=
  let reason := match m.defect with
    | .invalidStart => "invalid start byte"
    | .invalidContinuation => "invalid continuation byte"
    | .unexpectedEnd => "unexpected end of data"
  let place :=
    if m.length = 1 then
      text "byte 0x" ++ Text.ofHex 2 m.first.toNat ++ text " in position " ++ Text.ofNat m.start
    else
      text "bytes in position " ++ Text.ofNat m.start ++ text "-" ++
        Text.ofNat (m.start + m.length - 1)
  text "'utf-8' codec can't decode " ++ place ++ text ": " ++ text reason

end Utf8

end ChatCommands
