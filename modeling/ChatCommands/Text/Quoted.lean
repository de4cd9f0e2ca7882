import ChatCommands.Text.Printable

/-!
Quoted texts, as diagnostics show them.

Single quotes enclose the text, unless it holds a single quote and no double quote; the quote in
use, the backslash and every character that is not printable are escaped.
-/

namespace ChatCommands.Text

/-- One code point inside quotes of the kind `quote`. -/
def escapePoint (quote c : Nat) : Text :=
  if c = quote || c = cp '\\' then [cp '\\', c]
  else if c = 9 then text "\\t"
  else if c = 10 then text "\\n"
  else if c = 13 then text "\\r"
  else if isPrintable c then [c]
  else if c < 0x100 then text "\\x" ++ ofHex 2 c
  else if c < 0x10000 then text "\\u" ++ ofHex 4 c
  else text "\\U" ++ ofHex 8 c

/-- The quotation mark for a text. -/
def quoteFor (t : Text) : Nat :=
  if t.contains (cp '\'') && !t.contains (cp '"') then cp '"' else cp '\''

/-- The text in quotes. -/
def quoted (t : Text) : Text :=
  let q := quoteFor t
  q :: t.flatMap (escapePoint q) ++ [q]

end ChatCommands.Text
