import ChatCommands.Journal.Record
import ChatCommands.Review.Catalog
import ChatCommands.Run
import ChatCommands.Text.Utf8

/-!
Review of scripts before they run.

A script must not be blank, must hold neither NUL nor surrogates, must not be too large, and must
use no denied construct.  The first check that fails decides; its reason is safe to show to users.
-/

namespace ChatCommands

/-- What a review is made with: the size limit in bytes and the catalog. -/
structure Reviewer where
  maxBytes : Int := 5000
  catalog : Catalog := Catalog.bundled

namespace Reviewer

/-- The first rule that applies to the language and occurs in the script. -/
def denied? (r : Reviewer) (l : Option Language) (code : Text) : Option Rule :=
  (r.catalog.rulesFor l).find? (·.pattern.occursIn code)

/-- A refusal with its reason and category. -/
def refuse (reason category : Text) : Verdict := ⟨false, some reason, some category⟩

/-- The refusal of a script for its form, whatever the language. -/
def malformed? (r : Reviewer) (code : Text) : Option Verdict :=
  if (Text.strip code).isEmpty then some (refuse (text "Code cannot be empty") (text "empty"))
  else if code.contains 0 || code.any Text.isSurrogate then
    some (refuse (text "Code contains invalid characters") (text "invalid_characters"))
  else if r.maxBytes < Utf8.size code then
    some (refuse (text "Code is too large (" ++ Text.ofNat (Utf8.size code) ++
      text " bytes, max " ++ Text.ofInt r.maxBytes ++ text ")") (text "size_limit"))
  else none

/-- The verdict on a script in the language of this label. -/
def review (r : Reviewer) (label code : Text) : Verdict :=
  match r.malformed? code, r.denied? (Language.ofLabel? label) code with
  | some v, _ => v
  | none, some rule => refuse (text "Code uses a disallowed feature") rule.category
  | none, none => ⟨true, none, none⟩

/-- What a review logs: a denied construct. -/
def records (r : Reviewer) (label code : Text) : List LogRecord :=
  match r.malformed? code, r.denied? (Language.ofLabel? label) code with
  | none, some rule =>
    [⟨.debug, .review, text "Denylisted construct found",
      [("language", .str label), ("category", .str rule.category)]⟩]
  | _, _ => []

/-- What a review logs, and its verdict. -/
def examine (r : Reviewer) (label code : Text) : List LogRecord × Verdict :=
  (r.records label code, r.review label code)

end Reviewer

end ChatCommands
