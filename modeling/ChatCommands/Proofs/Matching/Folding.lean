import ChatCommands.Matching
import ChatCommands.Proofs.Text.Folding

/-!
Matching that takes no notice of case.

Folding distributes over concatenation, keeps beginnings, leaves no text empty and has nothing left
to do the second time.  So a trigger that matches as it stands still matches once everything is
folded, only the foldings of the texts count then, and a prefix may be written in front of the
trigger.
-/

namespace ChatCommands.Matching

open Text

theorem normalize_append (caseInsensitive : Bool) (s t : Text) :
    normalize caseInsensitive (s ++ t) =
      normalize caseInsensitive s ++ normalize caseInsensitive t := by
  cases caseInsensitive
  · rfl
  · exact fold_append s t

/-! ### Texts in their folded form -/

/-- The convention with its prefixes folded. -/
def Convention.folded (cv : Convention) : Convention :=
  { cv with tenantSigil := cv.tenantSigil.map fold, defaultSigil := fold cv.defaultSigil }

/-- The command with its trigger and its prefix folded. -/
def folded (c : Command) : Command :=
  { c with trigger := fold c.trigger, sigil := c.sigil.map fold }

/-- The command as one without a prefix: it stands in front of the trigger. -/
def spelledOut (cv : Convention) (c : Command) : Command :=
  { c with mode := .startsWith, trigger := sigilOf cv c ++ c.trigger }

theorem orElse_fold (t : Option Text) (other : Text) :
    orElse (t.map fold) (fold other) = fold (orElse t other) := by
  rcases t with _ | t
  · rfl
  · cases hfold : fold t with
    | nil =>
      rw [fold_eq_nil_iff] at hfold
      subst hfold
      rfl
    | cons d s =>
      cases t with
      | nil => cases hfold
      | cons c t => simp [orElse, hfold]

theorem sigilOf_folded (cv : Convention) (c : Command) :
    sigilOf cv.folded (folded c) = fold (sigilOf cv c) := by
  simp only [sigilOf, Convention.folded, folded, orElse_fold]

/-! ### What matches -/

/-- What a message must begin with for the command, or be. -/
def spelled (cv : Convention) (c : Command) : Text :=
  match c.mode with
  | .prefixed => sigilOf cv c ++ c.trigger
  | .exact | .startsWith => c.trigger

/-- The message reads as the command asks for. -/
def Reads (mode : MatchMode) (spelled content : Text) : Prop :=
  match mode with
  | .exact => content = spelled
  | .prefixed | .startsWith => spelled <+: content

theorem triggers_iff {cv : Convention} {c : Command} {content : Text} :
    triggers cv c content = true ↔ Reads c.mode (normalize cv.caseInsensitive (spelled cv c))
      (normalize cv.caseInsensitive content) := by
  unfold triggers spelled Reads
  cases c.mode with
  | prefixed => rw [normalize_append]; exact List.isPrefixOf_iff_prefix
  | exact => exact beq_iff_eq
  | startsWith => exact List.isPrefixOf_iff_prefix

theorem Reads.fold {mode : MatchMode} {spelled content : Text} (h : Reads mode spelled content) :
    Reads mode (Text.fold spelled) (Text.fold content) := by
  cases mode with
  | exact => exact congrArg Text.fold h
  | prefixed => exact fold_isPrefix h
  | startsWith => exact fold_isPrefix h

theorem spelled_folded (cv : Convention) (c : Command) :
    spelled cv.folded (folded c) = fold (spelled cv c) := by
  have hmode : (folded c).mode = c.mode := rfl
  unfold spelled
  rw [hmode]
  cases c.mode with
  | prefixed =>
    change sigilOf cv.folded (folded c) ++ fold c.trigger = fold (sigilOf cv c ++ c.trigger)
    rw [sigilOf_folded, fold_append]
  | exact => rfl
  | startsWith => rfl

variable (cv : Convention) (c : Command) (content : Text)

/-- A message that triggers a command with its case does so without. -/
theorem triggers_of_caseSensitive
    (h : triggers { cv with caseInsensitive := false } c content = true) :
    triggers { cv with caseInsensitive := true } c content = true :=
  triggers_iff.mpr (triggers_iff.mp h).fold

/-- Without case only the foldings of the texts count. -/
theorem triggers_folded :
    triggers { cv.folded with caseInsensitive := true } (folded c) (fold content) =
      triggers { cv with caseInsensitive := true } c content := by
  have hspelled : spelled { cv.folded with caseInsensitive := true } (folded c) =
      fold (spelled { cv with caseInsensitive := true } c) := spelled_folded cv c
  rw [Bool.eq_iff_iff, triggers_iff, triggers_iff, hspelled]
  simp only [normalize, if_true, fold_fold, folded]

/-- A prefix may be written in front of the trigger. -/
theorem triggers_spelledOut :
    triggers cv (spelledOut cv c) content = triggers cv { c with mode := .prefixed } content := by
  rw [Bool.eq_iff_iff, triggers_iff, triggers_iff]
  rfl

/-- **Matching without case is a sound coarsening.**  What matches with case matches without it;
without case only the foldings of the texts count; and with or without it a command with a prefix
matches just as one that begins with the prefix and the trigger. -/
theorem caseless_coarsens :
    (triggers { cv with caseInsensitive := false } c content = true →
      triggers { cv with caseInsensitive := true } c content = true) ∧
    triggers { cv.folded with caseInsensitive := true } (folded c) (fold content) =
      triggers { cv with caseInsensitive := true } c content ∧
    ∀ caseInsensitive,
      triggers { cv with caseInsensitive } { c with mode := .prefixed } content =
        triggers { cv with caseInsensitive } (spelledOut cv c) content :=
  ⟨triggers_of_caseSensitive cv c content, triggers_folded cv c content,
    fun caseInsensitive => (triggers_spelledOut { cv with caseInsensitive } c content).symm⟩

/-- A command whose trigger grows when it is folded. -/
def street : Command where
  id := text "street"
  tenant := text "tenant"
  trigger := text "straße"
  language := text "python"
  code := text "print(1)"

theorem caseless_coarsens_street :
    triggers { caseInsensitive := false } street (text "!straße 5") = true ∧
    triggers {} street (text "!straße 5") = true ∧
    triggers {} (folded street) (text "!strasse 5") = true := by
  have hmatches : triggers { caseInsensitive := false } street (text "!straße 5") = true := by
    decide +kernel
  obtain ⟨hcoarser, hfolded, -⟩ := caseless_coarsens {} street (text "!straße 5")
  refine ⟨hmatches, hcoarser hmatches, ?_⟩
  rw [← hcoarser hmatches, ← hfolded]
  decide +kernel

end ChatCommands.Matching
