import ChatCommands.Proofs.Pattern.LineEnds
import ChatCommands.Proofs.Review.Verdict
import ChatCommands.Proofs.Text.Ascii
import Mathlib.Data.List.Basic

/-!
Reviews and the conventions for line ends.

Interpreters take a carriage return for the end of a line, with a line feed behind it or without; the
patterns of a catalog begin a line only behind a line feed.  So a script may be accepted that is
refused once its line ends are unified.  `unified_accepted_iff` says exactly when: a statement that the
catalog denies at the start of a line stands behind a lone carriage return.
-/

namespace ChatCommands

open Text

theorem size_unifyLineEnds (t : Text) : Utf8.size (unifyLineEnds t) ≤ Utf8.size t := by
  induction t using lineEnd_induction with
  | nil => exact Nat.le_refl _
  | pair rest ih =>
    have hten : Utf8.size (10 :: unifyLineEnds rest) = 1 + Utf8.size (unifyLineEnds rest) := rfl
    have hpair : Utf8.size (13 :: 10 :: rest) = 1 + (1 + Utf8.size rest) := rfl
    rw [unifyLineEnds, hten, hpair]
    omega
  | point c rest hc ih =>
    have hpoint : Utf8.pointSize (lineEnd c) = Utf8.pointSize c := by
      unfold lineEnd
      split
      · rename_i h
        rw [h]
        rfl
      · rfl
    rw [unifyLineEnds_cons hc]
    change Utf8.pointSize (lineEnd c) + Utf8.size (unifyLineEnds rest) ≤
      Utf8.pointSize c + Utf8.size rest
    omega

/-- The form of a script does not get worse by other line ends. -/
theorem Reviewer.malformed?_unified {r : Reviewer} {code : Text} (h : r.malformed? code = none) :
    r.malformed? (unifyLineEnds code) = none := by
  obtain ⟨hblank, hzero, hpaired, hsize⟩ := malformed?_eq_none.mp h
  have hany : ∀ p : Nat → Bool, p 10 = p 13 →
      (unifyLineEnds code).any p = code.any p := by
    intro p hp
    have hall := all_unifyLineEnds (p := fun c => !p c) (by rw [hp]) code
    rwa [← List.not_any_eq_all_not, ← List.not_any_eq_all_not, Bool.not_inj_iff] at hall
  refine malformed?_eq_none.mpr ⟨?_, ?_, ?_, ?_⟩
  · rw [isBlankText, all_unifyLineEnds rfl]
    exact hblank
  · rw [List.contains_eq_any_beq, hany _ rfl, ← List.contains_eq_any_beq]
    exact hzero
  · rw [hany _ rfl]
    exact hpaired
  · have hless := size_unifyLineEnds code
    omega

namespace Catalog

/-- A catalog of written rules, all of whose literals are in ASCII, made up from their bytes. -/
def ofBytes (rules : List (String × List (String × String))) : Catalog :=
  rules.map fun (key, rules) => (bytes key, rules.filterMap fun (category, pattern) =>
    (Pattern.parse? (bytes pattern)).map (Rule.mk (bytes category)))

theorem bundled_eq_ofBytes : bundled = ofBytes bundledRules := by
  have hascii : ∀ entry ∈ bundledRules, ((bytes entry.1).all (· < 128) && entry.2.all fun rule =>
      (bytes rule.1).all (· < 128) && (bytes rule.2).all (· < 128)) = true :=
    List.all_eq_true.mp (by decide +kernel)
  refine List.map_congr_left fun entry hentry => ?_
  have hentry := hascii entry hentry
  simp only [Bool.and_eq_true] at hentry
  refine Prod.ext (text_eq_bytes hentry.1) (List.filterMap_congr fun rule hrule => ?_)
  obtain ⟨hcategory, hpattern⟩ := (Bool.and_eq_true _ _).mp (List.all_eq_true.mp hentry.2 rule hrule)
  simp only [text_eq_bytes hcategory, text_eq_bytes hpattern]

/-- Its rules do not tell the conventions for line ends apart, but for the start of a line; those that
look there are about modules, in two languages. -/
theorem bundled_lineEnds (l : Option Language) : ∀ rule ∈ bundled.rulesFor l,
    (rule.pattern.even && (rule.pattern.afterLineStart.isEmpty ||
      rule.category == text "module_access" && (l == some .javascript || l == some .python))) =
      true := by
  rw [bundled_eq_ofBytes]
  refine List.all_eq_true.mp ?_
  rcases l with _ | _ | _ | _ <;> decide +kernel

theorem bundled_even {l : Option Language} {rule : Rule} (hrule : rule ∈ bundled.rulesFor l) :
    rule.pattern.even = true :=
  ((Bool.and_eq_true _ _).mp (bundled_lineEnds l rule hrule)).1

/-- A statement denied at the start of a line stands behind a lone carriage return. -/
def DeniedBehindReturn (l : Option Language) (code : Text) : Prop :=
  ∃ rule ∈ bundled.rulesFor l, rule.pattern.BehindReturn code

variable {l : Option Language} {code : Text}

theorem module_access_of_behindReturn {rule : Rule} (hrule : rule ∈ bundled.rulesFor l)
    (h : rule.pattern.BehindReturn code) :
    rule.category = text "module_access" ∧ (l = some .javascript ∨ l = some .python) := by
  obtain ⟨-, -, -, -, q, hq, -⟩ := h
  have hlines := ((Bool.and_eq_true _ _).mp (bundled_lineEnds l rule hrule)).2
  rw [List.isEmpty_eq_false_iff_exists_mem.mpr ⟨q, hq⟩, Bool.false_or] at hlines
  simpa using hlines

end Catalog

namespace Reviewer

variable {maxBytes : Int} {label code : Text}

/-- Once the line ends of an accepted script are unified, the rules that occur in it are those that
deny a statement behind a lone carriage return. -/
theorem occursIn_unified_iff (h : (review ⟨maxBytes, .bundled⟩ label code).ok = true) {rule : Rule}
    (hrule : rule ∈ Catalog.bundled.rulesFor (Language.ofLabel? label)) :
    rule.pattern.occursIn (unifyLineEnds code) = true ↔ rule.pattern.BehindReturn code := by
  constructor
  · intro hoccurs
    rcases Pattern.occursIn_unified (Catalog.bundled_even hrule) hoccurs with hbefore | hreturn
    · rw [review_ok h hrule] at hbefore
      cases hbefore
    · exact hreturn
  · exact Pattern.BehindReturn.occursIn

/-- **The verdict on an accepted script whose line ends are unified.**  It is accepted again, unless it
is JavaScript or Python and the catalog denies a statement that stands behind a lone carriage return:
then it is refused for its access to modules. -/
theorem review_unifyLineEnds (h : (review ⟨maxBytes, .bundled⟩ label code).ok = true) :
    (¬ Catalog.DeniedBehindReturn (Language.ofLabel? label) code ∧
      review ⟨maxBytes, .bundled⟩ label (unifyLineEnds code) = ⟨true, none, none⟩) ∨
    (Catalog.DeniedBehindReturn (Language.ofLabel? label) code ∧
      (Language.ofLabel? label = some .javascript ∨ Language.ofLabel? label = some .python) ∧
      review ⟨maxBytes, .bundled⟩ label (unifyLineEnds code) =
        refuse (text "Code uses a disallowed feature") (text "module_access")) := by
  have hform := malformed?_unified (review_ok_iff.mp h).1
  by_cases hreturn : Catalog.DeniedBehindReturn (Language.ofLabel? label) code
  · refine .inr ⟨hreturn, ?_⟩
    obtain ⟨rule, hrule, hreturn⟩ := hreturn
    obtain ⟨found, hfound⟩ := exists_denied (r := ⟨maxBytes, .bundled⟩) hrule hreturn.occursIn
    obtain ⟨hmem, hoccurs⟩ := denied?_spec hfound
    obtain ⟨hcategory, hlanguage⟩ := Catalog.module_access_of_behindReturn hmem
      ((occursIn_unified_iff h hmem).mp hoccurs)
    refine ⟨hlanguage, ?_⟩
    rw [review_of_denied hform hfound, hcategory]
  · refine .inl ⟨hreturn, review_of_allowed hform fun rule hrule => ?_⟩
    refine Bool.eq_false_iff.mpr fun hoccurs => hreturn ⟨rule, hrule, ?_⟩
    exact (occursIn_unified_iff h hrule).mp hoccurs

/-- An import of Python that no rule sees, but for the unified text. -/
theorem review_return : (review {} (text "python") (text "x=1\rimport os")).ok = true ∧
    (review {} (text "python") (unifyLineEnds (text "x=1\rimport os"))).ok = false := by
  rw [show ({} : Reviewer) = ⟨5000, Catalog.ofBytes Catalog.bundledRules⟩ from
    congrArg (Reviewer.mk 5000) Catalog.bundled_eq_ofBytes]
  decide +kernel

theorem review_unifyLineEnds_return :
    (review {} (text "python") (text "x=1\rimport os")).ok = true ∧
    Catalog.DeniedBehindReturn (Language.ofLabel? (text "python")) (text "x=1\rimport os") := by
  refine ⟨review_return.1, ?_⟩
  rcases review_unifyLineEnds review_return.1 with ⟨-, hverdict⟩ | ⟨hdenied, -, -⟩
  · have hrefused := review_return.2
    rw [hverdict] at hrefused
    cases hrefused
  · exact hdenied

theorem not_all_accepted_unified : ¬ ∀ label code : Text, (review {} label code).ok = true →
    (review {} label (unifyLineEnds code)).ok = true := by
  intro h
  have hunified := h _ _ review_return.1
  rw [review_return.2] at hunified
  cases hunified

end Reviewer

end ChatCommands
