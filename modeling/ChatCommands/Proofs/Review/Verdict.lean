import ChatCommands.Review.Basic

/-!
Verdicts: a script is accepted if it is well formed and none of the rules that apply to its language
occurs in it, and in no other case.
-/

namespace ChatCommands.Reviewer

variable {r : Reviewer} {label code : Text}

theorem malformed?_ok {v : Verdict} (h : r.malformed? code = some v) : v.ok = false := by
  unfold malformed? at h
  split at h
  · cases h
    rfl
  · split at h
    · cases h
      rfl
    · split at h <;> cases h
      rfl

theorem malformed?_eq_none : r.malformed? code = none ↔
    Text.isBlankText code = false ∧ code.contains 0 = false ∧ code.any Text.isSurrogate = false ∧
      (Utf8.size code : Int) ≤ r.maxBytes := by
  unfold malformed?
  have hblank : (Text.strip code).isEmpty = Text.isBlankText code := by
    rw [Bool.eq_iff_iff, List.isEmpty_iff, Text.strip_eq_nil_iff]
  rw [hblank]
  split
  · rename_i h
    simp [h]
  · rename_i hsound
    split
    · rename_i h
      refine iff_of_false nofun fun ⟨_, hzero, hpaired, _⟩ => ?_
      rw [hzero, hpaired] at h
      cases h
    · rename_i hclean
      obtain ⟨hzero, hpaired⟩ : code.contains 0 = false ∧ code.any Text.isSurrogate = false := by
        rwa [← Bool.or_eq_false_iff, ← Bool.not_eq_true]
      split
      · rename_i hlarge
        exact iff_of_false nofun fun ⟨_, _, _, hfits⟩ => Int.not_le.mpr hlarge hfits
      · rename_i hfits
        exact iff_of_true rfl
          ⟨Bool.eq_false_iff.mpr hsound, hzero, hpaired, Int.not_lt.mp hfits⟩

theorem denied?_spec {l : Option Language} {rule : Rule} (h : r.denied? l code = some rule) :
    rule ∈ r.catalog.rulesFor l ∧ rule.pattern.occursIn code = true := by
  have hoccurs := List.find?_some h
  exact ⟨List.mem_of_find?_eq_some h, hoccurs⟩

theorem exists_denied {l : Option Language} {rule : Rule} (hrule : rule ∈ r.catalog.rulesFor l)
    (h : rule.pattern.occursIn code = true) : ∃ found, r.denied? l code = some found :=
  Option.isSome_iff_exists.mp (List.find?_isSome.mpr ⟨rule, hrule, h⟩)

theorem review_of_denied {rule : Rule} (hform : r.malformed? code = none)
    (h : r.denied? (Language.ofLabel? label) code = some rule) :
    r.review label code = refuse (text "Code uses a disallowed feature") rule.category := by
  rw [review, hform, h]

theorem review_of_allowed (hform : r.malformed? code = none)
    (h : ∀ rule ∈ r.catalog.rulesFor (Language.ofLabel? label), rule.pattern.occursIn code = false) :
    r.review label code = ⟨true, none, none⟩ := by
  have hdenied : r.denied? (Language.ofLabel? label) code = none :=
    List.find?_eq_none.mpr fun rule hrule => Bool.eq_false_iff.mp (h rule hrule)
  rw [review, hform, hdenied]

theorem review_ok_iff : (r.review label code).ok = true ↔ r.malformed? code = none ∧
    ∀ rule ∈ r.catalog.rulesFor (Language.ofLabel? label), rule.pattern.occursIn code = false := by
  constructor
  · intro h
    unfold review denied? at h
    split at h
    · rename_i hmalformed
      rw [malformed?_ok hmalformed] at h
      cases h
    · cases h
    · rename_i hmalformed hdenied
      exact ⟨hmalformed, fun rule hrule =>
        Bool.eq_false_iff.mpr (List.find?_eq_none.mp hdenied rule hrule)⟩
  · rintro ⟨hform, hallowed⟩
    rw [review_of_allowed hform hallowed]

/-- **A script that is accepted hits no rule** of its language. -/
theorem review_ok (h : (r.review label code).ok = true) {rule : Rule}
    (hrule : rule ∈ r.catalog.rulesFor (Language.ofLabel? label)) :
    rule.pattern.occursIn code = false :=
  (review_ok_iff.mp h).2 rule hrule

end ChatCommands.Reviewer
