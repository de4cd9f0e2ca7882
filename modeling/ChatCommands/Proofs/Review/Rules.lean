import ChatCommands.Proofs.Review.Verdict

/-!
What the verdict on a script depends on.

A script is asked to meet some demands, one after the other: four about its form, then one for each
rule that counts for its label.  It is accepted if it meets them all, and else refused for the first
one that it does not meet.  Which rules count is decided by the language that the label resolves to;
further rules only make for further demands.
-/

namespace ChatCommands

/-! ### Where a pattern occurs -/

namespace Pattern

variable {p : Pattern} {t : Text}

/-- The pattern can be read from some place of the text. -/
def Occurs (p : Pattern) (t : Text) : Prop :=
  ∃ before rest, t = before ++ rest ∧ ∃ e, e ∈ p.ends ⟨before.getLast?, rest⟩

theorem readsAt_eq_true_iff {s : Spot} : p.readsAt s = true ↔ ∃ e, e ∈ p.ends s := by
  rw [readsAt, Bool.not_eq_true', List.isEmpty_eq_false_iff_exists_mem]

theorem occursFrom_eq_true_iff {first : Option Nat} : p.occursFrom first t = true ↔
    ∃ before rest, t = before ++ rest ∧ ∃ e, e ∈ p.ends ⟨before.getLast?.or first, rest⟩ := by
  induction t generalizing first with
  | nil =>
    rw [occursFrom, readsAt_eq_true_iff]
    constructor
    · intro h
      exact ⟨[], [], rfl, h⟩
    · rintro ⟨before, rest, hsplit, h⟩
      obtain ⟨rfl, rfl⟩ := List.append_eq_nil_iff.mp hsplit.symm
      exact h
  | cons c t ih =>
    have hlast : ∀ before : Text,
        (c :: before).getLast?.or first = before.getLast?.or (some c) := by
      intro before
      cases hbefore : before.getLast? <;> simp [List.getLast?_cons, hbefore]
    rw [occursFrom, Bool.or_eq_true, readsAt_eq_true_iff, ih]
    constructor
    · rintro (h | ⟨before, rest, rfl, h⟩)
      · exact ⟨[], c :: t, rfl, h⟩
      · exact ⟨c :: before, rest, rfl, by rwa [hlast]⟩
    · rintro ⟨before, rest, hsplit, h⟩
      cases before with
      | nil =>
        subst hsplit
        exact .inl h
      | cons d before =>
        obtain ⟨rfl, rfl⟩ := List.cons.inj hsplit
        exact .inr ⟨before, rest, rfl, by rwa [hlast] at h⟩

theorem occursIn_eq_true_iff : p.occursIn t = true ↔ p.Occurs t := by
  rw [occursIn, occursFrom_eq_true_iff]
  simp only [Option.or_none, Occurs]

end Pattern

/-! ### Rules by key -/

namespace Catalog

variable {c : Catalog} {extra : List (Text × List Rule)} {label : Text}

/-- The further rules that are given under a key. -/
def given (extra : List (Text × List Rule)) (key : Text) : List Rule :=
  (extra.filter (·.1 = key)).flatMap (·.2)

theorem under_extend (c : Catalog) (key : Text) (rules : List Rule) (k : Text) :
    (c.extend key rules).under k = if key = k then c.under k ++ rules else c.under k := by
  induction c with
  | nil =>
    by_cases hk : key = k
    · simp [extend, under, hk]
    · have hk' : (k == key) = false := by simpa using Ne.symm hk
      simp [extend, under, List.lookup_cons, hk, hk']
  | cons entry rest ih =>
    obtain ⟨name, rs⟩ := entry
    unfold extend
    unfold under at ih ⊢
    split
    · rename_i hname
      subst hname
      by_cases hk : name = k
      · simp [hk]
      · have hk' : (k == name) = false := by simpa using Ne.symm hk
        simp [List.lookup_cons, hk, hk']
    · rename_i hname
      rw [List.lookup_cons, List.lookup_cons]
      by_cases hk : k = name
      · subst hk
        simp [Ne.symm hname]
      · have hk' : (k == name) = false := by simpa using hk
        rw [hk']
        exact ih

/-- Under each key the further rules follow those of the catalog. -/
theorem under_extendAll (c : Catalog) (extra : List (Text × List Rule)) (key : Text) :
    (c.extendAll extra).under key = c.under key ++ given extra key := by
  induction extra generalizing c with
  | nil => simp [extendAll, given]
  | cons entry extra ih =>
    have hstep : c.extendAll (entry :: extra) = (c.extend entry.1 entry.2).extendAll extra := rfl
    rw [hstep, ih, under_extend]
    by_cases hk : entry.1 = key
    · simp [given, hk]
    · simp [given, hk]

/-- The rules under the key count for scripts with the label. -/
def CountsFor (key label : Text) : Prop :=
  key = commonKey ∨ ∃ l, Language.ofLabel? label = some l ∧ key = text l.name

/-- The rules that count for a label: the common ones, then those of its language; under a key first
those of the catalog, then the further ones. -/
def rulesOf (c : Catalog) (extra : List (Text × List Rule)) (label : Text) : List Rule :=
  (c.under commonKey ++ given extra commonKey) ++
    (Language.ofLabel? label).elim [] fun l =>
      c.under (text l.name) ++ given extra (text l.name)

theorem rulesFor_extendAll : (c.extendAll extra).rulesFor (Language.ofLabel? label) =
    rulesOf c extra label := by
  unfold rulesFor rulesOf
  cases Language.ofLabel? label <;> simp [under_extendAll]

theorem mem_rulesOf {rule : Rule} : rule ∈ rulesOf c extra label ↔
    ∃ key, CountsFor key label ∧ rule ∈ c.under key ++ given extra key := by
  unfold rulesOf CountsFor
  rw [List.mem_append]
  constructor
  · rintro (h | h)
    · exact ⟨commonKey, .inl rfl, h⟩
    · cases hl : Language.ofLabel? label with
      | none =>
        rw [hl] at h
        cases h
      | some l =>
        rw [hl] at h
        exact ⟨text l.name, .inr ⟨l, rfl, rfl⟩, h⟩
  · rintro ⟨key, rfl | ⟨l, hl, rfl⟩, h⟩
    · exact .inl h
    · exact .inr (by rwa [hl])

theorem countsFor_common (label : Text) : CountsFor commonKey label := .inl rfl

/-- The rules under the name of a language count for the labels that resolve to it. -/
theorem countsFor_name_iff {l : Language} :
    CountsFor (text l.name) label ↔ Language.ofLabel? label = some l := by
  have hcommon : ∀ l : Language, text l.name ≠ commonKey := by
    intro l
    cases l <;> decide
  have hinjective : ∀ l l' : Language, text l.name = text l'.name → l = l' := by
    intro l l'
    cases l <;> cases l' <;> decide
  constructor
  · rintro (h | ⟨l', hl', h⟩)
    · exact absurd h (hcommon l)
    · rw [hl', hinjective l l' h]
  · intro h
    exact .inr ⟨l, h, rfl⟩

end Catalog

/-! ### Demands -/

namespace Utf8

theorem length_encodePoint (c : Nat) : (encodePoint c).length = pointSize c := by
  unfold encodePoint pointSize
  split
  · rfl
  · split
    · rfl
    · split <;> rfl

theorem length_flatMap_encodePoint (t : Text) : (t.flatMap encodePoint).length = size t := by
  induction t with
  | nil => rfl
  | cons c t ih =>
    rw [List.flatMap_cons, List.length_append, length_encodePoint, ih]
    rfl

end Utf8

namespace Reviewer

/-- What a script is asked to meet. -/
inductive Demand
  | notBlank
  | noZero
  | noSurrogates
  | size
  | without (rule : Rule)

namespace Demand

/-- The category that is reported if a script does not meet the demand. -/
def category : Demand → Text
  | notBlank => text "empty"
  | noZero | noSurrogates => text "invalid_characters"
  | size => text "size_limit"
  | without rule => rule.category

/-- The script meets the demand. -/
def Met (maxBytes : Int) (code : Text) : Demand → Prop
  | notBlank => ∃ c ∈ code, Text.isBlank c = false
  | noZero => 0 ∉ code
  | noSurrogates => ∀ c ∈ code, Text.isSurrogate c = false
  | size => ((code.flatMap Utf8.encodePoint).length : Int) ≤ maxBytes
  | without rule => ¬ rule.pattern.Occurs code

/-- The demands on the form of any script. -/
def form : List Demand := [notBlank, noZero, noSurrogates, size]

/-- The demands on a script with this label, in the order in which they are looked at. -/
def all (c : Catalog) (extra : List (Text × List Rule)) (label : Text) : List Demand :=
  form ++ (c.rulesOf extra label).map without

/-- The first one of some demands that the script does not meet. -/
def FirstUnmet (maxBytes : Int) (code : Text) (ds : List Demand) (d : Demand) : Prop :=
  ∃ before after, ds = before ++ d :: after ∧ (∀ e ∈ before, e.Met maxBytes code) ∧
    ¬ d.Met maxBytes code

theorem notBlank_met_iff (maxBytes : Int) {code : Text} :
    notBlank.Met maxBytes code ↔ Text.isBlankText code = false := by
  simp [Met, Text.isBlankText]

theorem noSurrogates_met_iff (maxBytes : Int) {code : Text} :
    noSurrogates.Met maxBytes code ↔ code.any Text.isSurrogate = false := by
  simp [Met]

theorem size_met_iff {maxBytes : Int} {code : Text} :
    size.Met maxBytes code ↔ (Utf8.size code : Int) ≤ maxBytes := by
  rw [Met, Utf8.length_flatMap_encodePoint]

end Demand

variable {r : Reviewer} {c : Catalog} {extra extra' : List (Text × List Rule)} {maxBytes : Int}
  {label code : Text}

theorem malformed?_eq_none_iff_met :
    r.malformed? code = none ↔ ∀ d ∈ Demand.form, d.Met r.maxBytes code := by
  rw [malformed?_eq_none, ← Demand.notBlank_met_iff r.maxBytes,
    ← Demand.noSurrogates_met_iff r.maxBytes, ← Demand.size_met_iff,
    ← Bool.not_eq_true, List.contains_iff_mem]
  simp only [Demand.form, List.forall_mem_cons, List.not_mem_nil, false_imp_iff, implies_true,
    and_true]
  rfl

theorem firstUnmet_form {v : Verdict} (h : r.malformed? code = some v) :
    ∃ d, Demand.FirstUnmet r.maxBytes code Demand.form d ∧ v.category = some d.category := by
  unfold malformed? at h
  have hblank : (Text.strip code).isEmpty = Text.isBlankText code := by
    rw [Bool.eq_iff_iff, List.isEmpty_iff, Text.strip_eq_nil_iff]
  rw [hblank] at h
  split at h
  · rename_i hblank
    cases h
    refine ⟨.notBlank, ⟨[], _, rfl, nofun, ?_⟩, rfl⟩
    rw [Demand.notBlank_met_iff, hblank]
    exact nofun
  · rename_i hcontent
    rw [Bool.not_eq_true, ← Demand.notBlank_met_iff r.maxBytes] at hcontent
    split at h
    · rename_i hinvalid
      cases h
      rw [Bool.or_eq_true, List.contains_iff_mem] at hinvalid
      by_cases hzero : 0 ∈ code
      · exact ⟨.noZero, ⟨[.notBlank], _, rfl, by simpa using hcontent, fun hmet => hmet hzero⟩, rfl⟩
      · refine ⟨.noSurrogates, ⟨[.notBlank, .noZero], _, rfl, ?_, ?_⟩, rfl⟩
        · simpa using ⟨hcontent, hzero⟩
        · rw [Demand.noSurrogates_met_iff, hinvalid.resolve_left hzero]
          exact nofun
    · rename_i hvalid
      rw [Bool.not_eq_true, Bool.or_eq_false_iff,
        ← Demand.noSurrogates_met_iff r.maxBytes, ← Bool.not_eq_true,
        List.contains_iff_mem] at hvalid
      split at h
      · rename_i hlarge
        cases h
        refine ⟨.size, ⟨[.notBlank, .noZero, .noSurrogates], [], rfl, ?_, ?_⟩, rfl⟩
        · simpa using ⟨hcontent, hvalid⟩
        · rw [Demand.size_met_iff]
          exact Int.not_le.mpr hlarge
      · cases h

/-- **A script is accepted if it meets all demands.** -/
theorem review_accepts_iff : (review ⟨maxBytes, c.extendAll extra⟩ label code).ok = true ↔
    ∀ d ∈ Demand.all c extra label, d.Met maxBytes code := by
  rw [review_ok_iff, malformed?_eq_none_iff_met, Demand.all, Catalog.rulesFor_extendAll]
  simp only [List.mem_append, List.mem_map, or_imp, forall_and, forall_exists_index, and_imp,
    forall_apply_eq_imp_iff₂]
  simp only [Demand.Met, ← Pattern.occursIn_eq_true_iff, Bool.not_eq_true]

/-- **A script that is refused is so for the first demand that it does not meet.** -/
theorem review_refuses (h : (review ⟨maxBytes, c.extendAll extra⟩ label code).ok = false) :
    ∃ d, Demand.FirstUnmet maxBytes code (Demand.all c extra label) d ∧
      (review ⟨maxBytes, c.extendAll extra⟩ label code).category = some d.category := by
  unfold review denied? at h ⊢
  split at h
  · rename_i v hv
    obtain ⟨d, ⟨before, after, hform, hmet, hunmet⟩, hcategory⟩ := firstUnmet_form hv
    refine ⟨d, ⟨before, after ++ (c.rulesOf extra label).map .without, ?_, hmet, hunmet⟩, ?_⟩
    · rw [Demand.all, hform, List.append_assoc, List.cons_append]
    · exact hcategory
  · rename_i rule hform hrule
    rw [Catalog.rulesFor_extendAll] at hrule
    obtain ⟨hoccurs, before, after, hsplit, hbefore⟩ := List.find?_eq_some_iff_append.mp hrule
    refine ⟨.without rule,
      ⟨Demand.form ++ before.map .without, after.map .without, ?_, ?_, ?_⟩, rfl⟩
    · rw [Demand.all, hsplit, List.map_append, List.map_cons, List.append_assoc]
    · intro d hd
      rcases List.mem_append.mp hd with hd | hd
      · exact malformed?_eq_none_iff_met.mp hform d hd
      · obtain ⟨other, hother, rfl⟩ := List.mem_map.mp hd
        have hnot := hbefore other hother
        rw [Bool.not_eq_true', ← Bool.not_eq_true, Pattern.occursIn_eq_true_iff] at hnot
        exact hnot
    · exact fun hmet => hmet (Pattern.occursIn_eq_true_iff.mp hoccurs)
  · cases h

/-! ### Further rules -/

/-- All the further rules of the first list are in the second one, under their keys. -/
def Extends (extra extra' : List (Text × List Rule)) : Prop :=
  ∀ key, Catalog.given extra key ⊆ Catalog.given extra' key

theorem Extends.rulesOf (h : Extends extra extra') :
    c.rulesOf extra label ⊆ c.rulesOf extra' label := by
  intro rule hrule
  obtain ⟨key, hkey, hmem⟩ := Catalog.mem_rulesOf.mp hrule
  refine Catalog.mem_rulesOf.mpr ⟨key, hkey, ?_⟩
  rw [List.mem_append] at hmem ⊢
  exact hmem.imp_right (h key ·)

/-- The verdict on the form of a script looks at no rule. -/
theorem review_of_malformed (c : Catalog) (label : Text)
    (h : ∃ d ∈ Demand.form, ¬ d.Met maxBytes code) :
    (review ⟨maxBytes, c⟩ label code).ok = false ∧
    ∀ c' label', review ⟨maxBytes, c'⟩ label' code = review ⟨maxBytes, c⟩ label code := by
  obtain ⟨d, hd, hunmet⟩ := h
  cases hform : malformed? ⟨maxBytes, c⟩ code with
  | none => exact absurd (malformed?_eq_none_iff_met.mp hform d hd) hunmet
  | some v =>
    have hreview : ∀ c' label', review ⟨maxBytes, c'⟩ label' code = v := by
      intro c' label'
      have hform' : malformed? ⟨maxBytes, c'⟩ code = some v := hform
      rw [review, hform']
    refine ⟨?_, fun c' label' => ?_⟩
    · rw [hreview]
      exact malformed?_ok hform
    · rw [hreview, hreview]

/-- What further rules refuse, they refuse for one of them. -/
theorem exists_further_rule
    (haccepted : (review ⟨maxBytes, c.extendAll extra⟩ label code).ok = true)
    (hrefused : (review ⟨maxBytes, c.extendAll extra'⟩ label code).ok = false) :
    ∃ key rule, Catalog.CountsFor key label ∧ rule ∈ Catalog.given extra' key ∧
      rule ∉ Catalog.given extra key ∧ rule.pattern.Occurs code ∧
      (review ⟨maxBytes, c.extendAll extra'⟩ label code).category = some rule.category := by
  rw [review_accepts_iff] at haccepted
  obtain ⟨d, ⟨before, after, hsplit, -, hunmet⟩, hcategory⟩ := review_refuses hrefused
  have hd : d ∈ Demand.all c extra' label := by
    rw [hsplit]
    simp
  rcases List.mem_append.mp hd with hform | hrule
  · exact absurd (haccepted d (List.mem_append_left _ hform)) hunmet
  · obtain ⟨rule, hcounts, rfl⟩ := List.mem_map.mp hrule
    obtain ⟨key, hkey, hmem⟩ := Catalog.mem_rulesOf.mp hcounts
    have hnot : rule ∉ c.under key ++ Catalog.given extra key := by
      intro hold
      refine hunmet (haccepted _ (List.mem_append_right _ (List.mem_map_of_mem ?_)))
      exact Catalog.mem_rulesOf.mpr ⟨key, hkey, hold⟩
    rw [List.mem_append, not_or] at hnot
    exact ⟨key, rule, hkey, (List.mem_append.mp hmem).resolve_left hnot.1, hnot.2,
      Classical.not_not.mp hunmet, hcategory⟩

/-- Only the rules under keys that count for the label have a say. -/
theorem review_congr {c' : Catalog}
    (h : ∀ key, Catalog.CountsFor key label →
      c'.under key ++ Catalog.given extra' key = c.under key ++ Catalog.given extra key) :
    review ⟨maxBytes, c'.extendAll extra'⟩ label code =
      review ⟨maxBytes, c.extendAll extra⟩ label code := by
  have hrules : c'.rulesOf extra' label = c.rulesOf extra label := by
    unfold Catalog.rulesOf
    rw [h _ (Catalog.countsFor_common label)]
    cases hl : Language.ofLabel? label with
    | none => rfl
    | some l => simp only [Option.elim_some, h _ (Catalog.countsFor_name_iff.mpr hl)]
  unfold review denied?
  rw [Catalog.rulesFor_extendAll, Catalog.rulesFor_extendAll, hrules]
  rfl

end Reviewer

end ChatCommands
