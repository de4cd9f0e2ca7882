import ChatCommands.Pattern.Basic
import ChatCommands.Proofs.Text.Lines

/-!
Patterns and the conventions for line ends.

A text may end its lines with a line feed, with a carriage return or with both; `unifyLineEnds` makes
line feeds of them all.  A pattern is even if it does not tell the conventions apart but for the start
of a line, which a carriage return alone does not begin.  `occursIn_unified` says what follows: where
an even pattern occurs in the unified text, it occurs in the text itself, or one of its parts that are
bound to the start of a line is read right behind a lone carriage return.
-/

namespace ChatCommands

open Text

/-! ### Line ends -/

/-- What a code point becomes that is no part of a line end of two. -/
def lineEnd (c : Nat) : Nat := if c = 13 then 10 else c

theorem unifyLineEnds_cons {c : Nat} {rest : Text} (h : c = 13 → rest.head? ≠ some 10) :
    unifyLineEnds (c :: rest) = lineEnd c :: unifyLineEnds rest := by
  rw [unifyLineEnds]
  · rfl
  · rintro tail rfl rfl
    exact h rfl rfl

theorem isWord_lineEnd (c : Nat) : isWord (lineEnd c) = isWord c := by
  unfold lineEnd
  split
  · rename_i h
    subst h
    rfl
  · rfl

theorem head?_unifyLineEnds (t : Text) : (unifyLineEnds t).head? = t.head?.map lineEnd := by
  induction t using lineEnd_induction with
  | nil => rfl
  | pair rest ih => rfl
  | point c rest hc ih =>
    rw [unifyLineEnds_cons hc]
    rfl

/-- A property of code points that the parts of a line end share. -/
theorem all_unifyLineEnds {p : Nat → Bool} (hp : p 10 = p 13) (t : Text) :
    (unifyLineEnds t).all p = t.all p := by
  induction t using lineEnd_induction with
  | nil => rfl
  | pair rest ih =>
    simp only [unifyLineEnds, List.all_cons, ih, ← hp, Bool.and_self_left]
  | point c rest hc ih =>
    rw [unifyLineEnds_cons hc, List.all_cons, List.all_cons, ih, lineEnd]
    split
    · rename_i h
      rw [hp, h]
    · rfl

namespace Spot

/-- The spot of the text with unified line ends. -/
def unified (s : Spot) : Spot := ⟨s.before.map lineEnd, unifyLineEnds s.rest⟩

/-- The spot is not between the two parts of a line end. -/
def Whole (s : Spot) : Prop := s.before = some 13 → s.rest.head? ≠ some 10

/-- The second spot is the first one or behind it, in the same text. -/
inductive Reaches : Spot → Spot → Prop
  | refl (s : Spot) : Reaches s s
  | step {before : Option Nat} {c : Nat} {rest : Text} {s : Spot} (h : Reaches ⟨some c, rest⟩ s) :
    Reaches ⟨before, c :: rest⟩ s

theorem unified_point {before : Option Nat} {c : Nat} {rest : Text}
    (hc : c = 13 → rest.head? ≠ some 10) :
    unified ⟨before, c :: rest⟩ = ⟨before.map lineEnd, lineEnd c :: unifyLineEnds rest⟩ := by
  rw [unified, unifyLineEnds_cons hc]

theorem whole_point {c : Nat} {rest : Text} (hc : c = 13 → rest.head? ≠ some 10) :
    Whole ⟨some c, rest⟩ :=
  fun h => hc (Option.some.inj h)

theorem atWordEdge_unified (s : Spot) : s.unified.atWordEdge = s.atWordEdge := by
  have hany : ∀ o : Option Nat, (o.map lineEnd).any isWord = o.any isWord := by
    intro o
    cases o with
    | none => rfl
    | some c => exact isWord_lineEnd c
  simp only [atWordEdge, unified, head?_unifyLineEnds, hany]

/-- Every spot of the unified text comes from a whole spot of the text. -/
theorem Reaches.of_unified {s e : Spot} (hs : s.Whole) (h : s.unified.Reaches e) :
    ∃ e', s.Reaches e' ∧ e'.Whole ∧ e'.unified = e := by
  obtain ⟨before, rest⟩ := s
  induction rest using lineEnd_induction generalizing before with
  | nil =>
    cases h
    exact ⟨_, .refl _, hs, rfl⟩
  | pair rest ih =>
    cases h with
    | refl => exact ⟨_, .refl _, hs, rfl⟩
    | step h =>
      obtain ⟨e', hreach, hwhole, heq⟩ := ih (some 10) nofun h
      exact ⟨e', .step (.step hreach), hwhole, heq⟩
  | point c rest hc ih =>
    rw [unified_point hc] at h
    cases h with
    | refl => exact ⟨_, .refl _, hs, unified_point hc⟩
    | step h =>
      obtain ⟨e', hreach, hwhole, heq⟩ := ih (some c) (whole_point hc) h
      exact ⟨e', .step hreach, hwhole, heq⟩

/-- Every whole spot of the text is a spot of the unified text. -/
theorem Reaches.unified {s e : Spot} (h : s.Reaches e) (he : e.Whole) :
    s.unified.Reaches e.unified := by
  obtain ⟨before, rest⟩ := s
  induction rest using lineEnd_induction generalizing before with
  | nil =>
    cases h
    exact .refl _
  | pair rest ih =>
    cases h with
    | refl => exact .refl _
    | step h =>
      cases h with
      | refl => exact absurd rfl (he rfl)
      | step h => exact .step (ih (some 10) h)
  | point c rest hc ih =>
    cases h with
    | refl => exact .refl _
    | step h =>
      rw [unified_point hc]
      exact .step (ih (some c) h)

/-- The spots behind a code point. -/
theorem reaches_behind {t rest : Text} {c : Nat} {before : Option Nat} :
    Reaches ⟨before, t⟩ ⟨some c, rest⟩ ↔
      (∃ start, t = start ++ c :: rest) ∨ before = some c ∧ t = rest := by
  induction t generalizing before with
  | nil =>
    constructor
    · intro h
      cases h
      exact .inr ⟨rfl, rfl⟩
    · rintro (⟨start, h⟩ | ⟨rfl, rfl⟩)
      · simp at h
      · exact .refl _
  | cons d t ih =>
    constructor
    · intro h
      cases h with
      | refl => exact .inr ⟨rfl, rfl⟩
      | step h =>
        rcases ih.mp h with ⟨start, rfl⟩ | ⟨hc, rfl⟩
        · exact .inl ⟨d :: start, rfl⟩
        · cases hc
          exact .inl ⟨[], rfl⟩
    · rintro (⟨start, h⟩ | ⟨rfl, rfl⟩)
      · cases start with
        | nil =>
          cases h
          exact .step (.refl _)
        | cons d' start =>
          obtain ⟨rfl, rfl⟩ := List.cons.inj h
          exact .step (ih.mpr (.inl ⟨start, rfl⟩))
      · exact .refl _

end Spot

namespace Pattern

theorem readsAt_iff {p : Pattern} {s : Spot} : p.readsAt s = true ↔ ∃ e, e ∈ p.ends s := by
  simp [readsAt, List.eq_nil_iff_forall_not_mem]

theorem occursFrom_iff {p : Pattern} {before : Option Nat} {t : Text} :
    p.occursFrom before t = true ↔ ∃ s, Spot.Reaches ⟨before, t⟩ s ∧ p.readsAt s = true := by
  induction t generalizing before with
  | nil =>
    constructor
    · intro h
      exact ⟨_, .refl _, h⟩
    · rintro ⟨s, hs, h⟩
      cases hs
      exact h
  | cons c t ih =>
    rw [occursFrom, Bool.or_eq_true, ih]
    constructor
    · rintro (h | ⟨s, hs, h⟩)
      · exact ⟨_, .refl _, h⟩
      · exact ⟨s, .step hs, h⟩
    · rintro ⟨s, hs, h⟩
      cases hs with
      | refl => exact .inl h
      | step hs => exact .inr ⟨s, hs, h⟩

/-! ### Even patterns -/

/-- Both parts of a line end are in the set, or neither is. -/
def evenSet (s : PointSet) : Bool := s.has 10 == s.has 13

/-- A reading takes a line end whatever its convention, and never stops within one. -/
def firm : Pattern → Bool
  | .empty | .wordEdge => true
  | .lineStart => false
  | .one s => evenSet s && !s.has 10
  | .many s => evenSet s
  | .seq (.one s) (.many t) => evenSet s && s == t
  | .seq a b | .either a b => a.firm && b.firm

/-- The same, but at its very end a reading may stop within a line end. -/
def firmToEnd : Pattern → Bool
  | .empty | .wordEdge => true
  | .lineStart => false
  | .one s | .many s | .seq (.one s) (.many _) => evenSet s
  | .seq a .empty => a.firmToEnd
  | .seq a b => a.firm && b.firmToEnd
  | .either a b => a.firmToEnd && b.firmToEnd

/-- The parts of the pattern that are read at the start of a line only. -/
def afterLineStart : Pattern → List Pattern
  | .seq .lineStart p => [p]
  | .either a b => a.afterLineStart ++ b.afterLineStart
  | _ => []

/-- But for the start of a line the pattern does not tell the conventions for line ends apart. -/
def even : Pattern → Bool
  | .seq .lineStart p => p.firmToEnd
  | .either a b => a.even && b.even
  | p => p.firmToEnd

variable {s : PointSet} {spot e : Spot}

theorem has_lineEnd (hs : evenSet s = true) (c : Nat) : s.has (lineEnd c) = s.has c := by
  have hs' : s.has 10 = s.has 13 := eq_of_beq hs
  unfold lineEnd
  split
  · rename_i h
    rw [hs', h]
  · rfl

theorem mem_ends_one {before : Option Nat} {rest : Text} : e ∈ ends (.one s) ⟨before, rest⟩ ↔
    ∃ c tail, rest = c :: tail ∧ s.has c = true ∧ e = ⟨some c, tail⟩ := by
  cases rest with
  | nil => simp [ends]
  | cons c tail =>
    by_cases h : s.has c = true
    · simp [ends, h, and_assoc]
    · simp [ends, h, and_assoc]

theorem mem_along_cons {before : Option Nat} {c : Nat} {rest : Text} :
    e ∈ along s before (c :: rest) ↔
      e = ⟨before, c :: rest⟩ ∨ s.has c = true ∧ e ∈ along s (some c) rest := by
  by_cases h : s.has c = true <;> simp [along, h]

theorem along_unified (hs : evenSet s = true) (hw : spot.Whole)
    (h : e ∈ along s spot.unified.before spot.unified.rest) :
    ∃ e' ∈ along s spot.before spot.rest, e'.Whole ∧ e'.unified = e := by
  obtain ⟨before, rest⟩ := spot
  induction rest using lineEnd_induction generalizing before with
  | nil =>
    obtain rfl := List.mem_singleton.mp h
    exact ⟨_, List.mem_singleton_self _, hw, rfl⟩
  | pair rest ih =>
    rcases mem_along_cons.mp h with rfl | ⟨hten, h⟩
    · exact ⟨_, mem_along_cons.mpr (.inl rfl), hw, rfl⟩
    · have hreturn : s.has 13 = true := (eq_of_beq hs).symm.trans hten
      obtain ⟨e', hmem, hwhole, heq⟩ := ih (some 10) nofun h
      exact ⟨e', mem_along_cons.mpr (.inr ⟨hreturn, mem_along_cons.mpr (.inr ⟨hten, hmem⟩)⟩),
        hwhole, heq⟩
  | point c rest hc ih =>
    rw [Spot.unified_point hc] at h
    rcases mem_along_cons.mp h with rfl | ⟨hin, h⟩
    · exact ⟨_, mem_along_cons.mpr (.inl rfl), hw, Spot.unified_point hc⟩
    · obtain ⟨e', hmem, hwhole, heq⟩ := ih (some c) (Spot.whole_point hc) h
      exact ⟨e', mem_along_cons.mpr (.inr ⟨has_lineEnd hs c ▸ hin, hmem⟩), hwhole, heq⟩

/-- A reading of one code point is one in the text too, or the text has a line end of two there. -/
theorem ends_one_unified (hs : evenSet s = true) (h : e ∈ ends (.one s) spot.unified) :
    (∃ e' ∈ ends (.one s) spot, e'.Whole ∧ e'.unified = e) ∨
      ∃ rest, spot.rest = 13 :: 10 :: rest ∧ s.has 10 = true ∧ e = Spot.unified ⟨some 10, rest⟩ := by
  obtain ⟨before, rest⟩ := spot
  cases rest using lineEnd_induction with
  | nil => cases h
  | pair rest _ =>
    obtain ⟨c, tail, heq, hin, rfl⟩ := mem_ends_one.mp h
    cases heq
    exact .inr ⟨rest, rfl, hin, rfl⟩
  | point c rest hc _ =>
    rw [Spot.unified_point hc] at h
    obtain ⟨c', tail, heq, hin, rfl⟩ := mem_ends_one.mp h
    cases heq
    exact .inl ⟨⟨some c, rest⟩, mem_ends_one.mpr ⟨c, rest, rfl, has_lineEnd hs c ▸ hin, rfl⟩,
      Spot.whole_point hc, rfl⟩

/-- Of a line end of two, what is read as one code point in the unified text is read as two. -/
theorem ends_plus_unified (hs : evenSet s = true)
    (h : e ∈ ends (.seq (.one s) (.many s)) spot.unified) :
    ∃ e' ∈ ends (.seq (.one s) (.many s)) spot, e'.Whole ∧ e'.unified = e := by
  obtain ⟨first, hfirst, hmore⟩ := List.mem_flatMap.mp h
  rcases ends_one_unified hs hfirst with ⟨first, hmem, hwhole, rfl⟩ | ⟨rest, hrest, hten, rfl⟩
  · obtain ⟨e', he', hwhole', heq⟩ := along_unified hs hwhole hmore
    exact ⟨e', List.mem_flatMap.mpr ⟨first, hmem, he'⟩, hwhole', heq⟩
  · have hreturn : s.has 13 = true := (eq_of_beq hs).symm.trans hten
    have hfeed : Spot.Whole ⟨some 10, rest⟩ := nofun
    obtain ⟨e', he', hwhole', heq⟩ := along_unified hs hfeed hmore
    obtain ⟨before, _⟩ := spot
    obtain rfl := hrest
    refine ⟨e', List.mem_flatMap.mpr ⟨⟨some 13, 10 :: rest⟩, ?_, ?_⟩, hwhole', heq⟩
    · exact mem_ends_one.mpr ⟨13, _, rfl, hreturn, rfl⟩
    · exact mem_along_cons.mpr (.inr ⟨hten, he'⟩)

/-- **A firm pattern** is read in the text as in the unified one. -/
theorem ends_unified {p : Pattern} (hp : p.firm = true) (hw : spot.Whole)
    (h : e ∈ p.ends spot.unified) : ∃ e' ∈ p.ends spot, e'.Whole ∧ e'.unified = e := by
  induction p using firm.induct generalizing spot e with
  | case1 =>
    obtain rfl := List.mem_singleton.mp h
    exact ⟨spot, List.mem_singleton_self _, hw, rfl⟩
  | case2 =>
    simp only [ends, Spot.atWordEdge_unified] at h
    split at h
    · rename_i hedge
      obtain rfl := List.mem_singleton.mp h
      exact ⟨spot, by simp [ends, hedge], hw, rfl⟩
    · cases h
  | case3 => cases hp
  | case4 s =>
    obtain ⟨hs, hten⟩ : evenSet s = true ∧ s.has 10 = false := by simpa [firm] using hp
    rcases ends_one_unified hs h with h | ⟨rest, -, hin, -⟩
    · exact h
    · rw [hten] at hin
      cases hin
  | case5 s => exact along_unified hp hw h
  | case6 s t =>
    obtain ⟨hs, rfl⟩ : evenSet s = true ∧ s = t := by simpa [firm] using hp
    exact ends_plus_unified hs h
  | case7 a b _ iha ihb =>
    obtain ⟨ha, hb⟩ : a.firm = true ∧ b.firm = true := by simpa [firm] using hp
    obtain ⟨mid, hmid, hend⟩ := List.mem_flatMap.mp h
    obtain ⟨mid, hmem, hwhole, rfl⟩ := iha ha hw hmid
    obtain ⟨e', he', hwhole', heq⟩ := ihb hb hwhole hend
    exact ⟨e', List.mem_flatMap.mpr ⟨mid, hmem, he'⟩, hwhole', heq⟩
  | case8 a b iha ihb =>
    obtain ⟨ha, hb⟩ : a.firm = true ∧ b.firm = true := by simpa [firm] using hp
    rcases List.mem_append.mp h with h | h
    · obtain ⟨e', he', hrest⟩ := iha ha hw h
      exact ⟨e', List.mem_append_left _ he', hrest⟩
    · obtain ⟨e', he', hrest⟩ := ihb hb hw h
      exact ⟨e', List.mem_append_right _ he', hrest⟩

theorem readsAt_seq {a b : Pattern} :
    (seq a b).readsAt spot = true ↔ ∃ mid ∈ a.ends spot, b.readsAt mid = true := by
  simp only [readsAt_iff, ends, List.mem_flatMap]
  constructor
  · rintro ⟨e, mid, hmid, he⟩
    exact ⟨mid, hmid, e, he⟩
  · rintro ⟨mid, hmid, e, he⟩
    exact ⟨e, mid, hmid, he⟩

theorem readsAt_either {a b : Pattern} :
    (either a b).readsAt spot = true ↔ a.readsAt spot = true ∨ b.readsAt spot = true := by
  simp only [readsAt_iff, ends, List.mem_append, exists_or]

theorem readsAt_many : (many s).readsAt spot = true := by
  obtain ⟨before, rest⟩ := spot
  cases rest with
  | nil => rfl
  | cons c rest => exact readsAt_iff.mpr ⟨_, mem_along_cons.mpr (.inl rfl)⟩

theorem readsAt_lineStart {p : Pattern} :
    (seq .lineStart p).readsAt spot = true ↔ spot.atLineStart = true ∧ p.readsAt spot = true := by
  by_cases h : spot.atLineStart = true <;> simp [readsAt_seq, ends, h]

theorem readsAt_one_unified (hs : evenSet s = true) (h : (one s).readsAt spot.unified = true) :
    (one s).readsAt spot = true := by
  obtain ⟨e, he⟩ := readsAt_iff.mp h
  rcases ends_one_unified hs he with ⟨e', he', -⟩ | ⟨rest, hrest, hten, -⟩
  · exact readsAt_iff.mpr ⟨e', he'⟩
  · -- the reading stops within the line end
    have hreturn : s.has 13 = true := (eq_of_beq hs).symm.trans hten
    exact readsAt_iff.mpr ⟨_, mem_ends_one.mpr ⟨13, _, hrest, hreturn, rfl⟩⟩

/-- A pattern that is firm to its end is read in the text where it is read in the unified one. -/
theorem readsAt_unified {p : Pattern} (hp : p.firmToEnd = true) (hw : spot.Whole)
    (h : p.readsAt spot.unified = true) : p.readsAt spot = true := by
  induction p using firmToEnd.induct generalizing spot with
  | case1 => rfl
  | case2 => simpa [readsAt, ends, Spot.atWordEdge_unified] using h
  | case3 => cases hp
  | case4 s => exact readsAt_one_unified hp h
  | case5 s => exact readsAt_many
  | case6 s t =>
    obtain ⟨mid, hmid, -⟩ := readsAt_seq.mp h
    have hread := readsAt_one_unified hp (readsAt_iff.mpr ⟨mid, hmid⟩)
    obtain ⟨e, he⟩ := readsAt_iff.mp hread
    exact readsAt_seq.mpr ⟨e, he, readsAt_many⟩
  | case7 a ih =>
    have ha : a.firmToEnd = true := by simpa [firmToEnd] using hp
    obtain ⟨mid, hmid, -⟩ := readsAt_seq.mp h
    obtain ⟨e, he⟩ := readsAt_iff.mp (ih ha hw (readsAt_iff.mpr ⟨mid, hmid⟩))
    exact readsAt_seq.mpr ⟨e, he, rfl⟩
  | case8 a b _ _ ih =>
    obtain ⟨ha, hb⟩ : a.firm = true ∧ b.firmToEnd = true := by simpa [firmToEnd] using hp
    obtain ⟨mid, hmid, hread⟩ := readsAt_seq.mp h
    obtain ⟨mid, hmem, hwhole, rfl⟩ := ends_unified ha hw hmid
    exact readsAt_seq.mpr ⟨mid, hmem, ih hb hwhole hread⟩
  | case9 a b iha ihb =>
    obtain ⟨ha, hb⟩ : a.firmToEnd = true ∧ b.firmToEnd = true := by simpa [firmToEnd] using hp
    rcases readsAt_either.mp h with h | h
    · exact readsAt_either.mpr (.inl (iha ha hw h))
    · exact readsAt_either.mpr (.inr (ihb hb hw h))

/-- **An even pattern** is read in the text where it is read in the unified one, unless a lone carriage
return has become the start of a line there. -/
theorem even_readsAt_unified {p : Pattern} (hp : p.even = true) (hw : spot.Whole)
    (h : p.readsAt spot.unified = true) : p.readsAt spot = true ∨
      spot.before = some 13 ∧ ∃ q ∈ p.afterLineStart, q.readsAt spot.unified = true := by
  induction p using even.induct with
  | case1 p =>
    obtain ⟨hline, hread⟩ := readsAt_lineStart.mp h
    by_cases hreturn : spot.before = some 13
    · exact .inr ⟨hreturn, p, List.mem_singleton_self p, hread⟩
    · refine .inl (readsAt_lineStart.mpr ⟨?_, readsAt_unified hp hw hread⟩)
      obtain ⟨before, rest⟩ := spot
      cases before with
      | none => rfl
      | some c =>
        have hc : c ≠ 13 := fun hc => hreturn (congrArg some hc)
        simpa [Spot.atLineStart, Spot.unified, lineEnd, hc] using hline
  | case2 a b iha ihb =>
    obtain ⟨ha, hb⟩ : a.even = true ∧ b.even = true := by simpa [even] using hp
    rcases readsAt_either.mp h with h | h
    · rcases iha ha h with h | ⟨hreturn, q, hq, hread⟩
      · exact .inl (readsAt_either.mpr (.inl h))
      · exact .inr ⟨hreturn, q, List.mem_append_left _ hq, hread⟩
    · rcases ihb hb h with h | ⟨hreturn, q, hq, hread⟩
      · exact .inl (readsAt_either.mpr (.inr h))
      · exact .inr ⟨hreturn, q, List.mem_append_right _ hq, hread⟩
  | case3 p hseq heither =>
    rw [even] at hp
    · exact .inl (readsAt_unified hp hw h)
    · exact hseq
    · exact heither

/-- A part that is read where a line starts makes its pattern be read there. -/
theorem readsAt_of_afterLineStart {p q : Pattern} (hq : q ∈ p.afterLineStart)
    (hline : spot.atLineStart = true) (h : q.readsAt spot = true) : p.readsAt spot = true := by
  induction p using afterLineStart.induct with
  | case1 p =>
    obtain rfl := List.mem_singleton.mp hq
    exact readsAt_lineStart.mpr ⟨hline, h⟩
  | case2 a b iha ihb =>
    rcases List.mem_append.mp hq with hq | hq
    · exact readsAt_either.mpr (.inl (iha hq))
    · exact readsAt_either.mpr (.inr (ihb hq))
  | case3 p hseq heither =>
    rw [afterLineStart] at hq
    · cases hq
    · exact hseq
    · exact heither

/-- A part of the pattern is read behind a carriage return of the text that is no part of a line end of
two, once the line ends are unified. -/
def BehindReturn (p : Pattern) (t : Text) : Prop :=
  ∃ start rest, t = start ++ 13 :: rest ∧ rest.head? ≠ some 10 ∧
    ∃ q ∈ p.afterLineStart, q.readsAt ⟨some 10, unifyLineEnds rest⟩ = true

/-- **Where an even pattern occurs in the unified text.** -/
theorem occursIn_unified {p : Pattern} (hp : p.even = true) {t : Text}
    (h : p.occursIn (unifyLineEnds t) = true) : p.occursIn t = true ∨ p.BehindReturn t := by
  obtain ⟨e, he, hread⟩ := occursFrom_iff.mp h
  obtain ⟨spot, hreach, hw, rfl⟩ := Spot.Reaches.of_unified (s := ⟨none, t⟩) nofun he
  rcases even_readsAt_unified hp hw hread with h | ⟨hreturn, q, hq, hread⟩
  · exact .inl (occursFrom_iff.mpr ⟨spot, hreach, h⟩)
  · obtain ⟨before, rest⟩ := spot
    obtain rfl : before = some 13 := hreturn
    rcases Spot.reaches_behind.mp hreach with ⟨start, rfl⟩ | ⟨hnone, -⟩
    · exact .inr ⟨start, rest, rfl, hw rfl, q, hq, hread⟩
    · cases hnone

theorem BehindReturn.occursIn {p : Pattern} {t : Text} (h : p.BehindReturn t) :
    p.occursIn (unifyLineEnds t) = true := by
  obtain ⟨start, rest, rfl, hlone, q, hq, hread⟩ := h
  have hreach : Spot.Reaches ⟨none, start ++ 13 :: rest⟩ ⟨some 13, rest⟩ :=
    Spot.reaches_behind.mpr (.inl ⟨start, rfl⟩)
  have hreach' := hreach.unified fun _ => hlone
  exact occursFrom_iff.mpr ⟨_, hreach', readsAt_of_afterLineStart hq rfl hread⟩

end Pattern

end ChatCommands
