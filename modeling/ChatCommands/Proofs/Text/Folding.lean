import ChatCommands.Text.Blank
import ChatCommands.Text.Folding

/-!
Folding a text once is enough, and white space stays white space.

The code points that folding moves are those of the runs and those that are expanded.  No run leads
to one of them and no expansion holds one, so that what folding has produced stays as it is.  That
is a fact about the tables; to look it up for each entry, the set of the moved code points is kept
as the bits of one number.  Nor is there white space anywhere in the tables, before or behind a
folding.
-/

namespace ChatCommands.Text

/-! ### The code points that folding moves -/

/-- The code points of a run. -/
def FoldRun.points (r : FoldRun) : List Nat :=
  List.range' r.first ((r.last - r.first) / r.step + 1) r.step

/-- The code points that folding moves. -/
def sources : List Nat := foldExpansions.map Prod.fst ++ foldRuns.flatMap FoldRun.points

/-- The set of some numbers, as the bits of one. -/
def bitSet (ns : List Nat) : Nat := ns.foldl (fun set n => set ||| 1 <<< n) 0

theorem testBit_bitSet {ns : List Nat} {n : Nat} : (bitSet ns).testBit n = true ↔ n ∈ ns := by
  have hfold : ∀ (ns : List Nat) (set : Nat),
      (ns.foldl (fun set n => set ||| 1 <<< n) set).testBit n = true ↔
        set.testBit n = true ∨ n ∈ ns := by
    intro ns
    induction ns with
    | nil => simp
    | cons m ns ih =>
      intro set
      rw [List.foldl_cons, ih, Nat.testBit_or, Bool.or_eq_true, Nat.one_shiftLeft,
        Nat.testBit_two_pow, decide_eq_true_eq, List.mem_cons, or_assoc, eq_comm (a := m)]
  rw [bitSet, hfold, Nat.zero_testBit]
  simp

theorem FoldRun.mem_points {r : FoldRun} {c : Nat} (h : r.covers c = true) : c ∈ r.points := by
  simp only [FoldRun.covers, Bool.and_eq_true, decide_eq_true_eq, beq_iff_eq] at h
  obtain ⟨⟨hfirst, hlast⟩, hstep⟩ := h
  have hdiv := Nat.div_add_mod (c - r.first) r.step
  refine List.mem_range'.mpr ⟨(c - r.first) / r.step, ?_, by omega⟩
  have hle : (c - r.first) / r.step ≤ (r.last - r.first) / r.step :=
    Nat.div_le_div_right (by omega)
  omega

theorem runs_leave : (foldRuns.all fun r => r.points.all fun c =>
    !(bitSet sources).testBit ((c : Int) + r.shift).toNat) = true := by
  decide +kernel

theorem expansions_leave : (foldExpansions.all fun e =>
    !e.2.isEmpty && e.2.all fun c => !(bitSet sources).testBit c) = true := by
  decide +kernel

theorem not_source_of_run {r : FoldRun} (hr : r ∈ foldRuns) {c : Nat} (hc : r.covers c = true) :
    ((c : Int) + r.shift).toNat ∉ sources := by
  have hrun := List.all_eq_true.mp runs_leave r hr
  have hpoint := List.all_eq_true.mp hrun c (FoldRun.mem_points hc)
  rw [← testBit_bitSet]
  simpa using hpoint

theorem not_source_of_expansion {e : Nat × Text} (he : e ∈ foldExpansions) :
    e.2 ≠ [] ∧ ∀ c ∈ e.2, c ∉ sources := by
  have hentry := List.all_eq_true.mp expansions_leave e he
  rw [Bool.and_eq_true] at hentry
  refine ⟨by simpa using hentry.1, fun c hc => ?_⟩
  rw [← testBit_bitSet]
  simpa using List.all_eq_true.mp hentry.2 c hc

/-! ### Folding one code point -/

theorem foldPoint_ascii {c : Nat} (h : c < 128) : foldPoint c = [lowerAsciiPoint c] :=
  if_pos h

/-- How a code point is folded: as a letter of ASCII, by an expansion, by a run, or not at all. -/
theorem foldPoint_cases (c : Nat) :
    (c < 128 ∧ foldPoint c = [lowerAsciiPoint c]) ∨
    (∃ e ∈ foldExpansions, e.1 = c ∧ foldPoint c = e.2) ∨
    (∃ r ∈ foldRuns, r.covers c = true ∧ foldPoint c = [((c : Int) + r.shift).toNat]) ∨
    foldPoint c = [c] := by
  unfold foldPoint
  split
  · rename_i h
    exact .inl ⟨h, rfl⟩
  · split
    · rename_i t ht
      obtain ⟨before, after, hsplit, -⟩ := List.lookup_eq_some_iff.mp ht
      exact .inr (.inl ⟨(c, t), by rw [hsplit]; simp, rfl, rfl⟩)
    · split
      · rename_i r hr
        have hcovers : r.covers c = true := by simpa using List.find?_some hr
        exact .inr (.inr (.inl ⟨r, List.mem_of_find?_eq_some hr, hcovers, rfl⟩))
      · exact .inr (.inr (.inr rfl))

theorem foldPoint_ne_nil (c : Nat) : foldPoint c ≠ [] := by
  rcases foldPoint_cases c with ⟨-, h⟩ | ⟨e, he, -, h⟩ | ⟨r, -, -, h⟩ | h
  · simp [h]
  · exact h ▸ (not_source_of_expansion he).1
  · simp [h]
  · simp [h]

theorem foldPoint_of_not_source {c : Nat} (h : c ∉ sources) : foldPoint c = [c] := by
  have hexpansion : ∀ e ∈ foldExpansions, e.1 ≠ c := fun e he heq =>
    h (List.mem_append_left _ (List.mem_map.mpr ⟨e, he, heq⟩))
  have hrun : ∀ r ∈ foldRuns, ¬ r.covers c = true := fun r hr hcovers =>
    h (List.mem_append_right _ (List.mem_flatMap.mpr ⟨r, hr, FoldRun.mem_points hcovers⟩))
  rcases foldPoint_cases c with ⟨hascii, hlower⟩ | ⟨e, he, heq, -⟩ | ⟨r, hr, hcovers, -⟩ | hsame
  · -- the capital letters of ASCII are the first run
    have hcapital := hrun ⟨65, 90, 1, 32⟩ List.mem_cons_self
    rw [hlower, lowerAsciiPoint, if_neg]
    simpa [FoldRun.covers, Nat.mod_one] using hcapital
  · exact absurd heq (hexpansion e he)
  · exact absurd hcovers (hrun r hr)
  · exact hsame

/-- What a code point is folded to is folded to itself. -/
theorem foldPoint_of_mem {c d : Nat} (hd : d ∈ foldPoint c) : foldPoint d = [d] := by
  rcases foldPoint_cases c with ⟨hascii, h⟩ | ⟨e, he, -, h⟩ | ⟨r, hr, hcovers, h⟩ | h
  · rw [h, List.mem_singleton] at hd
    have hlower : d < 128 ∧ lowerAsciiPoint d = d := by
      rw [hd, lowerAsciiPoint]
      grind [lowerAsciiPoint]
    rw [foldPoint_ascii hlower.1, hlower.2]
  · rw [h] at hd
    exact foldPoint_of_not_source ((not_source_of_expansion he).2 d hd)
  · rw [h, List.mem_singleton] at hd
    rw [hd]
    exact foldPoint_of_not_source (not_source_of_run hr hcovers)
  · rw [h, List.mem_singleton] at hd
    rw [hd, h]

/-! ### Folding a text -/

theorem fold_eq_self {t : Text} (h : ∀ c ∈ t, foldPoint c = [c]) : fold t = t := by
  induction t with
  | nil => rfl
  | cons c t ih =>
    have hrest := ih fun d hd => h d (List.mem_cons_of_mem _ hd)
    rw [fold, List.flatMap_cons, h c List.mem_cons_self, ← fold, hrest]
    rfl

/-- **Folding again changes nothing.** -/
@[simp] theorem fold_fold (t : Text) : fold (fold t) = fold t := by
  refine fold_eq_self fun d hd => ?_
  obtain ⟨c, -, hc⟩ := List.mem_flatMap.mp hd
  exact foldPoint_of_mem hc

@[simp] theorem fold_eq_nil_iff {t : Text} : fold t = [] ↔ t = [] := by
  cases t with
  | nil => exact iff_of_true rfl rfl
  | cons c t => simp [fold, foldPoint_ne_nil]

/-- A text that begins with another one does so once both are folded. -/
theorem fold_isPrefix {s t : Text} (h : s <+: t) : fold s <+: fold t := by
  obtain ⟨rest, rfl⟩ := h
  exact ⟨fold rest, (fold_append s rest).symm⟩

/-! ### White space -/

theorem sources_not_blank : (sources.all fun c => !isBlank c) = true := by
  decide +kernel

theorem runs_not_blank : (foldRuns.all fun r => r.points.all fun c =>
    !isBlank ((c : Int) + r.shift).toNat) = true := by
  decide +kernel

theorem expansions_not_blank : (foldExpansions.all fun e => e.2.all fun c => !isBlank c) = true := by
  decide +kernel

theorem not_blank_of_source {c : Nat} (h : c ∈ sources) : isBlank c = false := by
  simpa using List.all_eq_true.mp sources_not_blank c h

theorem isBlank_lowerAsciiPoint (c : Nat) : isBlank (lowerAsciiPoint c) = isBlank c := by
  unfold lowerAsciiPoint
  split
  · rename_i hcapital
    rw [Bool.and_eq_true, decide_eq_true_eq, decide_eq_true_eq] at hcapital
    have hcapitals : ∀ c ≤ 90, 65 ≤ c → isBlank (c + 32) = isBlank c := by decide
    exact hcapitals c hcapital.2 hcapital.1
  · rfl

/-- **Folding turns nothing into white space**, and white space into nothing else. -/
theorem isBlank_of_mem_foldPoint {c d : Nat} (hd : d ∈ foldPoint c) : isBlank d = isBlank c := by
  rcases foldPoint_cases c with ⟨-, h⟩ | ⟨e, he, rfl, h⟩ | ⟨r, hr, hcovers, h⟩ | h
  · rw [h, List.mem_singleton] at hd
    rw [hd, isBlank_lowerAsciiPoint]
  · rw [h] at hd
    have hsource : e.1 ∈ sources := List.mem_append_left _ (List.mem_map_of_mem he)
    have hentry := List.all_eq_true.mp expansions_not_blank e he
    rw [not_blank_of_source hsource]
    simpa using List.all_eq_true.mp hentry d hd
  · rw [h, List.mem_singleton] at hd
    have hpoint := FoldRun.mem_points hcovers
    have hsource : c ∈ sources := List.mem_append_right _ (List.mem_flatMap.mpr ⟨r, hr, hpoint⟩)
    have hrun := List.all_eq_true.mp runs_not_blank r hr
    rw [not_blank_of_source hsource, hd]
    simpa using List.all_eq_true.mp hrun c hpoint
  · rw [h, List.mem_singleton] at hd
    rw [hd]

theorem isBlankText_append (s t : Text) :
    isBlankText (s ++ t) = (isBlankText s && isBlankText t) :=
  List.all_append

/-- **A text is blank if and only if its folding is.** -/
@[simp] theorem isBlankText_fold (t : Text) : isBlankText (fold t) = isBlankText t := by
  have hpoint (c : Nat) : (foldPoint c).all isBlank = isBlank c := by
    obtain ⟨d, ds, hfolded⟩ := List.exists_cons_of_ne_nil (foldPoint_ne_nil c)
    have hsame : ∀ d ∈ foldPoint c, isBlank d = isBlank c := fun _ => isBlank_of_mem_foldPoint
    cases hc : isBlank c with
    | true =>
      rw [hc] at hsame
      exact List.all_eq_true.mpr hsame
    | false =>
      rw [hfolded, List.all_cons, hsame d (hfolded ▸ List.mem_cons_self), hc, Bool.false_and]
  unfold isBlankText fold
  rw [List.all_flatMap]
  congr 1
  funext c
  exact hpoint c

end ChatCommands.Text
