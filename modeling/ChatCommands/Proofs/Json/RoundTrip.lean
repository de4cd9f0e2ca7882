import ChatCommands.Proofs.Json.Strings
import ChatCommands.Proofs.Text.Lines
import Mathlib.Data.List.Nodup

/-!
JSON values are read as they were written.

A value is portable if it holds no number but integers of a readable length, no text but of
characters, and no object that names a member twice.  What is written for a portable value in any
layout is read as that value again.  The proof follows the reader over the written text: a value is
read off its front whatever stands behind, as long as that begins like the rest of an array, of an
object or of the whole text.
-/

namespace ChatCommands.Json

open Text (IsScalar Scalars)

/-! ### Portable values -/

mutual

/-- The value can be read as it is written. -/
def Portable : Json → Prop
  | .null => True
  | .bool _ => True
  | .int i => (Text.ofNat i.natAbs).length ≤ maxDigits
  | .real _ => False
  | .str t => Scalars t
  | .arr items => PortableItems items
  | .obj members => (members.map Prod.fst).Nodup ∧ PortableMembers members

/-- All items can be read as they are written. -/
def PortableItems : List Json → Prop
  | [] => True
  | v :: rest => Portable v ∧ PortableItems rest

/-- All members can be read as they are written. -/
def PortableMembers : List (Text × Json) → Prop
  | [] => True
  | (n, v) :: rest => Scalars n ∧ Portable v ∧ PortableMembers rest

end

theorem portableItems_iff {items : List Json} :
    PortableItems items ↔ ∀ v ∈ items, Portable v := by
  induction items with
  | nil => simp [PortableItems]
  | cons v rest ih => rw [PortableItems, ih, List.forall_mem_cons]

theorem portableMembers_iff {members : List (Text × Json)} :
    PortableMembers members ↔ ∀ m ∈ members, Scalars m.1 ∧ Portable m.2 := by
  induction members with
  | nil => simp [PortableMembers]
  | cons m rest ih => rw [PortableMembers, ih, List.forall_mem_cons, and_assoc]

theorem portable_record {members : List (String × Json)} (hnames : (members.map Prod.fst).Nodup)
    (h : ∀ m ∈ members, Portable m.2) : Portable (.record members) := by
  constructor
  · rw [List.map_map]
    have hcomp : (Prod.fst ∘ fun m : String × Json => (text m.1, m.2)) = text ∘ Prod.fst := rfl
    rw [hcomp, ← List.map_map]
    exact List.Nodup.map Text.text_injective hnames
  · rw [portableMembers_iff]
    intro m hm
    obtain ⟨n, hn, rfl⟩ := List.mem_map.mp hm
    exact ⟨Text.scalars_text n.1, h n hn⟩

theorem portable_texts {ts : List Text} (h : ∀ t ∈ ts, Scalars t) : Portable (.texts ts) := by
  apply portableItems_iff.mpr
  intro v hv
  obtain ⟨t, ht, rfl⟩ := List.mem_map.mp hv
  exact h t ht

theorem portable_orNull {t : Option Text} (h : ∀ u ∈ t, Scalars u) :
    Portable (.orNull (t.map .str)) := by
  cases t with
  | none => trivial
  | some u => exact h u rfl

/-! ### What stands behind a value -/

/-- The text is empty or begins with a blank, a comma or a closing bracket. -/
def Delimited : Text → Prop
  | [] => True
  | c :: _ => Cursor.isSpace c = true ∨ c = 44 ∨ c = 93 ∨ c = 125

theorem Delimited.not_digit {c : Nat} {t : Text} (h : Delimited (c :: t)) :
    Text.isAsciiDigit c = false := by
  simp only [Delimited, Cursor.isSpace, Bool.or_eq_true, decide_eq_true_eq] at h
  simp only [Text.isAsciiDigit, Bool.and_eq_false_iff, decide_eq_false_iff_not]
  omega

theorem Delimited.not_part {c : Nat} {t : Text} (h : Delimited (c :: t)) :
    c ≠ 46 ∧ c ≠ 101 ∧ c ≠ 69 := by
  simp only [Delimited, Cursor.isSpace, Bool.or_eq_true, decide_eq_true_eq] at h
  omega

/-! ### Numerals -/

theorem takeWhile_digits {ds tail : Text} (hds : ∀ c ∈ ds, Text.isAsciiDigit c = true)
    (htail : Delimited tail) : (ds ++ tail).takeWhile Text.isAsciiDigit = ds := by
  rw [List.takeWhile_append_of_pos hds]
  cases tail with
  | nil => rw [List.takeWhile_nil, List.append_nil]
  | cons c t => rw [List.takeWhile_cons_of_neg (by simp [htail.not_digit]), List.append_nil]

/-- **A written integer is read as that integer**, in either sign. -/
theorem readNumber_signed (place : Nat) (negative : Bool) {n : Nat} {tail : Text}
    (hlen : (Text.ofNat n).length ≤ maxDigits) (htail : Delimited tail) :
    ∃ place', readNumber ⟨place, (if negative then [45] else []) ++ (Text.ofNat n ++ tail)⟩ =
      .ok (.int (if negative then -n else n), ⟨place', tail⟩) := by
  have htake := takeWhile_digits (fun _ => Text.isAsciiDigit_of_mem_ofNat (n := n)) htail
  have hvalue := Text.toNat_ofNat n
  rcases Text.ofNat_cases n with ⟨rfl, hzero⟩ | ⟨d, ds, hdigits, hd⟩
  · rw [hzero]
    cases tail with
    | nil => cases negative <;> exact ⟨_, rfl⟩
    | cons c t =>
      obtain ⟨hpoint, he, hE⟩ := htail.not_part
      have hmax : ¬ maxDigits = 0 := by decide
      have hnumber : Text.toNat [48] = 0 := rfl
      cases negative <;> simp [readNumber, hpoint, he, hE, hmax, hnumber, Cursor.advance]
  · have hdigit := Text.isAsciiDigit_of_mem_ofNat (n := n) (hdigits ▸ List.mem_cons_self)
    have hminus : d ≠ 45 := by
      rintro rfl
      cases hdigit
    rw [hdigits] at hvalue htake hlen ⊢
    have hmax : ¬ maxDigits < ds.length + 1 := Nat.not_lt.mpr hlen
    have hskip (t : Text) : (45 :: d :: (ds ++ t)).drop (1 + (ds.length + 1)) = t := by
      rw [Nat.add_comm 1, List.drop_succ_cons, List.drop_succ_cons, List.drop_left]
    cases tail with
    | nil =>
      have hend := hskip []
      rw [List.append_nil] at htake hend ⊢
      cases negative <;> simp [readNumber, hd, hminus, htake, Cursor.advance, hmax, hvalue, hend]
    | cons c t =>
      obtain ⟨hpoint, he, hE⟩ := htail.not_part
      rw [List.cons_append] at htake
      cases negative <;>
        simp [readNumber, hd, hminus, hpoint, htake, he, hE, Cursor.advance, hmax, hvalue, hskip]

/-! ### Names of values -/

theorem named?_of_digit {c : Nat} {t : Text} (h : Text.isAsciiDigit c = true) :
    named? (c :: t) = none ∧ named? (45 :: c :: t) = none := by
  simp only [Text.isAsciiDigit, Bool.and_eq_true, decide_eq_true_eq] at h
  constructor
  · simp only [named?, names, text]
    simp
    refine ⟨?_, ?_, ?_, ?_, ?_, ?_⟩ <;> (intro hc; omega)
  · simp [named?, names, text]
    intro hc
    omega

/-! ### Blanks -/

/-- A layout whose separators are a comma and a colon with nothing but blanks behind them. -/
structure Layout.Lawful (l : Layout) : Prop where
  comma : ∃ s, l.comma = 44 :: s ∧ ∀ c ∈ s, Cursor.isSpace c = true
  colon : ∃ s, l.colon = 58 :: s ∧ ∀ c ∈ s, Cursor.isSpace c = true

theorem isSpace_of_mem_newline {l : Layout} (level : Nat) {c : Nat} (h : c ∈ l.newline level) :
    Cursor.isSpace c = true := by
  rw [Layout.newline] at h
  cases hindent : l.indent with
  | none =>
    rw [hindent] at h
    cases h
  | some n =>
    rw [hindent] at h
    rcases List.mem_cons.mp h with rfl | h
    · rfl
    · rw [List.eq_of_mem_replicate h]
      rfl

theorem skipSpace_append (place : Nat) {s t : Text} (hs : ∀ c ∈ s, Cursor.isSpace c = true)
    (ht : ∀ c ∈ t.head?, Cursor.isSpace c = false) :
    ∃ place', (Cursor.mk place (s ++ t)).skipSpace = ⟨place', t⟩ := by
  have htake : (s ++ t).takeWhile Cursor.isSpace = s := by
    rw [List.takeWhile_append_of_pos hs]
    cases t with
    | nil => rw [List.takeWhile_nil, List.append_nil]
    | cons c t =>
      have hc := ht c rfl
      rw [List.takeWhile_cons_of_neg (by simp [hc]), List.append_nil]
  refine ⟨place + s.length, ?_⟩
  rw [Cursor.skipSpace, htake, Cursor.advance, List.drop_left]

/-! ### One value -/

/-- Whatever stands behind it, the text of the value is read as the value, and a reader can tell that
a value begins there. -/
structure Reads (l : Layout) (v : Json) : Prop where
  opens : ∀ level, ∃ c t, writeAt l level v = c :: t ∧ Cursor.isSpace c = false ∧ c ≠ 93 ∧ c < 128
  reads : ∀ level fuel place tail, 2 * (writeAt l level v).length ≤ fuel → Delimited tail →
    ∃ place', readValue fuel ⟨place, writeAt l level v ++ tail⟩ = .ok (v, ⟨place', tail⟩)

variable {l : Layout}

theorem reads_null : Reads l .null := by
  constructor
  · intro level
    exact ⟨110, _, rfl, rfl, by decide⟩
  · intro level fuel place tail hfuel _
    cases fuel with
    | zero => simp [writeAt, text] at hfuel
    | succ fuel => exact ⟨_, rfl⟩

theorem reads_bool (b : Bool) : Reads l (.bool b) := by
  constructor
  · intro level
    cases b
    · exact ⟨102, _, rfl, rfl, by decide⟩
    · exact ⟨116, _, rfl, rfl, by decide⟩
  · intro level fuel place tail hfuel _
    cases fuel with
    | zero => cases b <;> simp [writeAt, text] at hfuel
    | succ fuel => cases b <;> exact ⟨_, rfl⟩

theorem readValue_numeral {fuel place c : Nat} {t : Text} (hc : c < 58)
    (hquote : c ≠ 34) (hname : named? (c :: t) = none) :
    readValue (fuel + 1) ⟨place, c :: t⟩ = readNumber ⟨place, c :: t⟩ := by
  have hbrace : c ≠ 123 := by omega
  have hbracket : c ≠ 91 := by omega
  simp [readValue, hquote, hbrace, hbracket, hname]

theorem exists_ofNat_eq_cons (n : Nat) :
    ∃ d ds, Text.ofNat n = d :: ds ∧ Text.isAsciiDigit d = true := by
  rcases Text.ofNat_cases n with ⟨rfl, hzero⟩ | ⟨d, ds, hdigits, -⟩
  · exact ⟨48, [], hzero, rfl⟩
  · exact ⟨d, ds, hdigits, Text.isAsciiDigit_of_mem_ofNat (n := n) (hdigits ▸ List.mem_cons_self)⟩

theorem exists_fuel {fuel : Nat} {c : Nat} {t : Text} (h : 2 * (c :: t).length ≤ fuel) :
    ∃ fuel', fuel = fuel' + 1 := by
  rw [List.length_cons] at h
  exact ⟨fuel - 1, by omega⟩

theorem reads_int {i : Int} (h : Portable (.int i)) : Reads l (.int i) := by
  rw [Portable] at h
  constructor
  · intro level
    cases i with
    | ofNat n =>
      obtain ⟨d, ds, hdigits, hd⟩ := exists_ofNat_eq_cons n
      simp only [Text.isAsciiDigit, Bool.and_eq_true, decide_eq_true_eq] at hd
      refine ⟨d, ds, hdigits, ?_, by omega⟩
      simp [Cursor.isSpace]
      omega
    | negSucc n => exact ⟨45, _, rfl, rfl, by decide⟩
  · intro level fuel place tail hfuel htail
    rw [writeAt] at hfuel ⊢
    cases i with
    | ofNat n =>
      obtain ⟨d, ds, hdigits, hd⟩ := exists_ofNat_eq_cons n
      obtain ⟨place', hread⟩ :=
        readNumber_signed (n := n) place false h htail
      have hd' := hd
      simp only [Text.isAsciiDigit, Bool.and_eq_true, decide_eq_true_eq] at hd'
      rw [Text.ofInt, hdigits] at hfuel
      obtain ⟨fuel, rfl⟩ := exists_fuel hfuel
      refine ⟨place', ?_⟩
      rw [Text.ofInt, hdigits, List.cons_append,
        readValue_numeral (by omega) (by omega) (named?_of_digit hd).1, ← List.cons_append, ← hdigits]
      exact hread
    | negSucc n =>
      obtain ⟨d, ds, hdigits, hd⟩ := exists_ofNat_eq_cons (n + 1)
      obtain ⟨place', hread⟩ :=
        readNumber_signed (n := n + 1) place true h htail
      rw [Text.ofInt] at hfuel
      obtain ⟨fuel, rfl⟩ := exists_fuel hfuel
      refine ⟨place', ?_⟩
      have hname := (named?_of_digit (t := ds ++ tail) hd).2
      rw [← List.cons_append, ← hdigits] at hname
      rw [Text.ofInt, List.cons_append, readValue_numeral (by decide) (by decide) hname]
      exact hread

/-! ### Strings -/

theorem writeString_append (t tail : Text) :
    writeString t ++ tail = 34 :: (t.flatMap escapePoint ++ 34 :: tail) := by
  rw [writeString, List.append_assoc]
  rfl

theorem readString_written (start place : Nat) (tail : Text) {t : Text} (h : Scalars t) :
    ∃ place', readString start ((t.flatMap escapePoint ++ 34 :: tail).length + 1) []
      ⟨place, t.flatMap escapePoint ++ 34 :: tail⟩ = .ok (t, ⟨place', tail⟩) := by
  have hlen := length_le_length_escaped t
  refine ⟨_, readString_escaped h ?_⟩
  rw [List.length_append]
  omega

theorem reads_str {t : Text} (h : Portable (.str t)) : Reads l (.str t) := by
  rw [Portable] at h
  constructor
  · intro level
    exact ⟨34, _, rfl, rfl, by decide⟩
  · intro level fuel place tail hfuel _
    rw [writeAt] at hfuel ⊢
    obtain ⟨fuel, rfl⟩ := exists_fuel hfuel
    obtain ⟨place', hread⟩ := readString_written place (place + 1) tail h
    refine ⟨place', ?_⟩
    rw [writeString_append, readValue]
    change (readString place _ [] ⟨place + 1, t.flatMap escapePoint ++ 34 :: tail⟩ >>= _) = _
    rw [hread]
    rfl

/-! ### Arrays -/

theorem writeItems_eq_map (level : Nat) (items : List Json) :
    writeItems l level items = items.map (writeAt l level) := by
  induction items with
  | nil => rfl
  | cons v rest ih => rw [writeItems, ih, List.map_cons]

section Steps

variable {fuel place : Nat} {s s' s'' : Cursor} {v : Json} {rest tail : Text}

theorem readItems_last {done : List Json} (hread : readValue fuel s = .ok (v, s'))
    (hskip : s'.skipSpace = ⟨place, 93 :: tail⟩) :
    readItems (fuel + 1) done s = .ok (.arr (done.reverse ++ [v]), ⟨place + 1, tail⟩) := by
  rw [readItems, hread, ← List.reverse_cons]
  change (if s'.skipSpace.head? = some 93 then _ else _) = _
  rw [hskip]
  rfl

theorem readItems_next {done : List Json} (hread : readValue fuel s = .ok (v, s'))
    (hskip : s'.skipSpace = ⟨place, 44 :: rest⟩)
    (hnext : (Cursor.mk (place + 1) rest).skipSpace = s'') :
    readItems (fuel + 1) done s = readItems fuel (v :: done) s'' := by
  rw [readItems, hread]
  change (if s'.skipSpace.head? = some 93 then _ else _) = _
  rw [hskip, ← hnext]
  rfl

theorem readValue_items (hskip : (Cursor.mk (place + 1) rest).skipSpace = s')
    (h : s'.head? ≠ some 93) :
    readValue (fuel + 1) ⟨place, 91 :: rest⟩ = readItems fuel [] s' := by
  subst hskip
  rw [readValue]
  exact if_neg h

theorem readValue_members (hskip : (Cursor.mk (place + 1) rest).skipSpace = s')
    (h : s'.head? ≠ some 125) :
    readValue (fuel + 1) ⟨place, 123 :: rest⟩ = readMembers fuel [] s' := by
  subst hskip
  rw [readValue]
  exact if_neg h

end Steps

/-- The separator of a layout is a comma with blanks behind it. -/
theorem Layout.Lawful.separator (hl : l.Lawful) (level : Nat) :
    ∃ s, l.comma ++ l.newline level = 44 :: s ∧ ∀ c ∈ s, Cursor.isSpace c = true := by
  obtain ⟨s, hcomma, hs⟩ := hl.comma
  refine ⟨s ++ l.newline level, by rw [hcomma, List.cons_append], ?_⟩
  intro c hc
  rcases List.mem_append.mp hc with hc | hc
  · exact hs c hc
  · exact isSpace_of_mem_newline level hc

theorem delimited_append {gap t : Text} (hgap : ∀ c ∈ gap, Cursor.isSpace c = true)
    (ht : Delimited t) : Delimited (gap ++ t) := by
  cases gap with
  | nil => exact ht
  | cons c gap => exact .inl (hgap c List.mem_cons_self)

theorem exists_join_eq_cons (sep : Text) (c : Nat) (t : Text) (ls : List Text) :
    ∃ t', Text.join sep ((c :: t) :: ls) = c :: t' := by
  cases ls with
  | nil => exact ⟨t, List.intercalate_singleton⟩
  | cons l ls => exact ⟨_, Text.join_cons (List.cons_ne_nil l ls)⟩

/-- Behind the first of several parts stand a comma, blanks and the other parts. -/
theorem Layout.Lawful.join_eq (hl : l.Lawful) (level c : Nat) (x t : Text) (ls : List Text) :
    ∃ blanks t', (∀ c ∈ blanks, Cursor.isSpace c = true) ∧
      Text.join (l.comma ++ l.newline level) ((c :: t) :: ls) = c :: t' ∧
      Text.join (l.comma ++ l.newline level) (x :: (c :: t) :: ls) =
        x ++ 44 :: (blanks ++ c :: t') := by
  obtain ⟨blanks, hsep, hblanks⟩ := hl.separator level
  obtain ⟨t', hjoin⟩ := exists_join_eq_cons (l.comma ++ l.newline level) c t ls
  refine ⟨blanks, t', hblanks, hjoin, ?_⟩
  rw [Text.join_cons (List.cons_ne_nil _ _), hjoin, hsep, List.append_assoc, List.cons_append]

/-- **The items of an array are read one after the other**, from any one of them on. -/
theorem readItems_written (hl : l.Lawful) {level : Nat} {gap : Text} (tail : Text)
    (hgap : ∀ c ∈ gap, Cursor.isSpace c = true) {v : Json} {items : List Json} (hv : Reads l v)
    (hitems : ∀ v ∈ items, Reads l v) {fuel : Nat} (place : Nat) (done : List Json)
    (hfuel : 2 * (Text.join (l.comma ++ l.newline level) ((v :: items).map (writeAt l level))).length
      < fuel) :
    ∃ place', readItems fuel done ⟨place, Text.join (l.comma ++ l.newline level)
        ((v :: items).map (writeAt l level)) ++ (gap ++ 93 :: tail)⟩ =
      .ok (.arr (done.reverse ++ v :: items), ⟨place', tail⟩) := by
  obtain ⟨fuel, rfl⟩ := Nat.exists_eq_succ_of_ne_zero (Nat.ne_of_gt (Nat.zero_lt_of_lt hfuel))
  induction items generalizing v fuel place done with
  | nil =>
    have hone : Text.join (l.comma ++ l.newline level) ([v].map (writeAt l level)) =
      writeAt l level v := List.intercalate_singleton
    rw [hone] at hfuel ⊢
    obtain ⟨p₁, hread⟩ := hv.reads level fuel place (gap ++ 93 :: tail) (by omega)
      (delimited_append hgap (.inr (.inr (.inl rfl))))
    obtain ⟨p₂, hskip⟩ := skipSpace_append p₁ (t := 93 :: tail) hgap
      (by rintro c ⟨⟩; rfl)
    exact ⟨_, readItems_last hread hskip⟩
  | cons w items ih =>
    obtain ⟨c, t, hopens, hc, -⟩ := (hitems w List.mem_cons_self).opens level
    obtain ⟨blanks, t', hblanks, hrest, hall⟩ := hl.join_eq level c (writeAt l level v) t
      (items.map (writeAt l level))
    rw [← hopens, ← List.map_cons] at hrest hall
    rw [← List.map_cons] at hall
    rw [hall, List.length_append, List.length_cons, List.length_append] at hfuel
    obtain ⟨fuel, rfl⟩ : ∃ f, fuel = f + 1 := ⟨fuel - 1, by omega⟩
    obtain ⟨p₁, hread⟩ := hv.reads level (fuel + 1) place
      (44 :: (blanks ++ c :: t') ++ (gap ++ 93 :: tail)) (by omega) (.inr (.inl rfl))
    obtain ⟨p₂, hskip⟩ := skipSpace_append p₁ (s := [])
      (t := 44 :: (blanks ++ c :: t') ++ (gap ++ 93 :: tail)) (by simp) (by rintro c ⟨⟩; rfl)
    obtain ⟨p₃, hnext⟩ := skipSpace_append (p₂ + 1) (t := c :: t' ++ (gap ++ 93 :: tail))
      hblanks (by rintro c ⟨⟩; exact hc)
    rw [← List.append_assoc] at hnext
    obtain ⟨p₄, hread'⟩ := ih (hitems w List.mem_cons_self)
      (fun u hu => hitems u (List.mem_cons_of_mem w hu)) p₃ (v :: done) fuel (by rw [hrest]; omega)
    refine ⟨p₄, ?_⟩
    rw [hall, List.append_assoc, readItems_next hread hskip hnext, ← hrest]
    rw [hread', List.reverse_cons, List.append_assoc]
    rfl

theorem bracketed_of_ne_nil (level opening closing : Nat) (ts : List Text) (h : ts ≠ []) :
    bracketed l level opening closing ts =
      opening :: (l.newline (level + 1) ++ (Text.join (l.comma ++ l.newline (level + 1)) ts ++
        (l.newline level ++ [closing]))) := by
  cases ts with
  | nil => exact absurd rfl h
  | cons t ts => simp [bracketed]

theorem reads_arr (hl : l.Lawful) {items : List Json} (h : ∀ v ∈ items, Reads l v) :
    Reads l (.arr items) := by
  cases items with
  | nil =>
    constructor
    · intro level
      exact ⟨91, _, rfl, rfl, by decide⟩
    · intro level fuel place tail hfuel _
      obtain ⟨fuel, rfl⟩ := exists_fuel hfuel
      exact ⟨_, rfl⟩
  | cons v items =>
    have hwritten (level : Nat) := bracketed_of_ne_nil (l := l) level 91 93
      ((v :: items).map (writeAt l (level + 1))) (List.cons_ne_nil _ _)
    constructor
    · intro level
      rw [writeAt, writeItems_eq_map, hwritten]
      exact ⟨91, _, rfl, rfl, by decide⟩
    · intro level fuel place tail hfuel _
      rw [writeAt, writeItems_eq_map, hwritten] at hfuel ⊢
      obtain ⟨fuel, rfl⟩ := exists_fuel hfuel
      obtain ⟨c, t, hopens, hc, hbracket, -⟩ := (h v List.mem_cons_self).opens (level + 1)
      obtain ⟨t', hjoin⟩ := exists_join_eq_cons (l.comma ++ l.newline (level + 1)) c t
        (items.map (writeAt l (level + 1)))
      rw [← hopens, ← List.map_cons] at hjoin
      obtain ⟨p₁, hskip⟩ := skipSpace_append (place + 1)
        (t := c :: t' ++ (l.newline level ++ 93 :: tail))
        (fun _ => isSpace_of_mem_newline (l := l) (level + 1)) (by rintro c ⟨⟩; exact hc)
      have hfuel' : 2 * (Text.join (l.comma ++ l.newline (level + 1))
          ((v :: items).map (writeAt l (level + 1)))).length < fuel := by
        simp only [List.length_cons, List.length_append] at hfuel ⊢
        omega
      obtain ⟨p₂, hread⟩ := readItems_written hl tail
        (fun _ => isSpace_of_mem_newline (l := l) level) (h v List.mem_cons_self)
        (fun u hu => h u (List.mem_cons_of_mem v hu)) p₁ [] hfuel'
      have hsplit : 91 :: (l.newline (level + 1) ++ (c :: t' ++ (l.newline level ++ [93]))) ++ tail =
          91 :: (l.newline (level + 1) ++ (c :: t' ++ (l.newline level ++ 93 :: tail))) := by
        simp
      refine ⟨p₂, ?_⟩
      rw [hjoin] at hread ⊢
      rw [hsplit, readValue_items hskip (by rintro ⟨⟩; exact hbracket rfl), hread]
      rfl

/-! ### Objects -/

/-- The text of one member. -/
def memberText (l : Layout) (level : Nat) (m : Text × Json) : Text :=
  writeString m.1 ++ l.colon ++ writeAt l level m.2

theorem writeMembers_eq_map (level : Nat) (members : List (Text × Json)) :
    writeMembers l level members = members.map (memberText l level) := by
  induction members with
  | nil => rfl
  | cons m rest ih =>
    rw [writeMembers, ih, List.map_cons]
    rfl

theorem memberText_eq_cons (level : Nat) (m : Text × Json) :
    ∃ t, memberText l level m = 34 :: t :=
  ⟨_, rfl⟩

theorem setMember_of_notMem {name : Text} {v : Json} {members : List (Text × Json)}
    (h : name ∉ members.map Prod.fst) : setMember name v members = members ++ [(name, v)] := by
  induction members with
  | nil => rfl
  | cons m rest ih =>
    rw [List.map_cons, List.mem_cons, not_or] at h
    rw [setMember, if_neg (Ne.symm h.1), ih h.2]
    rfl

/-- What the reader does behind a member. -/
def afterMember (fuel : Nat) (done : List (Text × Json)) (s : Cursor) :
    Except ReadError (Json × Cursor) :=
  if s.head? = some 125 then pure (.obj done, s.advance 1)
  else if s.head? = some 44 then readMembers fuel done (s.advance 1).skipSpace
  else s.fail .expectingComma

/-- One member is read off the front of a text. -/
theorem readMembers_member (hl : l.Lawful) {m : Text × Json} (hname : Scalars m.1)
    (hv : Reads l m.2) (level fuel place : Nat) {done : List (Text × Json)} {tail : Text}
    (hnew : m.1 ∉ done.map Prod.fst) (hfuel : 2 * (memberText l level m).length ≤ fuel)
    (htail : Delimited tail) :
    ∃ place', readMembers (fuel + 1) done ⟨place, memberText l level m ++ tail⟩ =
      afterMember fuel (done ++ [m]) (Cursor.mk place' tail).skipSpace := by
  obtain ⟨blanks, hcolon, hblanks⟩ := hl.colon
  obtain ⟨c, t, hopens, hc, -⟩ := hv.opens level
  rw [memberText, List.append_assoc, List.length_append, List.length_append] at hfuel
  have hsplit : memberText l level m ++ tail =
      34 :: (m.1.flatMap escapePoint ++ 34 :: 58 :: (blanks ++ (writeAt l level m.2 ++ tail))) := by
    rw [memberText, List.append_assoc, List.append_assoc, hcolon, writeString_append]
    simp
  obtain ⟨p₁, hstring⟩ := readString_written place (place + 1)
    (58 :: (blanks ++ (writeAt l level m.2 ++ tail))) hname
  obtain ⟨p₂, hbefore⟩ := skipSpace_append p₁ (s := [])
    (t := 58 :: (blanks ++ (writeAt l level m.2 ++ tail))) (by simp) (by rintro c ⟨⟩; rfl)
  obtain ⟨p₃, hafter⟩ := skipSpace_append (p₂ + 1) (t := writeAt l level m.2 ++ tail)
    hblanks (by rw [hopens]; rintro c ⟨⟩; exact hc)
  obtain ⟨p₄, hread⟩ := hv.reads level fuel p₃ tail (by omega) htail
  refine ⟨p₄, ?_⟩
  rw [hsplit, readMembers, ← setMember_of_notMem hnew]
  generalize blanks ++ (writeAt l level m.2 ++ tail) = value at *
  change (readString place _ [] ⟨place + 1, m.1.flatMap escapePoint ++ 34 :: 58 :: value⟩ >>= _) = _
  rw [hstring]
  simp only [bind, Except.bind, show (Cursor.mk p₁ (58 :: value)).skipSpace = ⟨p₂, 58 :: value⟩ from
    hbefore, Cursor.head?, List.head?_cons, if_true, Cursor.advance, List.drop_succ_cons,
    List.drop_zero, hafter, hread]
  rfl

theorem afterMember_last {fuel place : Nat} {done : List (Text × Json)} {tail : Text} :
    afterMember fuel done ⟨place, 125 :: tail⟩ = .ok (.obj done, ⟨place + 1, tail⟩) := rfl

theorem afterMember_next {fuel place : Nat} {done : List (Text × Json)} {rest : Text} {s : Cursor}
    (hnext : (Cursor.mk (place + 1) rest).skipSpace = s) :
    afterMember fuel done ⟨place, 44 :: rest⟩ = readMembers fuel done s := by
  rw [← hnext]
  rfl

theorem notMem_of_nodup {done members : List (Text × Json)} {m : Text × Json}
    (h : ((done ++ m :: members).map Prod.fst).Nodup) : m.1 ∉ done.map Prod.fst := by
  rw [List.map_append, List.map_cons, List.nodup_append] at h
  intro hmem
  exact h.2.2 _ hmem _ List.mem_cons_self rfl

/-- **The members of an object are read one after the other**, from any one of them on. -/
theorem readMembers_written (hl : l.Lawful) {level : Nat} {gap : Text} (tail : Text)
    (hgap : ∀ c ∈ gap, Cursor.isSpace c = true) {m : Text × Json} {members : List (Text × Json)}
    (hall : ∀ m' ∈ m :: members, Scalars m'.1 ∧ Reads l m'.2) {fuel : Nat} (place : Nat)
    {done : List (Text × Json)} (hnames : ((done ++ m :: members).map Prod.fst).Nodup)
    (hfuel : 2 * (Text.join (l.comma ++ l.newline level)
      ((m :: members).map (memberText l level))).length < fuel) :
    ∃ place', readMembers fuel done ⟨place, Text.join (l.comma ++ l.newline level)
        ((m :: members).map (memberText l level)) ++ (gap ++ 125 :: tail)⟩ =
      .ok (.obj (done ++ m :: members), ⟨place', tail⟩) := by
  obtain ⟨fuel, rfl⟩ := Nat.exists_eq_succ_of_ne_zero (Nat.ne_of_gt (Nat.zero_lt_of_lt hfuel))
  induction members generalizing m fuel place done with
  | nil =>
    have hone : Text.join (l.comma ++ l.newline level) ([m].map (memberText l level)) =
      memberText l level m := List.intercalate_singleton
    obtain ⟨hname, hv⟩ := hall m List.mem_cons_self
    rw [hone] at hfuel ⊢
    have htail : Delimited (gap ++ 125 :: tail) :=
      delimited_append hgap (.inr (.inr (.inr rfl)))
    obtain ⟨p₁, hread⟩ := readMembers_member hl hname hv level fuel place
      (notMem_of_nodup hnames) (Nat.le_of_lt_succ hfuel) htail
    obtain ⟨p₂, hskip⟩ := skipSpace_append p₁ (t := 125 :: tail) hgap
      (by rintro c ⟨⟩; rfl)
    refine ⟨p₂ + 1, ?_⟩
    rw [hread, hskip, afterMember_last]
  | cons w members ih =>
    obtain ⟨hname, hv⟩ := hall m List.mem_cons_self
    obtain ⟨t, hopens⟩ := memberText_eq_cons (l := l) level w
    obtain ⟨blanks, t', hblanks, hrest, hjoin⟩ := hl.join_eq level 34 (memberText l level m) t
      (members.map (memberText l level))
    rw [← hopens, ← List.map_cons] at hrest hjoin
    rw [← List.map_cons] at hjoin
    rw [hjoin, List.length_append, List.length_cons, List.length_append] at hfuel
    obtain ⟨fuel, rfl⟩ : ∃ f, fuel = f + 1 := ⟨fuel - 1, by omega⟩
    obtain ⟨p₁, hread⟩ := readMembers_member hl hname hv level (fuel + 1) place
      (notMem_of_nodup hnames) (by omega)
      (show Delimited (44 :: (blanks ++ 34 :: t') ++ (gap ++ 125 :: tail)) from .inr (.inl rfl))
    obtain ⟨p₂, hskip⟩ := skipSpace_append p₁ (s := [])
      (t := 44 :: (blanks ++ 34 :: t') ++ (gap ++ 125 :: tail)) (by simp) (by rintro c ⟨⟩; rfl)
    obtain ⟨p₃, hnext⟩ := skipSpace_append (p₂ + 1) (t := 34 :: t' ++ (gap ++ 125 :: tail))
      hblanks (by rintro c ⟨⟩; rfl)
    rw [← List.append_assoc] at hnext
    have hnames' : ((done ++ [m] ++ w :: members).map Prod.fst).Nodup := by
      rwa [List.append_assoc]
    obtain ⟨p₄, hread'⟩ := ih (fun u hu => hall u (List.mem_cons_of_mem m hu)) p₃ hnames' fuel
      (by rw [hrest]; omega)
    refine ⟨p₄, ?_⟩
    rw [hjoin, List.append_assoc, hread,
      show (Cursor.mk p₁ (44 :: (blanks ++ 34 :: t') ++ (gap ++ 125 :: tail))).skipSpace = _ from hskip,
      List.cons_append, afterMember_next hnext, ← hrest, hread', List.append_assoc]
    rfl

theorem reads_obj (hl : l.Lawful) {members : List (Text × Json)}
    (hnames : (members.map Prod.fst).Nodup)
    (h : ∀ m ∈ members, Scalars m.1 ∧ Reads l m.2) : Reads l (.obj members) := by
  cases members with
  | nil =>
    constructor
    · intro level
      exact ⟨123, _, rfl, rfl, by decide⟩
    · intro level fuel place tail hfuel _
      obtain ⟨fuel, rfl⟩ := exists_fuel hfuel
      exact ⟨_, rfl⟩
  | cons m members =>
    have hwritten (level : Nat) := bracketed_of_ne_nil (l := l) level 123 125
      ((m :: members).map (memberText l (level + 1))) (List.cons_ne_nil _ _)
    constructor
    · intro level
      rw [writeAt, writeMembers_eq_map, hwritten]
      exact ⟨123, _, rfl, rfl, by decide⟩
    · intro level fuel place tail hfuel _
      rw [writeAt, writeMembers_eq_map, hwritten] at hfuel ⊢
      obtain ⟨fuel, rfl⟩ := exists_fuel hfuel
      obtain ⟨t, hopens⟩ := memberText_eq_cons (l := l) (level + 1) m
      obtain ⟨t', hjoin⟩ := exists_join_eq_cons (l.comma ++ l.newline (level + 1)) 34 t
        (members.map (memberText l (level + 1)))
      rw [← hopens, ← List.map_cons] at hjoin
      obtain ⟨p₁, hskip⟩ := skipSpace_append (place + 1)
        (t := 34 :: t' ++ (l.newline level ++ 125 :: tail))
        (fun _ => isSpace_of_mem_newline (l := l) (level + 1)) (by rintro c ⟨⟩; rfl)
      have hfuel' : 2 * (Text.join (l.comma ++ l.newline (level + 1))
          ((m :: members).map (memberText l (level + 1)))).length < fuel := by
        simp only [List.length_cons, List.length_append] at hfuel ⊢
        omega
      obtain ⟨p₂, hread⟩ := readMembers_written hl tail
        (fun _ => isSpace_of_mem_newline (l := l) level) h p₁ (List.nil_append (m :: members) ▸ hnames)
        hfuel'
      have hsplit :
          123 :: (l.newline (level + 1) ++ (34 :: t' ++ (l.newline level ++ [125]))) ++ tail =
            123 :: (l.newline (level + 1) ++ (34 :: t' ++ (l.newline level ++ 125 :: tail))) := by
        simp
      refine ⟨p₂, ?_⟩
      rw [hjoin] at hread ⊢
      rw [hsplit, readValue_members hskip (by rintro ⟨⟩), hread]
      rfl

/-! ### Whole values -/

mutual

/-- **A portable value is read as it was written**, whatever stands behind it. -/
theorem reads_of_portable (hl : l.Lawful) : (v : Json) → Portable v → Reads l v
  | .null, _ => reads_null
  | .bool b, _ => reads_bool b
  | .int _, h => reads_int h
  | .real _, h => h.elim
  | .str _, h => reads_str h
  | .arr items, h => reads_arr hl (reads_items hl items h)
  | .obj members, h => reads_obj hl h.1 (reads_members hl members h.2)

theorem reads_items (hl : l.Lawful) :
    (items : List Json) → PortableItems items → ∀ v ∈ items, Reads l v
  | [], _ => fun _ hv => nomatch hv
  | v :: rest, h => List.forall_mem_cons.mpr ⟨reads_of_portable hl v h.1, reads_items hl rest h.2⟩

theorem reads_members (hl : l.Lawful) :
    (members : List (Text × Json)) → PortableMembers members →
      ∀ m ∈ members, Scalars m.1 ∧ Reads l m.2
  | [], _ => fun _ hm => nomatch hm
  | (_, v) :: rest, h => List.forall_mem_cons.mpr
      ⟨⟨h.1, reads_of_portable hl v h.2.1⟩, reads_members hl rest h.2.2⟩

end

theorem lawful_spaced : Layout.spaced.Lawful := by
  constructor
  · exact ⟨[32], rfl, by decide⟩
  · exact ⟨[32], rfl, by decide⟩

theorem lawful_compact : Layout.compact.Lawful := by
  constructor
  · exact ⟨[], rfl, by decide⟩
  · exact ⟨[], rfl, by decide⟩

theorem lawful_indented : Layout.indented.Lawful := by
  constructor
  · exact ⟨[], rfl, by decide⟩
  · exact ⟨[32], rfl, by decide⟩

/-- **A portable value survives being written and read**, in whatever layout it was written. -/
theorem read_write (hl : l.Lawful) {v : Json} (h : Portable v) : read (v.write l) = .ok v := by
  have hreads := reads_of_portable hl v h
  obtain ⟨c, t, hopens, hc, -, hascii⟩ := hreads.opens 0
  have hmark : ¬ (v.write l).head? = some 0xFEFF := by
    rw [write, hopens, List.head?_cons, Option.some.injEq]
    omega
  obtain ⟨p₁, hskip⟩ := skipSpace_append 0 (s := []) (t := v.write l) (by simp)
    (by rw [write, hopens]; rintro c ⟨⟩; exact hc)
  obtain ⟨p₂, hread⟩ := hreads.reads 0 (2 * (v.write l).length + 2) p₁ []
    (Nat.le_add_right _ 2) trivial
  rw [List.append_nil] at hread
  rw [read, if_neg hmark, show (Cursor.mk 0 (v.write l)).skipSpace = _ from hskip]
  change (readValue _ ⟨p₁, writeAt l 0 v⟩ >>= _) = _
  rw [hread]
  rfl

/-! ### What is written is printable ASCII -/

/-- A layout that writes a value on one line, with printable separators. -/
structure Layout.OneLine (l : Layout) : Prop where
  indent : l.indent = none
  comma : ∀ c ∈ l.comma, Plain c
  colon : ∀ c ∈ l.colon, Plain c

theorem oneLine_spaced : Layout.spaced.OneLine := by
  constructor
  · rfl
  · decide
  · decide

theorem oneLine_compact : Layout.compact.OneLine := by
  constructor
  · rfl
  · decide
  · decide

theorem plain_of_mem_join {sep : Text} {ts : List Text} (hsep : ∀ c ∈ sep, Plain c)
    (hts : ∀ t ∈ ts, ∀ c ∈ t, Plain c) : ∀ c ∈ Text.join sep ts, Plain c := by
  intro c hc
  rcases Text.mem_join hc with hc | ⟨t, ht, hc⟩
  · exact hsep c hc
  · exact hts t ht c hc

theorem plain_of_mem_ofNat {n : Nat} : ∀ c ∈ Text.ofNat n, Plain c := by
  intro c hc
  have hdigit := Text.isAsciiDigit_of_mem_ofNat hc
  simp only [Text.isAsciiDigit, Bool.and_eq_true, decide_eq_true_eq] at hdigit
  exact ⟨by omega, by omega⟩

theorem plain_of_mem_ofInt {i : Int} : ∀ c ∈ Text.ofInt i, Plain c := by
  cases i with
  | ofNat n => exact plain_of_mem_ofNat
  | negSucc n => exact List.forall_mem_cons.mpr ⟨by decide, plain_of_mem_ofNat⟩

theorem plain_of_mem_zeros {n : Nat} : ∀ c ∈ List.replicate n 48, Plain c := by
  intro c hc
  rw [List.eq_of_mem_replicate hc]
  decide

section Numerals

variable {digits : Text}

theorem plain_of_mem_positional (hdigits : ∀ c ∈ digits, Plain c) (point : Int) (whole : Bool) :
    ∀ c ∈ Binary64.positional digits point whole, Plain c := by
  have htake (n : Nat) : ∀ c ∈ digits.take n, Plain c := fun c hc => hdigits c (List.mem_of_mem_take hc)
  have hdrop (n : Nat) : ∀ c ∈ digits.drop n, Plain c := fun c hc => hdigits c (List.mem_of_mem_drop hc)
  have hzero : ∀ c ∈ text "0.", Plain c := by decide
  have hpoint : ∀ c ∈ text ".", Plain c := by decide
  have hend : ∀ c ∈ if whole then [] else text ".0", Plain c := by cases whole <;> decide
  unfold Binary64.positional
  split
  · exact List.forall_mem_append.mpr
      ⟨List.forall_mem_append.mpr ⟨hzero, plain_of_mem_zeros⟩, hdigits⟩
  · dsimp only
    split
    · exact List.forall_mem_append.mpr
        ⟨List.forall_mem_append.mpr ⟨hdigits, plain_of_mem_zeros⟩, hend⟩
    · exact List.forall_mem_append.mpr
        ⟨List.forall_mem_append.mpr ⟨htake _, hpoint⟩, hdrop _⟩

theorem plain_of_mem_scientific (hdigits : ∀ c ∈ digits, Plain c) (exponent : Int) :
    ∀ c ∈ Binary64.scientific digits exponent, Plain c := by
  have hsize : ∀ c ∈ if (Text.ofNat exponent.natAbs).length < 2 then
      48 :: Text.ofNat exponent.natAbs else Text.ofNat exponent.natAbs, Plain c := by
    split
    · exact List.forall_mem_cons.mpr ⟨by decide, plain_of_mem_ofNat⟩
    · exact plain_of_mem_ofNat
  have hsign : ∀ c ∈ [cp 'e', if exponent < 0 then cp '-' else cp '+'], Plain c := by
    split <;> decide
  refine List.forall_mem_append.mpr ⟨List.forall_mem_append.mpr ⟨?_, hsign⟩, hsize⟩
  split
  · rw [List.forall_mem_cons] at hdigits
    exact List.forall_mem_cons.mpr ⟨hdigits.1, List.forall_mem_cons.mpr ⟨by decide, hdigits.2⟩⟩
  · exact hdigits

theorem plain_of_mem_withSign {t : Text} (h : ∀ c ∈ t, Plain c) (negative : Bool) :
    ∀ c ∈ Binary64.withSign negative t, Plain c := by
  cases negative with
  | false => exact h
  | true => exact List.forall_mem_cons.mpr ⟨by decide, h⟩

/-- A numeral is printable ASCII, and so are the names of the numbers that are not finite. -/
theorem plain_of_mem_render (x : Binary64) : ∀ c ∈ x.render, Plain c := by
  unfold Binary64.render
  split
  · decide
  · exact plain_of_mem_withSign (by decide) _
  · exact plain_of_mem_withSign (by decide) _
  · apply plain_of_mem_withSign
    split
    · exact plain_of_mem_positional plain_of_mem_ofNat _ _
    · exact plain_of_mem_scientific plain_of_mem_ofNat _

theorem plain_of_mem_writeReal (x : Binary64) : ∀ c ∈ writeReal x, Plain c := by
  unfold writeReal
  split
  · decide
  · decide
  · decide
  · exact plain_of_mem_render _

end Numerals

theorem plain_of_mem_bracketed (hl : l.OneLine) {level opening closing : Nat} {ts : List Text}
    (hopening : Plain opening) (hclosing : Plain closing) (hts : ∀ t ∈ ts, ∀ c ∈ t, Plain c) :
    ∀ c ∈ bracketed l level opening closing ts, Plain c := by
  have hline (n : Nat) : l.newline n = [] := by rw [Layout.newline, hl.indent]
  by_cases hnil : ts = []
  · subst hnil
    simpa [bracketed] using ⟨hopening, hclosing⟩
  · intro c hc
    rw [bracketed_of_ne_nil _ _ _ _ hnil, hline, hline, List.append_nil, List.nil_append, List.nil_append]
      at hc
    rcases List.mem_cons.mp hc with rfl | hc
    · exact hopening
    · rcases List.mem_append.mp hc with hc | hc
      · exact plain_of_mem_join hl.comma hts c hc
      · rw [List.mem_singleton.mp hc]
        exact hclosing

mutual

/-- **A value is written in printable ASCII** by a layout on one line. -/
theorem plain_of_mem_writeAt (hl : l.OneLine) :
    (v : Json) → ∀ level, ∀ c ∈ writeAt l level v, Plain c
  | .null => by
    intro level
    have hnull : ∀ c ∈ text "null", Plain c := by decide
    exact hnull
  | .bool b => by
    intro level
    have htrue : ∀ c ∈ text "true", Plain c := by decide
    have hfalse : ∀ c ∈ text "false", Plain c := by decide
    cases b
    · exact hfalse
    · exact htrue
  | .int i => fun _ => plain_of_mem_ofInt
  | .real x => fun _ => plain_of_mem_writeReal x
  | .str t => fun _ _ => plain_of_mem_writeString
  | .arr items => by
    intro level
    rw [writeAt, writeItems_eq_map]
    apply plain_of_mem_bracketed hl (by decide) (by decide)
    intro t ht
    obtain ⟨v, hv, rfl⟩ := List.mem_map.mp ht
    exact plain_of_mem_items hl items v hv (level + 1)
  | .obj members => by
    intro level
    rw [writeAt, writeMembers_eq_map]
    apply plain_of_mem_bracketed hl (by decide) (by decide)
    intro t ht
    obtain ⟨m, hm, rfl⟩ := List.mem_map.mp ht
    intro c hc
    rcases List.mem_append.mp hc with hc | hc
    · rcases List.mem_append.mp hc with hc | hc
      · exact plain_of_mem_writeString hc
      · exact hl.colon c hc
    · exact plain_of_mem_members hl members m hm (level + 1) c hc

theorem plain_of_mem_items (hl : l.OneLine) : (items : List Json) →
    ∀ v ∈ items, ∀ level, ∀ c ∈ writeAt l level v, Plain c
  | [] => fun _ hv => nomatch hv
  | v :: rest =>
    List.forall_mem_cons.mpr ⟨plain_of_mem_writeAt hl v, plain_of_mem_items hl rest⟩

theorem plain_of_mem_members (hl : l.OneLine) : (members : List (Text × Json)) →
    ∀ m ∈ members, ∀ level, ∀ c ∈ writeAt l level m.2, Plain c
  | [] => fun _ hm => nomatch hm
  | (_, v) :: rest =>
    List.forall_mem_cons.mpr ⟨plain_of_mem_writeAt hl v, plain_of_mem_members hl rest⟩

end

end ChatCommands.Json
