import ChatCommands.Proofs.Json.RoundTrip
import Mathlib.Data.List.Find

/-!
JSON texts inside of others.

A text that is read as a value is read as that value where it stands as the member of an object,
whatever its layout.  The reader looks at most at the brace behind the value, and that brace ends every
token that does not end by itself.
-/

namespace ChatCommands.Json

open Text (Scalars)

variable {α β : Type} {shift : Nat} {tail : Text}

/-! ### Cursors in a longer text -/

/-- The cursor in a text with more code points in front, and with a closing brace behind. -/
def Cursor.inside (shift : Nat) (tail : Text) (s : Cursor) : Cursor :=
  ⟨shift + s.place, s.rest ++ 125 :: tail⟩

theorem takeWhile_inside {p : Nat → Bool} (hp : p 125 = false) (t : Text) :
    (t ++ 125 :: tail).takeWhile p = t.takeWhile p := by
  induction t with
  | nil => exact List.takeWhile_cons_of_neg (by simp [hp])
  | cons c t ih => rw [List.cons_append, List.takeWhile_cons, List.takeWhile_cons, ih]

theorem length_takeWhile_le (p : Nat → Bool) (t : Text) : (t.takeWhile p).length ≤ t.length :=
  (List.takeWhile_prefix p).length_le

namespace Cursor

theorem advance_inside {s : Cursor} {n : Nat} (h : n ≤ s.rest.length) :
    (s.inside shift tail).advance n = (s.advance n).inside shift tail := by
  simp [inside, advance, List.drop_append_of_le_length h, Nat.add_assoc]

theorem skipSpace_inside (s : Cursor) :
    (s.inside shift tail).skipSpace = s.skipSpace.inside shift tail := by
  have htake : (s.rest ++ 125 :: tail).takeWhile isSpace = s.rest.takeWhile isSpace :=
    takeWhile_inside rfl s.rest
  rw [skipSpace, skipSpace, ← advance_inside (length_takeWhile_le isSpace s.rest)]
  exact congrArg (fun t : Text => (s.inside shift tail).advance t.length) htake

theorem head?_inside {s : Cursor} {c : Nat} (h : s.head? = some c) :
    (s.inside shift tail).head? = some c := by
  obtain ⟨place, rest⟩ := s
  cases rest with
  | nil => cases h
  | cons d rest => exact h

theorem one_le_of_head? {s : Cursor} {c : Nat} (h : s.head? = some c) : 1 ≤ s.rest.length := by
  obtain ⟨place, rest⟩ := s
  cases rest with
  | nil => cases h
  | cons d rest => exact Nat.le_add_left 1 _

end Cursor

/-! ### What is carried over -/

/-- A numeral is too long. -/
def Problem.isLong : Problem → Bool
  | .longNumeral _ => true
  | _ => false

/-- What the reader comes to in the longer text if it comes to `x` in the text: to the same, if that is
a value or a numeral that is too long. -/
structure Carries (shift : Nat) (tail : Text) (x y : Except ReadError (α × Cursor)) : Prop where
  value : ∀ a s, x = .ok (a, s) → y = .ok (a, s.inside shift tail)
  numeral : ∀ n place, x = .error ⟨.longNumeral n, place⟩ →
    y = .error ⟨.longNumeral n, shift + place⟩

namespace Carries

theorem ok (a : α) (s : Cursor) : Carries shift tail (.ok (a, s)) (.ok (a, s.inside shift tail)) where
  value a s h := by cases h; rfl
  numeral n place h := nomatch h

theorem of_error {e : ReadError} {y : Except ReadError (α × Cursor)}
    (h : e.problem.isLong = false) : Carries shift tail (.error e) y where
  value a s hx := by cases hx
  numeral n place hx := by cases hx; cases h

theorem bind {x y : Except ReadError (α × Cursor)}
    {f g : α × Cursor → Except ReadError (β × Cursor)} (hx : Carries shift tail x y)
    (hf : ∀ a s, x = .ok (a, s) → Carries shift tail (f (a, s)) (g (a, s.inside shift tail))) :
    Carries shift tail (x >>= f) (y >>= g) := by
  cases x with
  | ok r =>
    obtain ⟨a, s⟩ := r
    rw [hx.value a s rfl]
    exact hf a s rfl
  | error e =>
    obtain ⟨p, place⟩ := e
    cases p with
    | longNumeral n =>
      rw [hx.numeral n place rfl]
      exact ⟨fun _ _ h => (by cases h), fun _ _ h => (by cases h; rfl)⟩
    | _ => exact .of_error rfl

end Carries

/-! ### Numerals -/

/-- The sign of a numeral, and what is behind it. -/
def signOf : Text → Bool × Text
  | 45 :: r => (true, r)
  | r => (false, r)

/-- The digits in front of the point. -/
def wholeOf (t : Text) : Text :=
  match t with
  | 48 :: _ => [48]
  | _ => t.takeWhile Text.isAsciiDigit

/-- The digits behind the point. -/
def fractionOf : Text → Text
  | 46 :: r => r.takeWhile Text.isAsciiDigit
  | _ => []

/-- The length of the digits behind the point together with the point, which does not count without
them. -/
def fractionLength (t : Text) : Nat :=
  if (fractionOf t).isEmpty then 0 else (fractionOf t).length + 1

/-- What is behind the digits in front of the point. -/
def behindWhole (t : Text) : Text := t.drop (wholeOf t).length

/-- What is behind the fraction. -/
def behindFraction (t : Text) : Text := t.drop (fractionLength t)

/-- The sign of an exponent with its length, and what is behind it. -/
def exponentSign : Text → Bool × Nat × Text
  | 45 :: r => (true, 1, r)
  | 43 :: r => (false, 1, r)
  | r => (false, 0, r)

/-- The exponent with the length of its numeral. -/
def exponentOf : Text → Option Int × Nat
  | e :: r =>
    if e = 101 || e = 69 then
      let (sign, signLength, r) := exponentSign r
      let ds := r.takeWhile Text.isAsciiDigit
      if ds.isEmpty then (none, 0)
      else
        let n : Int := Text.toNat ds
        (some (if sign then -n else n), 1 + signLength + ds.length)
    else (none, 0)
  | [] => (none, 0)

/-- The number in front of a text with its length. -/
def numeral (t : Text) : Except Problem (Json × Nat) :=
  let sign := signOf t
  let whole := wholeOf sign.2
  let fraction := fractionOf (behindWhole sign.2)
  let exponent := exponentOf (behindFraction (behindWhole sign.2))
  if whole.isEmpty then .error .expectingValue
  else
    let length := (if sign.1 then 1 else 0) + whole.length + fractionLength (behindWhole sign.2) +
      exponent.2
    if fraction.isEmpty && exponent.1.isNone then
      if maxDigits < whole.length then .error (.longNumeral whole.length)
      else
        let n : Int := Text.toNat whole
        .ok (.int (if sign.1 then -n else n), length)
    else
      let digits := Text.toNat (whole ++ fraction)
      .ok (.real (.ofDecimal sign.1 digits (exponent.1.getD 0 - fraction.length)), length)

/-- **The reader of numbers** looks at the text behind the cursor only. -/
theorem readNumber_eq (s : Cursor) : readNumber s =
    match numeral s.rest with
    | .ok (v, n) => .ok (v, s.advance n)
    | .error p => s.fail p := by
  simp only [numeral]
  by_cases hwhole : (wholeOf (signOf s.rest).2).isEmpty
  · rw [if_pos hwhole]
    exact if_pos hwhole
  · rw [if_neg hwhole]
    refine (if_neg hwhole).trans ?_
    by_cases hint : ((fractionOf (behindWhole (signOf s.rest).2)).isEmpty &&
        (exponentOf (behindFraction (behindWhole (signOf s.rest).2))).1.isNone) = true
    · rw [if_pos hint]
      refine (if_pos hint).trans ?_
      by_cases hlong : maxDigits < (wholeOf (signOf s.rest).2).length
      · rw [if_pos hlong]
        exact if_pos hlong
      · rw [if_neg hlong]
        exact if_neg hlong
    · rw [if_neg hint]
      exact if_neg hint

section Lengths

variable (t : Text)

theorem length_signOf : (if (signOf t).1 then 1 else 0) + (signOf t).2.length = t.length := by
  cases t with
  | nil => rfl
  | cons c t =>
    by_cases hc : c = 45
    · subst hc
      simp [signOf, Nat.add_comm]
    · simp [signOf, hc]

theorem length_wholeOf_le : (wholeOf t).length ≤ t.length := by
  unfold wholeOf
  split
  · exact Nat.le_add_left 1 _
  · exact length_takeWhile_le _ t

theorem fractionLength_le : fractionLength t ≤ t.length := by
  cases t with
  | nil => exact Nat.le_refl 0
  | cons c t =>
    by_cases hc : c = 46
    · subst hc
      have hle := length_takeWhile_le Text.isAsciiDigit t
      unfold fractionLength
      split
      · exact Nat.zero_le _
      · exact Nat.succ_le_succ hle
    · simp [fractionLength, fractionOf, hc]

theorem length_exponentSign : (exponentSign t).2.1 + (exponentSign t).2.2.length = t.length := by
  unfold exponentSign
  split
  · exact Nat.add_comm 1 _
  · exact Nat.add_comm 1 _
  · exact Nat.zero_add _

theorem exponentOf_le : (exponentOf t).2 ≤ t.length := by
  cases t with
  | nil => exact Nat.le_refl 0
  | cons e t =>
    have hsign := length_exponentSign t
    have hdigits := length_takeWhile_le Text.isAsciiDigit (exponentSign t).2.2
    have hlength : (exponentOf (e :: t)).2 = 0 ∨ (exponentOf (e :: t)).2 =
        1 + (exponentSign t).2.1 + ((exponentSign t).2.2.takeWhile Text.isAsciiDigit).length := by
      simp only [exponentOf]
      split
      · split
        · exact .inl rfl
        · exact .inr rfl
      · exact .inl rfl
    rw [List.length_cons]
    omega

end Lengths

section Inside

variable (t : Text)

theorem signOf_inside : signOf (t ++ 125 :: tail) = ((signOf t).1, (signOf t).2 ++ 125 :: tail) := by
  cases t with
  | nil => rfl
  | cons c t =>
    by_cases hc : c = 45
    · subst hc
      rfl
    · simp [signOf, hc]

theorem wholeOf_inside : wholeOf (t ++ 125 :: tail) = wholeOf t := by
  have htake : (t ++ 125 :: tail).takeWhile Text.isAsciiDigit = t.takeWhile Text.isAsciiDigit :=
    takeWhile_inside rfl t
  cases t with
  | nil => exact htake
  | cons c t =>
    by_cases hc : c = 48
    · subst hc
      rfl
    · simpa [wholeOf, hc] using htake

theorem fractionOf_inside : fractionOf (t ++ 125 :: tail) = fractionOf t := by
  cases t with
  | nil => rfl
  | cons c t =>
    by_cases hc : c = 46
    · subst hc
      exact takeWhile_inside rfl t
    · simp [fractionOf, hc]

theorem exponentSign_inside : exponentSign (t ++ 125 :: tail) =
    ((exponentSign t).1, (exponentSign t).2.1, (exponentSign t).2.2 ++ 125 :: tail) := by
  cases t with
  | nil => rfl
  | cons c t =>
    by_cases hminus : c = 45
    · subst hminus
      rfl
    · by_cases hplus : c = 43
      · subst hplus
        rfl
      · simp [exponentSign, hminus, hplus]

theorem exponentOf_inside : exponentOf (t ++ 125 :: tail) = exponentOf t := by
  cases t with
  | nil => rfl
  | cons e t =>
    have htake : ∀ u : Text, (u ++ 125 :: tail).takeWhile Text.isAsciiDigit =
        u.takeWhile Text.isAsciiDigit := takeWhile_inside rfl
    simp only [List.cons_append, exponentOf, exponentSign_inside, htake]

theorem behindWhole_inside : behindWhole (t ++ 125 :: tail) = behindWhole t ++ 125 :: tail := by
  rw [behindWhole, wholeOf_inside, List.drop_append_of_le_length (length_wholeOf_le t), behindWhole]

theorem fractionLength_inside : fractionLength (t ++ 125 :: tail) = fractionLength t := by
  rw [fractionLength, fractionOf_inside, fractionLength]

theorem behindFraction_inside :
    behindFraction (t ++ 125 :: tail) = behindFraction t ++ 125 :: tail := by
  rw [behindFraction, fractionLength_inside, List.drop_append_of_le_length (fractionLength_le t),
    behindFraction]

theorem numeral_inside : numeral (t ++ 125 :: tail) = numeral t := by
  simp only [numeral, signOf_inside, wholeOf_inside, behindWhole_inside, fractionOf_inside,
    fractionLength_inside, behindFraction_inside, exponentOf_inside]

end Inside

theorem length_of_numeral {t : Text} {v : Json} {n : Nat} (h : numeral t = .ok (v, n)) :
    n ≤ t.length := by
  have hsign := length_signOf t
  have hwhole := length_wholeOf_le (signOf t).2
  have hfraction := fractionLength_le (behindWhole (signOf t).2)
  have hexponent := exponentOf_le (behindFraction (behindWhole (signOf t).2))
  have hlength : (behindWhole (signOf t).2).length = _ := List.length_drop
  have hlength' : (behindFraction (behindWhole (signOf t).2)).length = _ := List.length_drop
  suffices n = (if (signOf t).1 then 1 else 0) + (wholeOf (signOf t).2).length +
      fractionLength (behindWhole (signOf t).2) +
        (exponentOf (behindFraction (behindWhole (signOf t).2))).2 by omega
  simp only [numeral] at h
  split at h
  · cases h
  · split at h
    · split at h
      · cases h
      · cases h
        rfl
    · cases h
      rfl

/-- **A numeral is read alike** in the longer text. -/
theorem carries_readNumber (s : Cursor) :
    Carries shift tail (readNumber s) (readNumber (s.inside shift tail)) := by
  have hinside : numeral (s.inside shift tail).rest = numeral s.rest := numeral_inside s.rest
  rw [readNumber_eq, readNumber_eq, hinside]
  cases hnumeral : numeral s.rest with
  | ok r =>
    obtain ⟨v, n⟩ := r
    simp only
    rw [Cursor.advance_inside (length_of_numeral hnumeral)]
    exact .ok v _
  | error p =>
    refine ⟨fun _ _ h => (by cases h), fun n place h => ?_⟩
    cases h
    rfl

/-! ### Names of values -/

theorem isPrefixOf_inside {name : Text} (h : 125 ∉ name) (t : Text) :
    name.isPrefixOf (t ++ 125 :: tail) = name.isPrefixOf t := by
  induction name generalizing t with
  | nil => simp
  | cons c name ih =>
    rw [List.mem_cons, not_or] at h
    cases t with
    | nil => simp [List.isPrefixOf, Ne.symm h.1]
    | cons d t => rw [List.cons_append, List.isPrefixOf, List.isPrefixOf, ih h.2]

theorem named?_inside (t : Text) : named? (t ++ 125 :: tail) = named? t := by
  have hnames : ∀ n ∈ names, 125 ∉ n.1 := by decide
  rw [named?, named?]
  exact congrArg _ (List.find?_congr fun n hn => isPrefixOf_inside (hnames n hn) t)

theorem length_of_named? {t : Text} {v : Json} {n : Nat} (h : named? t = some (v, n)) :
    n ≤ t.length := by
  obtain ⟨⟨name, v'⟩, hfind, hpair⟩ := Option.map_eq_some_iff.mp h
  cases hpair
  have hprefix := List.find?_some hfind
  exact (List.isPrefixOf_iff_prefix.mp hprefix).length_le

/-! ### Strings -/

/-- The text begins with an escape that is cut off. -/
def CutEscape (t : Text) : Prop := ∃ r : Text, t = 92 :: 117 :: r ∧ r.length < 5

/-- An escape is read alike in the longer text, unless another one is cut off behind it. -/
theorem unicodeEscape?_inside {s : Cursor} {c n : Nat} (h : unicodeEscape? s = .ok (c, n)) :
    n ≤ s.rest.length ∧ (unicodeEscape? (s.inside shift tail) = .ok (c, n) ∨
      n = 4 ∧ CutEscape (s.rest.drop 4)) := by
  obtain ⟨place, rest⟩ := s
  match rest with
  | [] | [_] | [_, _] | [_, _, _] | [_, _, _, _] => cases h
  | d₁ :: d₂ :: d₃ :: d₄ :: d₅ :: rest =>
    have hmany (r : Text) : ¬ r.length + 1 + 1 + 1 + 1 + 1 < 5 := by omega
    simp only [unicodeEscape?, Cursor.inside, List.cons_append, List.length_cons, List.take_succ_cons,
      List.take_zero, List.drop_succ_cons, List.drop_zero, if_neg (hmany _)] at h ⊢
    cases hhex : hex4? [d₁, d₂, d₃, d₄] with
    | none => simp [hhex] at h
    | some high =>
      simp only [hhex] at h ⊢
      cases rest with
      | nil =>
        -- what comes behind is no letter of an escape
        have hpair : c = high ∧ n = 4 := by simpa [eq_comm] using h
        obtain ⟨rfl, rfl⟩ := hpair
        exact ⟨by simp, .inl (by simp)⟩
      | cons d₆ rest =>
        have htake (hlong : 5 ≤ rest.length) :
            (rest ++ 125 :: tail).take 4 = rest.take 4 :=
          List.take_append_of_le_length (by omega)
        simp only [List.cons_append, List.length_cons, List.length_append, List.drop_succ_cons,
          List.drop_zero, List.getElem?_cons_succ, List.getElem?_cons_zero] at h ⊢
        by_cases hcut : (d₅ = 92 ∧ d₆ = 117) ∧ rest.length < 5
        · obtain ⟨⟨rfl, rfl⟩, hshort⟩ := hcut
          have hpair : c = high ∧ n = 4 := by
            have hfew : ¬ 11 ≤ rest.length + 1 + 1 + 1 + 1 + 1 + 1 := by omega
            simpa [hfew, eq_comm] using h
          exact ⟨by omega, .inr ⟨hpair.2, rest, rfl, hshort⟩⟩
        · by_cases hpair : d₅ = 92 ∧ d₆ = 117
          · -- both escapes of a pair are there
            have hlong : 5 ≤ rest.length := by
              by_contra hshort
              exact hcut ⟨hpair, by omega⟩
            have hhere : 11 ≤ rest.length + 1 + 1 + 1 + 1 + 1 + 1 := by omega
            have hthere : 11 ≤ rest.length + (tail.length + 1) + 1 + 1 + 1 + 1 + 1 + 1 := by omega
            rw [htake hlong]
            simp only [hhere, hthere] at h ⊢
            split at h
            · rename_i hboth
              rw [if_pos hboth]
              cases hlow : hex4? (rest.take 4) with
              | none => simp [hlow] at h
              | some low =>
                simp only [hlow] at h ⊢
                refine ⟨?_, .inl h⟩
                split at h
                · obtain ⟨-, rfl⟩ := Prod.mk.inj (Except.ok.inj h)
                  omega
                · obtain ⟨-, rfl⟩ := Prod.mk.inj (Except.ok.inj h)
                  omega
            · rename_i hone
              rw [if_neg hone]
              obtain ⟨-, rfl⟩ := Prod.mk.inj (Except.ok.inj h)
              exact ⟨by omega, .inl h⟩
          · have hnone : (some d₅ == some 92 && some d₆ == some 117) = false := by
              simpa using fun h₅ h₆ => hpair ⟨h₅, h₆⟩
            rw [Bool.and_assoc, hnone, Bool.and_false] at h ⊢
            cases h
            exact ⟨by omega, .inl rfl⟩

theorem problem_of_unicodeEscape? {s : Cursor} {e : ReadError} (h : unicodeEscape? s = .error e) :
    e.problem = .invalidUnicodeEscape := by
  unfold unicodeEscape? at h
  split at h
  · cases h
    rfl
  · split at h
    · cases h
      rfl
    · split at h
      · split at h
        · cases h
          rfl
        · split at h
          · cases h
          · cases h
      · cases h

theorem readString_cutEscape {t : Text} (h : CutEscape t) (start fuel place : Nat) (done : Text) :
    ∃ e, readString start fuel done ⟨place, t⟩ = .error e ∧ e.problem.isLong = false := by
  obtain ⟨r, rfl, hr⟩ := h
  cases fuel with
  | zero => exact ⟨_, rfl, rfl⟩
  | succ fuel =>
    have hescape : unicodeEscape? ⟨place + 2, r⟩ = .error ⟨.invalidUnicodeEscape, place + 1⟩ :=
      if_pos hr
    refine ⟨⟨.invalidUnicodeEscape, place + 1⟩, ?_, rfl⟩
    rw [readString]
    change (unicodeEscape? ⟨place + 2, r⟩ >>= _) = _
    rw [hescape]
    rfl

section Strings

variable {start start' fuel fuel' place : Nat} {done : Text}

/-- An escape is carried over if what comes behind it is. -/
theorem carries_escape {e : Nat} {rest : Text}
    (ih : ∀ done s, Carries shift tail (readString start fuel done s)
      (readString start' fuel' done (s.inside shift tail))) :
    Carries shift tail (readString start (fuel + 1) done ⟨place, 92 :: e :: rest⟩)
      (readString start' (fuel' + 1) done ⟨shift + place, 92 :: e :: (rest ++ 125 :: tail)⟩) := by
  by_cases he : e = 117
  · subst he
    cases hescape : unicodeEscape? ⟨place + 2, rest⟩ with
    | error problem =>
      have hread : readString start (fuel + 1) done ⟨place, 92 :: 117 :: rest⟩ = .error problem := by
        rw [readString]
        change (unicodeEscape? ⟨place + 2, rest⟩ >>= _) = _
        rw [hescape]
        rfl
      rw [hread]
      exact .of_error (congrArg Problem.isLong (problem_of_unicodeEscape? hescape))
    | ok r =>
      obtain ⟨c, n⟩ := r
      rw [readString_unicode hescape rfl]
      have hinside : n ≤ rest.length ∧
          (unicodeEscape? ⟨shift + place + 2, rest ++ 125 :: tail⟩ = .ok (c, n) ∨
            n = 4 ∧ CutEscape (rest.drop 4)) := unicodeEscape?_inside hescape
      obtain ⟨hn, hsame | ⟨rfl, hcut⟩⟩ := hinside
      · rw [readString_unicode hsame (List.drop_append_of_le_length hn), Nat.add_assoc]
        exact ih _ ⟨place + (2 + n), rest.drop n⟩
      · obtain ⟨problem, hread, hproblem⟩ :=
          readString_cutEscape hcut start fuel (place + (2 + 4)) (c :: done)
        rw [hread]
        exact .of_error hproblem
  · cases hsimple : simpleEscape? e with
    | none =>
      have hread : readString start (fuel + 1) done ⟨place, 92 :: e :: rest⟩ =
          .error ⟨.invalidEscape, place⟩ := by
        rw [readString]
        simp only [hsimple]
        rfl
      rw [hread]
      exact .of_error rfl
    | some c =>
      rw [readString_simple hsimple he, readString_simple hsimple he, Nat.add_assoc]
      exact ih _ ⟨place + 2, rest⟩

/-- **A string is read alike** in the longer text, with more fuel or not. -/
theorem carries_readString (start start' : Nat) (hfuel : fuel ≤ fuel') (done : Text) (s : Cursor) :
    Carries shift tail (readString start fuel done s)
      (readString start' fuel' done (s.inside shift tail)) := by
  induction fuel generalizing fuel' done s with
  | zero => exact .of_error rfl
  | succ fuel ih =>
    obtain ⟨fuel', rfl⟩ : ∃ f, fuel' = f + 1 := ⟨fuel' - 1, by omega⟩
    have ih' := fun done s => ih (Nat.le_of_succ_le_succ hfuel) done s
    obtain ⟨place, rest⟩ := s
    cases rest with
    | nil => exact .of_error rfl
    | cons c rest =>
      by_cases hquote : c = 34
      · subst hquote
        exact .ok _ _
      by_cases hback : c = 92
      · subst hback
        cases rest with
        | nil => exact .of_error rfl
        | cons e rest => exact carries_escape ih'
      by_cases hprint : 32 ≤ c
      · have hread : readString start' (fuel' + 1) done ⟨shift + place, c :: (rest ++ 125 :: tail)⟩ = _ :=
          readString_plain hquote hback hprint
        rw [readString_plain hquote hback hprint]
        rw [Nat.add_assoc] at hread
        exact hread ▸ ih' _ ⟨place + 1, rest⟩
      · have hread : readString start (fuel + 1) done ⟨place, c :: rest⟩ =
            .error ⟨.controlCharacter, place⟩ := by
          rw [readString]
          simp [hback, Nat.lt_of_not_le hprint, Cursor.fail]
        rw [hread]
        exact .of_error rfl

end Strings

/-! ### Values -/

section Values

variable {fuel fuel' : Nat}

/-- What the readers of values, of items and of members come to is carried over. -/
structure CarriesValues (shift : Nat) (tail : Text) (fuel fuel' : Nat) : Prop where
  value : ∀ s, Carries shift tail (readValue fuel s) (readValue fuel' (s.inside shift tail))
  items : ∀ done s,
    Carries shift tail (readItems fuel done s) (readItems fuel' done (s.inside shift tail))
  members : ∀ done s,
    Carries shift tail (readMembers fuel done s) (readMembers fuel' done (s.inside shift tail))

/-- What is behind the value of an item or of a member. -/
theorem carries_behind {x y : Cursor → Except ReadError (β × Cursor)} {last : Nat} (v : β) (s : Cursor)
    (h : Carries shift tail (x (s.skipSpace.advance 1).skipSpace)
      (y ((s.skipSpace.advance 1).skipSpace.inside shift tail))) :
    Carries shift tail
      (if s.skipSpace.head? = some last then .ok (v, s.skipSpace.advance 1)
        else if s.skipSpace.head? = some 44 then x (s.skipSpace.advance 1).skipSpace
        else s.skipSpace.fail .expectingComma)
      (if (s.inside shift tail).skipSpace.head? = some last then
          .ok (v, (s.inside shift tail).skipSpace.advance 1)
        else if (s.inside shift tail).skipSpace.head? = some 44 then
          y ((s.inside shift tail).skipSpace.advance 1).skipSpace
        else (s.inside shift tail).skipSpace.fail .expectingComma) := by
  rw [Cursor.skipSpace_inside]
  generalize s.skipSpace = s at h ⊢
  cases hhead : s.head? with
  | none => exact .of_error rfl
  | some c =>
    rw [Cursor.head?_inside hhead, Cursor.advance_inside (Cursor.one_le_of_head? hhead),
      Cursor.skipSpace_inside]
    split
    · exact .ok v _
    · split
      · exact h
      · exact .of_error rfl

theorem carries_items (h : CarriesValues shift tail fuel fuel') (done : List Json)
    (s : Cursor) : Carries shift tail (readItems (fuel + 1) done s)
      (readItems (fuel' + 1) done (s.inside shift tail)) := by
  rw [readItems, readItems]
  exact (h.value s).bind fun v s _ => carries_behind _ s (h.items (v :: done) _)

theorem carries_members (h : CarriesValues shift tail fuel fuel')
    (done : List (Text × Json)) (s : Cursor) : Carries shift tail (readMembers (fuel + 1) done s)
      (readMembers (fuel' + 1) done (s.inside shift tail)) := by
  obtain ⟨place, rest⟩ := s
  cases rest with
  | nil => exact .of_error rfl
  | cons c rest =>
    by_cases hquote : c = 34
    · subst hquote
      rw [readMembers, readMembers]
      refine (carries_readString place (shift + place) ?_ [] ⟨place + 1, rest⟩).bind
        fun name s _ => ?_
      · exact Nat.succ_le_succ (List.length_append ▸ Nat.le_add_right _ _)
      · simp only [Cursor.skipSpace_inside]
        cases hhead : s.skipSpace.head? with
        | none => exact .of_error rfl
        | some c =>
          rw [Cursor.head?_inside hhead, Cursor.advance_inside (Cursor.one_le_of_head? hhead),
            Cursor.skipSpace_inside]
          split
          · exact (h.value _).bind fun v s _ => carries_behind _ s (h.members _ _)
          · exact .of_error rfl
    · have hread : readMembers (fuel + 1) done ⟨place, c :: rest⟩ = .error ⟨.expectingName, place⟩ := by
        rw [readMembers]
        split
        · rename_i hrest
          exact absurd (List.cons.inj hrest).1 hquote
        · rfl
      rw [hread]
      exact .of_error rfl

theorem readItems_end {s : Cursor} (h : s.head? = none) (fuel : Nat) (done : List Json) :
    readItems fuel done s = s.fail .expectingValue := by
  obtain ⟨place, _ | ⟨c, rest⟩⟩ := s
  · match fuel with
    | 0 | 1 | fuel + 2 => rfl
  · cases h

theorem readMembers_end {s : Cursor} (h : s.head? = none) (fuel : Nat) (done : List (Text × Json)) :
    ∃ p, readMembers fuel done s = s.fail p ∧ p.isLong = false := by
  obtain ⟨place, _ | ⟨c, rest⟩⟩ := s
  · cases fuel with
    | zero => exact ⟨_, rfl, rfl⟩
    | succ fuel => exact ⟨_, rfl, rfl⟩
  · cases h

/-- A bracket is the beginning of an empty value or of a longer one. -/
theorem carries_bracket {x y : Cursor → Except ReadError (β × Cursor)} {last : Nat} (v : β) (s : Cursor)
    (h : ∀ s, Carries shift tail (x s) (y (s.inside shift tail)))
    (hend : ∀ s : Cursor, s.head? = none → ∃ p, x s = s.fail p ∧ p.isLong = false) :
    Carries shift tail
      (if s.skipSpace.head? = some last then .ok (v, s.skipSpace.advance 1) else x s.skipSpace)
      (if (s.inside shift tail).skipSpace.head? = some last then
          .ok (v, (s.inside shift tail).skipSpace.advance 1)
        else y (s.inside shift tail).skipSpace) := by
  rw [Cursor.skipSpace_inside]
  cases hhead : s.skipSpace.head? with
  | none =>
    obtain ⟨p, hp, hproblem⟩ := hend _ hhead
    rw [if_neg nofun, hp]
    exact .of_error hproblem
  | some c =>
    rw [Cursor.head?_inside hhead, Cursor.advance_inside (Cursor.one_le_of_head? hhead)]
    split
    · exact .ok v _
    · exact h _

theorem readValue_other {c : Nat} (hquote : c ≠ 34) (hobject : c ≠ 123) (harray : c ≠ 91)
    (fuel place : Nat) (t : Text) : readValue (fuel + 1) ⟨place, c :: t⟩ =
      match named? (c :: t) with
      | some (v, n) => .ok (v, (Cursor.mk place (c :: t)).advance n)
      | none => readNumber ⟨place, c :: t⟩ := by
  rw [readValue]
  split
  · rename_i hrest
    cases hrest
  · rename_i hrest
    exact absurd (List.cons.inj hrest).1 hquote
  · rename_i hrest
    exact absurd (List.cons.inj hrest).1 hobject
  · rename_i hrest
    exact absurd (List.cons.inj hrest).1 harray
  · rfl

theorem carries_value (h : CarriesValues shift tail fuel fuel') (s : Cursor) :
    Carries shift tail (readValue (fuel + 1) s) (readValue (fuel' + 1) (s.inside shift tail)) := by
  obtain ⟨place, rest⟩ := s
  cases rest with
  | nil => exact .of_error rfl
  | cons c rest =>
    by_cases hquote : c = 34
    · subst hquote
      rw [readValue, readValue]
      refine (carries_readString place (shift + place) ?_ [] ⟨place + 1, rest⟩).bind
        fun t s _ => .ok _ s
      exact Nat.succ_le_succ (List.length_append ▸ Nat.le_add_right _ _)
    by_cases hobject : c = 123
    · subst hobject
      rw [readValue, readValue]
      exact carries_bracket _ ⟨place + 1, rest⟩ (h.members [])
        fun s hs => readMembers_end hs fuel []
    by_cases harray : c = 91
    · subst harray
      rw [readValue, readValue]
      exact carries_bracket _ ⟨place + 1, rest⟩ (h.items [])
        fun s hs => ⟨_, readItems_end hs fuel [], rfl⟩
    have hinside : named? (c :: (rest ++ 125 :: tail)) = named? (c :: rest) := named?_inside (c :: rest)
    have hread := readValue_other hquote hobject harray fuel' (shift + place) (rest ++ 125 :: tail)
    rw [hinside] at hread
    rw [readValue_other hquote hobject harray]
    refine hread ▸ ?_
    cases hname : named? (c :: rest) with
    | none => exact carries_readNumber ⟨place, c :: rest⟩
    | some r =>
      obtain ⟨v, n⟩ := r
      have hadvance : (Cursor.inside shift tail ⟨place, c :: rest⟩).advance n = _ :=
        Cursor.advance_inside (length_of_named? hname)
      refine ⟨fun a s h => ?_, fun n place h => by cases h⟩
      cases h
      exact congrArg (fun s => Except.ok (v, s)) hadvance

/-- **A value is read alike** in the longer text, with more fuel or not. -/
theorem carries_readValue (hfuel : fuel ≤ fuel') : CarriesValues shift tail fuel fuel' := by
  induction fuel generalizing fuel' with
  | zero => exact ⟨fun _ => .of_error rfl, fun _ _ => .of_error rfl, fun _ _ => .of_error rfl⟩
  | succ fuel ih =>
    obtain ⟨fuel', rfl⟩ : ∃ f, fuel' = f + 1 := ⟨fuel' - 1, by omega⟩
    have ih' := ih (Nat.le_of_succ_le_succ hfuel)
    exact ⟨carries_value ih', carries_items ih', carries_members ih'⟩

end Values

/-! ### The text of a member -/

/-- The text as the value of the only member of an object. -/
def asMember (name t : Text) : Text := 123 :: (writeString name ++ text ": " ++ t ++ [125])

theorem asMember_eq (name t : Text) : asMember name t =
    123 :: 34 :: (name.flatMap escapePoint ++ 34 :: 58 :: 32 :: (t ++ [125])) := by
  rw [asMember, List.append_assoc, List.append_assoc, writeString_append]
  rfl

/-- What the reader makes of the value that it came to, if that is to be the whole text. -/
def wholeText (x : Except ReadError (Json × Cursor)) : Except ReadError Json := do
  let (v, s) ← x
  if s.skipSpace.rest.isEmpty then .ok v else s.skipSpace.fail .extraData

/-- What the reader makes of the value that it came to, if that is the first member of an object. -/
def firstMember (name : Text) (fuel : Nat) (x : Except ReadError (Json × Cursor)) :
    Except ReadError (Json × Cursor) := do
  let (v, s) ← x
  afterMember fuel [(name, v)] s.skipSpace

variable {name t : Text}

/-- A text that is not turned away for its mark is read as a value up to its end. -/
theorem wholeText_of_read {x : Except ReadError Json} (h : read t = x)
    (hmark : x ≠ .error ⟨.byteOrderMark, 0⟩) :
    wholeText (readValue (2 * t.length + 2) (Cursor.mk 0 t).skipSpace) = x := by
  unfold read at h
  split at h
  · exact absurd h.symm hmark
  · exact h

theorem of_wholeText_ok {x : Except ReadError (Json × Cursor)} {v : Json} (h : wholeText x = .ok v) :
    ∃ s, x = .ok (v, s) ∧ s.skipSpace.rest = [] := by
  cases x with
  | error e => cases h
  | ok r =>
    obtain ⟨w, s⟩ := r
    change (if s.skipSpace.rest.isEmpty then _ else _) = _ at h
    split at h
    · rename_i hend
      cases h
      exact ⟨s, rfl, List.isEmpty_iff.mp hend⟩
    · cases h

theorem of_wholeText_longNumeral {x : Except ReadError (Json × Cursor)} {n place : Nat}
    (h : wholeText x = .error ⟨.longNumeral n, place⟩) : x = .error ⟨.longNumeral n, place⟩ := by
  cases x with
  | error e =>
    cases h
    rfl
  | ok r =>
    obtain ⟨w, s⟩ := r
    change (if s.skipSpace.rest.isEmpty then _ else _) = _ at h
    split at h
    · cases h
    · cases h

/-- The reader comes to the value where it stands in the object. -/
theorem read_asMember (hname : Scalars name) (t : Text) : ∃ shift fuel x,
    Carries shift [] (readValue (2 * t.length + 2) (Cursor.mk 0 t).skipSpace) x ∧
      read (asMember name t) = wholeText (firstMember name fuel x) := by
  obtain ⟨place, hstring⟩ := readString_written 1 2 (58 :: 32 :: (t ++ [125])) hname
  obtain ⟨fuel, hfuel⟩ : ∃ fuel, 2 * (asMember name t).length + 2 = fuel + 2 := ⟨_, rfl⟩
  refine ⟨place + 2, fuel, readValue fuel ((Cursor.mk 0 t).skipSpace.inside (place + 2) []), ?_, ?_⟩
  · have hlength : t.length + 1 ≤ (asMember name t).length := by
      simp [asMember_eq]
      omega
    exact (carries_readValue (by omega)).value _
  · have hspace : (Cursor.mk (place + 1) (32 :: (t ++ [125]))).skipSpace =
        (Cursor.mk 0 t).skipSpace.inside (place + 2) [] := by
      rw [← Cursor.skipSpace_inside]
      simp [Cursor.skipSpace, Cursor.inside, Cursor.advance, Cursor.isSpace]
      omega
    have hcolon : (Cursor.mk place (58 :: 32 :: (t ++ [125]))).skipSpace =
        ⟨place, 58 :: 32 :: (t ++ [125])⟩ := rfl
    rw [read, hfuel, asMember_eq, if_neg (by simp)]
    change (readValue (fuel + 2) ⟨0, 123 :: 34 :: _⟩ >>= _) = _
    rw [readValue_members (rfl : (Cursor.mk 1 (34 :: _)).skipSpace = ⟨1, 34 :: _⟩) (fun h => by cases h),
      readMembers]
    change ((readString 1 _ [] ⟨2, name.flatMap escapePoint ++ 34 :: 58 :: 32 :: (t ++ [125])⟩ >>= _)
      >>= _) = _
    rw [hstring, ← hspace]
    simp only [bind, Except.bind, hcolon, Cursor.head?, List.head?_cons, if_true, Cursor.advance,
      List.drop_succ_cons, List.drop_zero]
    cases readValue fuel (Cursor.mk (place + 1) (32 :: (t ++ [125]))).skipSpace with
    | error e => rfl
    | ok r => rfl

/-- **A value is read as the member it is made.** -/
theorem read_asMember_of_ok {v : Json} (hname : Scalars name) (h : read t = .ok v) :
    read (asMember name t) = .ok (.obj [(name, v)]) := by
  obtain ⟨shift, fuel, x, hcarries, hread⟩ := read_asMember hname t
  obtain ⟨s, hvalue, hend⟩ := of_wholeText_ok (wholeText_of_read h fun h => by cases h)
  have hbrace : s.skipSpace.inside shift [] = ⟨shift + s.skipSpace.place, [125]⟩ := by
    rw [Cursor.inside, hend, List.nil_append]
  rw [hread, hcarries.value v s hvalue]
  change wholeText (afterMember fuel [(name, v)] (s.inside shift []).skipSpace) = _
  rw [Cursor.skipSpace_inside, hbrace, afterMember_last]
  rfl

/-- **A numeral that is too long** is too long in the object as well. -/
theorem read_asMember_of_longNumeral {n place : Nat} (hname : Scalars name)
    (h : read t = .error ⟨.longNumeral n, place⟩) :
    ∃ place', read (asMember name t) = .error ⟨.longNumeral n, place'⟩ := by
  obtain ⟨shift, fuel, x, hcarries, hread⟩ := read_asMember hname t
  have hvalue := of_wholeText_longNumeral (wholeText_of_read h fun h => by cases h)
  rw [hread, hcarries.numeral n place hvalue]
  exact ⟨_, rfl⟩

end ChatCommands.Json
