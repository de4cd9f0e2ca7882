import ChatCommands.Json.Reader
import ChatCommands.Json.Writer
import ChatCommands.Proofs.Text.Numerals

/-!
JSON strings are read as they were written.

The writer escapes one code point at a time and the reader undoes one escape at a time, so one step
of the reader takes back one step of the writer.  A scalar value above U+FFFF is written as a pair
of surrogates, which the reader joins again; a text with a lone surrogate is left out, since next to
another one it could be joined to a character that nobody wrote.
-/

namespace ChatCommands.Text

/-- A code point that stands for a character. -/
def IsScalar (c : Nat) : Prop := c.isValidChar

instance (c : Nat) : Decidable (IsScalar c) := inferInstanceAs (Decidable c.isValidChar)

/-- A text of characters. -/
def Scalars (t : Text) : Prop := ∀ c ∈ t, IsScalar c

instance (t : Text) : Decidable (Scalars t) := inferInstanceAs (Decidable (∀ c ∈ t, IsScalar c))

theorem scalars_text (s : String) : Scalars (text s) := by
  intro c hc
  obtain ⟨d, -, rfl⟩ := List.mem_map.mp hc
  exact d.valid

theorem text_injective : Function.Injective text := by
  intro s t h
  apply String.toList_inj.mp
  exact (List.map_inj_right fun _ _ => Char.toNat_inj.mp).mp h

end ChatCommands.Text

namespace ChatCommands.Json

open Text (IsScalar Scalars)

/-! ### The four forms of a written code point -/

/-- The code point is a printable one of ASCII. -/
def Plain (c : Nat) : Prop := 32 ≤ c ∧ c ≤ 126

instance (c : Nat) : Decidable (Plain c) := inferInstanceAs (Decidable (32 ≤ c ∧ c ≤ 126))

/-- How a code point is written. -/
inductive Escaped : Nat → Text → Prop
  | letter {c e : Nat} : simpleEscape? e = some c → e ≠ 117 → Plain e → Escaped c [92, e]
  | itself {c : Nat} : c ≠ 92 → Plain c → c ≠ 34 → Escaped c [c]
  | basic {c : Nat} : c < 0x10000 → Escaped c (unicodeEscape c)
  | pair {c : Nat} : 0x10000 ≤ c →
      Escaped c (unicodeEscape (0xD800 + (c - 0x10000) / 0x400) ++
        unicodeEscape (0xDC00 + (c - 0x10000) % 0x400))

theorem escaped_escapePoint (c : Nat) : Escaped c (escapePoint c) := by
  rw [escapePoint]
  split
  · subst c
    exact .letter (e := 34) rfl (by decide) (by decide)
  split
  · subst c
    exact .letter (e := 92) rfl (by decide) (by decide)
  split
  · subst c
    exact .letter (e := 110) rfl (by decide) (by decide)
  split
  · subst c
    exact .letter (e := 114) rfl (by decide) (by decide)
  split
  · subst c
    exact .letter (e := 116) rfl (by decide) (by decide)
  split
  · subst c
    exact .letter (e := 102) rfl (by decide) (by decide)
  split
  · subst c
    exact .letter (e := 98) rfl (by decide) (by decide)
  split
  · next hquote hback _ _ _ _ _ hprint =>
    rw [Bool.and_eq_true, decide_eq_true_eq, decide_eq_true_eq] at hprint
    exact .itself hback hprint hquote
  split
  · next hbasic => exact .basic hbasic
  · next hbasic => exact .pair (Nat.le_of_not_lt hbasic)

/-! ### Four hexadecimal digits -/

theorem hexDigit?_digit {d : Nat} (h : d < 16) :
    hexDigit? (Text.digitsRev.digit d) = some d := by
  have hall : ∀ d < 16, hexDigit? (Text.digitsRev.digit d) = some d := by decide
  exact hall d h

theorem hex4?_ofHex {n : Nat} (h : n < 65536) : hex4? (Text.ofHex 4 n) = some n := by
  rw [Text.ofHex_four h]
  simp only [hex4?, hexDigit?_digit (show n / 4096 < 16 by omega),
    hexDigit?_digit (Nat.mod_lt _ (show 0 < 16 by decide))]
  exact congrArg some (by omega)

theorem length_ofHex_four {n : Nat} (h : n < 65536) : (Text.ofHex 4 n).length = 4 := by
  rw [Text.ofHex_four h]
  rfl

theorem take_ofHex_append {n : Nat} (h : n < 65536) (t : Text) :
    (Text.ofHex 4 n ++ t).take 4 = Text.ofHex 4 n := by
  rw [List.take_left' (length_ofHex_four h)]

theorem drop_ofHex_append {n : Nat} (h : n < 65536) (t : Text) :
    (Text.ofHex 4 n ++ t).drop 4 = t := by
  rw [List.drop_left' (length_ofHex_four h)]

theorem length_unicodeEscape {n : Nat} (h : n < 65536) : (unicodeEscape n).length = 6 := by
  rw [unicodeEscape, List.length_append, length_ofHex_four h]
  rfl

theorem unicodeEscape_append (n : Nat) (t : Text) :
    unicodeEscape n ++ t = 92 :: 117 :: (Text.ofHex 4 n ++ t) := by
  rw [unicodeEscape, List.append_assoc]
  rfl

/-! ### One escape -/

theorem unicodeEscape?_ofHex {n place : Nat} {tail : Text} (h : n < 65536)
    (hsingle : isHighSurrogate n = false) (htail : tail ≠ []) :
    unicodeEscape? ⟨place, Text.ofHex 4 n ++ tail⟩ = .ok (n, 4) := by
  have hlen := length_ofHex_four h
  have htail' := List.length_pos_iff.mpr htail
  rw [unicodeEscape?, if_neg (by rw [List.length_append]; omega), take_ofHex_append h,
    hex4?_ofHex h]
  simp only [hsingle, Bool.false_and, Bool.false_eq_true, if_false]

theorem lt_of_isHighSurrogate {n : Nat} (h : isHighSurrogate n = true) : n < 65536 := by
  simp only [isHighSurrogate, Bool.and_eq_true, decide_eq_true_eq] at h
  omega

theorem lt_of_isLowSurrogate {n : Nat} (h : isLowSurrogate n = true) : n < 65536 := by
  simp only [isLowSurrogate, Bool.and_eq_true, decide_eq_true_eq] at h
  omega

theorem unicodeEscape?_pair (place : Nat) {high low : Nat} {tail : Text}
    (hhigh : isHighSurrogate high = true) (hlow : isLowSurrogate low = true) (htail : tail ≠ []) :
    unicodeEscape? ⟨place, Text.ofHex 4 high ++ (unicodeEscape low ++ tail)⟩ =
      .ok (0x10000 + (high - 0xD800) * 0x400 + (low - 0xDC00), 10) := by
  have hhigh' := lt_of_isHighSurrogate hhigh
  have hlow' := lt_of_isLowSurrogate hlow
  have hlen := length_ofHex_four hhigh'
  have hlen' := length_ofHex_four hlow'
  have htail' := List.length_pos_iff.mpr htail
  have hescape := unicodeEscape_append low tail
  have hlength : 11 ≤ (Text.ofHex 4 high ++ (unicodeEscape low ++ tail)).length := by
    rw [hescape]
    simp only [List.length_append, List.length_cons]
    omega
  rw [unicodeEscape?, if_neg (by dsimp only; omega), take_ofHex_append hhigh', hex4?_ofHex hhigh']
  have hdrop : (Text.ofHex 4 high ++ (unicodeEscape low ++ tail)).drop 6 =
      Text.ofHex 4 low ++ tail := by
    rw [show 6 = 4 + 2 from rfl, ← List.drop_drop, drop_ofHex_append hhigh', hescape]
    rfl
  have hfourth : (Text.ofHex 4 high ++ (unicodeEscape low ++ tail))[4]? = some 92 := by
    rw [List.getElem?_append_right (by omega), hlen, hescape]
    rfl
  have hfifth : (Text.ofHex 4 high ++ (unicodeEscape low ++ tail))[5]? = some 117 := by
    rw [List.getElem?_append_right (by omega), hlen, hescape]
    rfl
  simp only [hhigh, hlow, hlength, hfourth, hfifth, hdrop, take_ofHex_append hlow',
    hex4?_ofHex hlow', decide_true, Bool.and_self, BEq.rfl, if_true]

/-! ### One step of the reader -/

section Steps

variable {start fuel place : Nat} {done tail : Text}

theorem readString_simple {e c : Nat} (h : simpleEscape? e = some c) (he : e ≠ 117) :
    readString start (fuel + 1) done ⟨place, 92 :: e :: tail⟩ =
      readString start fuel (c :: done) ⟨place + 2, tail⟩ := by
  rw [readString]
  simp only [h, Cursor.advance, List.drop_succ_cons, List.drop_zero]

theorem readString_plain {c : Nat} (hquote : c ≠ 34) (hescape : c ≠ 92) (hprint : 32 ≤ c) :
    readString start (fuel + 1) done ⟨place, c :: tail⟩ =
      readString start fuel (c :: done) ⟨place + 1, tail⟩ := by
  rw [readString]
  simp [hescape, Nat.not_lt.mpr hprint, Cursor.advance]

theorem readString_unicode {c len : Nat} {rest : Text}
    (h : unicodeEscape? ⟨place + 2, rest⟩ = .ok (c, len)) (hdrop : rest.drop len = tail) :
    readString start (fuel + 1) done ⟨place, 92 :: 117 :: rest⟩ =
      readString start fuel (c :: done) ⟨place + (2 + len), tail⟩ := by
  subst hdrop
  rw [readString]
  simp only [Cursor.advance, List.drop_succ_cons, List.drop_zero, h]
  change readString start fuel (c :: done) ⟨place + (2 + len), (92 :: 117 :: rest).drop (2 + len)⟩ = _
  rw [Nat.add_comm 2 len, List.drop_succ_cons, List.drop_succ_cons]

theorem readString_basic {c : Nat} (h : IsScalar c) (hbmp : c < 65536) (htail : tail ≠ []) :
    readString start (fuel + 1) done ⟨place, unicodeEscape c ++ tail⟩ =
      readString start fuel (c :: done) ⟨place + (unicodeEscape c).length, tail⟩ := by
  have hsingle : isHighSurrogate c = false := by
    simp only [isHighSurrogate, Bool.and_eq_false_iff, decide_eq_false_iff_not]
    rcases h with h | h <;> omega
  rw [length_unicodeEscape hbmp]
  exact readString_unicode (unicodeEscape?_ofHex hbmp hsingle htail) (drop_ofHex_append hbmp tail)

theorem surrogates_of_scalar {c : Nat} (h : IsScalar c) (hbmp : 65536 ≤ c) :
    isHighSurrogate (0xD800 + (c - 0x10000) / 0x400) = true ∧
      isLowSurrogate (0xDC00 + (c - 0x10000) % 0x400) = true := by
  have hplane : c < 0x110000 := by
    rcases h with h | h <;> omega
  simp only [isHighSurrogate, isLowSurrogate, Bool.and_eq_true, decide_eq_true_eq]
  omega

theorem readString_pair {c : Nat} (h : IsScalar c) (hbmp : 65536 ≤ c) (htail : tail ≠ []) :
    readString start (fuel + 1) done
        ⟨place, unicodeEscape (0xD800 + (c - 0x10000) / 0x400) ++
          unicodeEscape (0xDC00 + (c - 0x10000) % 0x400) ++ tail⟩ =
      readString start fuel (c :: done)
        ⟨place + (unicodeEscape (0xD800 + (c - 0x10000) / 0x400) ++
          unicodeEscape (0xDC00 + (c - 0x10000) % 0x400)).length, tail⟩ := by
  obtain ⟨hhigh, hlow⟩ := surrogates_of_scalar h hbmp
  generalize hh : 0xD800 + (c - 0x10000) / 0x400 = high at *
  generalize hl : 0xDC00 + (c - 0x10000) % 0x400 = low at *
  have hhigh' := lt_of_isHighSurrogate hhigh
  have hlow' := lt_of_isLowSurrogate hlow
  have hc : 0x10000 + (high - 0xD800) * 0x400 + (low - 0xDC00) = c := by omega
  have hpair := unicodeEscape?_pair (place + 2) hhigh hlow htail
  rw [hc] at hpair
  rw [List.length_append, length_unicodeEscape hhigh', length_unicodeEscape hlow',
    List.append_assoc, unicodeEscape_append high]
  refine readString_unicode hpair ?_
  rw [show 10 = 4 + 6 from rfl, ← List.drop_drop, drop_ofHex_append hhigh',
    List.drop_left' (length_unicodeEscape hlow')]

/-- **One step of the reader takes back one step of the writer.** -/
theorem readString_escapePoint {c : Nat} (h : IsScalar c) (htail : tail ≠ []) :
    readString start (fuel + 1) done ⟨place, escapePoint c ++ tail⟩ =
      readString start fuel (c :: done) ⟨place + (escapePoint c).length, tail⟩ := by
  have hform := escaped_escapePoint c
  generalize escapePoint c = written at hform ⊢
  cases hform with
  | letter hsimple he _ => exact readString_simple hsimple he
  | itself hback hprint hquote => exact readString_plain hquote hback hprint.1
  | basic hbasic => exact readString_basic h hbasic htail
  | pair hpair => exact readString_pair h hpair htail

end Steps

/-! ### Whole strings -/

theorem escapePoint_ne_nil (c : Nat) : escapePoint c ≠ [] := by
  have hform := escaped_escapePoint c
  generalize escapePoint c = written at hform ⊢
  cases hform <;> exact List.cons_ne_nil _ _

theorem length_le_length_escaped (t : Text) : t.length ≤ (t.flatMap escapePoint).length := by
  induction t with
  | nil => exact Nat.le_refl 0
  | cons c t ih =>
    have hpos := List.length_pos_iff.mpr (escapePoint_ne_nil c)
    rw [List.flatMap_cons, List.length_append, List.length_cons]
    omega

theorem readString_escaped {start fuel place : Nat} {done t tail : Text} (h : Scalars t)
    (hfuel : t.length < fuel) :
    readString start fuel done ⟨place, t.flatMap escapePoint ++ 34 :: tail⟩ =
      .ok (done.reverse ++ t, ⟨place + (t.flatMap escapePoint).length + 1, tail⟩) := by
  induction t generalizing fuel done place with
  | nil =>
    obtain ⟨fuel, rfl⟩ := Nat.exists_eq_succ_of_ne_zero (Nat.ne_of_gt hfuel)
    rw [List.append_nil]
    rfl
  | cons c t ih =>
    obtain ⟨fuel, rfl⟩ := Nat.exists_eq_succ_of_ne_zero (Nat.ne_of_gt (Nat.zero_lt_of_lt hfuel))
    have hhere := h c List.mem_cons_self
    have hrest : Scalars t := fun d hd => h d (List.mem_cons_of_mem c hd)
    rw [List.flatMap_cons, List.append_assoc, readString_escapePoint hhere (by simp),
      ih hrest (Nat.lt_of_succ_lt_succ hfuel), List.reverse_cons, List.append_assoc,
      List.length_append, Nat.add_assoc place]
    rfl

/-! ### What is written is printable ASCII -/

theorem plain_of_mem_unicodeEscape {n c : Nat} (h : c ∈ unicodeEscape n) : Plain c := by
  rcases List.mem_append.mp h with h | h
  · have hopening : ∀ c ∈ text "\\u", Plain c := by decide
    exact hopening c h
  · have := Text.bounds_of_mem_ofHex h
    exact ⟨by omega, by omega⟩

theorem plain_of_mem_escapePoint {c d : Nat} (h : d ∈ escapePoint c) : Plain d := by
  have hform := escaped_escapePoint c
  generalize escapePoint c = written at hform h
  cases hform with
  | letter _ _ he =>
    rcases List.mem_cons.mp h with rfl | h
    · decide
    · rw [List.mem_singleton.mp h]
      exact he
  | itself _ hprint _ =>
    rw [List.mem_singleton.mp h]
    exact hprint
  | basic _ => exact plain_of_mem_unicodeEscape h
  | pair _ =>
    rcases List.mem_append.mp h with h | h
    · exact plain_of_mem_unicodeEscape h
    · exact plain_of_mem_unicodeEscape h

theorem plain_of_mem_writeString {t : Text} {c : Nat} (h : c ∈ writeString t) : Plain c := by
  rcases List.mem_append.mp h with h | h
  · rcases List.mem_cons.mp h with rfl | h
    · decide
    · obtain ⟨d, -, hc⟩ := List.mem_flatMap.mp h
      exact plain_of_mem_escapePoint hc
  · rw [List.mem_singleton.mp h]
    decide

end ChatCommands.Json
