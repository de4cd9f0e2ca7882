import ChatCommands.Text.Basic

/-!
White space: which code points are blank, stripping, and cutting a text into lines.

Two sets are in use.  `isBlank` is the set of the Unicode separators and the ASCII and Latin-1
controls that act as white space or separate paragraphs; `isWhiteSpace` is the Unicode property
`White_Space`, which leaves the four information separators out.
-/

namespace ChatCommands.Text

/-- A code point that stripping removes and that a blank text consists of. -/
def isBlank (c : Nat) : Bool :=
  (9 ≤ c && c ≤ 13) || (0x1C ≤ c && c ≤ 0x20) || c == 0x85 || c == 0xA0 || c == 0x1680 ||
    (0x2000 ≤ c && c ≤ 0x200A) || c == 0x2028 || c == 0x2029 || c == 0x202F || c == 0x205F ||
    c == 0x3000

/-- The Unicode property `White_Space`. -/
def isWhiteSpace (c : Nat) : Bool := isBlank c && !(0x1C ≤ c && c ≤ 0x1F)

/-- A code point after which a line ends. -/
def isLineBreak (c : Nat) : Bool :=
  (10 ≤ c && c ≤ 13) || (0x1C ≤ c && c ≤ 0x1E) || c == 0x85 || c == 0x2028 || c == 0x2029

/-- The text without the code points of class `p` at its start. -/
def stripStartOf (p : Nat → Bool) (t : Text) : Text := t.dropWhile p

/-- The text without the code points of class `p` at its end. -/
def stripEndOf (p : Nat → Bool) (t : Text) : Text := (t.reverse.dropWhile p).reverse

/-- The text without blanks at its end. -/
def stripEnd (t : Text) : Text := stripEndOf isBlank t

/-- The text without blanks at either end. -/
def strip (t : Text) : Text := stripEnd (stripStartOf isBlank t)

/-- The text without Unicode white space at either end. -/
def trim (t : Text) : Text := stripEndOf isWhiteSpace (stripStartOf isWhiteSpace t)

/-- No code point of the text is anything but blank. -/
def isBlankText (t : Text) : Bool := t.all isBlank

/-- The lines of a text without their ends: a carriage return and a line feed together end one
line, and the end of the text starts no further one. -/
def lines (t : Text) : List Text := go [] t
where
  /-- Reads on with the current line so far, latest first. -/
  go (line : Text) : Text → List Text
    | [] => if line.isEmpty then [] else [line.reverse]
    | 13 :: 10 :: rest => line.reverse :: go [] rest
    | c :: rest => if isLineBreak c then line.reverse :: go [] rest else go (c :: line) rest

/-- Line ends of any convention become line feeds. -/
def unifyLineEnds : Text → Text
  | [] => []
  | 13 :: 10 :: rest => 10 :: unifyLineEnds rest
  | c :: rest => (if c = 13 then 10 else c) :: unifyLineEnds rest

theorem isBlank_of_isLineBreak {c : Nat} (h : isLineBreak c = true) : isBlank c = true := by
  simp only [isLineBreak, Bool.or_eq_true, Bool.and_eq_true, decide_eq_true_eq, beq_iff_eq] at h
  simp only [isBlank, Bool.or_eq_true, Bool.and_eq_true, decide_eq_true_eq, beq_iff_eq]
  omega

/-- A text strips to nothing exactly when it is blank. -/
theorem strip_eq_nil_iff (t : Text) : strip t = [] ↔ isBlankText t = true := by
  have key : ∀ s : Text, s.dropWhile isBlank = [] ↔ s.all isBlank = true := by
    intro s
    induction s with
    | nil => simp
    | cons c s ih => by_cases h : isBlank c <;> simp [h, ih]
  constructor
  · intro h
    have h' : stripEndOf isBlank (stripStartOf isBlank t) = [] := h
    simp only [stripEndOf, List.reverse_eq_nil_iff, key, List.all_reverse] at h'
    refine (key t).1 ?_
    cases hd : t.dropWhile isBlank with
    | nil => rfl
    | cons c r =>
      have hc : isBlank c = false := by
        have := @List.head_dropWhile_not _ isBlank t (by simp [hd])
        simpa [hd] using this
      simp [stripStartOf, hd, hc] at h'
  · intro h
    simp [strip, stripEnd, stripEndOf, stripStartOf, (key t).2 h]

end ChatCommands.Text
