/-!
Texts as lists of code points.

A chat platform may hand over text that no UTF-8 encoder accepts (lone surrogates), so a text is a
list of code points and not a `String`.  This file holds the operations on texts that every other
module uses: literals, decimal numerals, joining, splitting, replacing, and the ASCII case map.
-/

namespace ChatCommands

/-- A text is its code points in order; surrogates are allowed. -/
abbrev Text := List Nat

/-- The text of a string literal. -/
def text (s : String) : Text := s.toList.map Char.toNat

/-- The code point of a character literal. -/
abbrev cp (c : Char) : Nat := c.toNat

namespace Text

/-- A code point of the surrogate range stands for no character. -/
def isSurrogate (c : Nat) : Bool := 0xD800 ≤ c && c ≤ 0xDFFF

/-! ### Numerals -/

/-- The digit characters of `n` in a base of at most sixteen, least significant first. -/
def digitsRev (base : Nat) (n : Nat) : Text :=
  if _ : 2 ≤ base ∧ base ≤ n then
    digit (n % base) :: digitsRev base (n / base)
  else
    [digit n]
termination_by n
decreasing_by exact Nat.div_lt_self (by omega) (by omega)
where
  /-- The character of one digit; letters are lower case. -/
  digit (d : Nat) : Nat := if d < 10 then 48 + d else 87 + d

/-- A natural number in decimal. -/
def ofNat (n : Nat) : Text := (digitsRev 10 n).reverse

/-- An integer in decimal, with a minus sign in front of a negative one. -/
def ofInt : Int → Text
  | .ofNat n => ofNat n
  | .negSucc n => 45 :: ofNat (n + 1)

/-- A natural number in lower-case hexadecimal, padded with zeros to `width` digits. -/
def ofHex (width n : Nat) : Text :=
  let ds := (digitsRev 16 n).reverse
  List.replicate (width - ds.length) 48 ++ ds

/-- An ASCII decimal digit. -/
def isAsciiDigit (c : Nat) : Bool := 48 ≤ c && c ≤ 57

/-- The number that a run of ASCII digits denotes. -/
def toNat (ds : Text) : Nat := ds.foldl (fun n d => 10 * n + (d - 48)) 0

/-! ### Case of ASCII letters -/

/-- Lower case of one ASCII letter; every other code point is kept. -/
def lowerAsciiPoint (c : Nat) : Nat := if 65 ≤ c && c ≤ 90 then c + 32 else c

/-- Lower case of the ASCII letters of a text. -/
def lowerAscii (t : Text) : Text := t.map lowerAsciiPoint

/-- Upper case of the ASCII letters of a text. -/
def upperAscii (t : Text) : Text := t.map fun c => if 97 ≤ c && c ≤ 122 then c - 32 else c

/-! ### Joining, cutting, replacing -/

/-- The parts with `sep` between each two. -/
def join (sep : Text) (parts : List Text) : Text := sep.intercalate parts

/-- The rest of `t` after `start`, if `t` begins with it. -/
def dropStart? : (start t : Text) → Option Text
  | [], t => some t
  | _ :: _, [] => none
  | a :: start, b :: t => if a = b then dropStart? start t else none

/-- `t` begins with `start`. -/
def startsWith (t start : Text) : Bool := start.isPrefixOf t

/-- `t` ends with `tail`. -/
def endsWith (t tail : Text) : Bool := tail.isSuffixOf t

/-- Some place of `t` reads `needle`. -/
def hasInfix (t needle : Text) : Bool :=
  match t with
  | [] => needle.isEmpty
  | _ :: rest => needle.isPrefixOf t || hasInfix rest needle

theorem dropStart?_length {start t r : Text} (h : dropStart? start t = some r) :
    r.length + start.length = t.length := by
  induction start generalizing t with
  | nil => simp_all [dropStart?]
  | cons a start ih =>
    cases t with
    | nil => simp [dropStart?] at h
    | cons b t =>
      by_cases hab : a = b
      · simp only [dropStart?, hab, if_true] at h
        simp only [List.length_cons]
        have := ih h
        omega
      · simp [dropStart?, hab] at h

/-- Every occurrence of `needle`, found from left to right without overlap, becomes `replacement`;
an empty needle is replaced nowhere. -/
def replaceAll (needle replacement : Text) (t : Text) : Text :=
  match needle, t with
  | [], t => t
  | _, [] => []
  | n :: ns, c :: rest =>
    match _found : dropStart? (n :: ns) (c :: rest) with
    | some after => replacement ++ replaceAll (n :: ns) replacement after
    | none => c :: replaceAll (n :: ns) replacement rest
termination_by t.length
decreasing_by
  · have := dropStart?_length _found
    simp only [List.length_cons] at *
    omega
  · simp

/-- The pieces of `t` between the occurrences of `sep`. -/
def splitOn (sep : Nat) (t : Text) : List Text := List.splitOn sep t

/-- Code points in ascending lexicographic order: the order in which sets of texts are listed. -/
def le : Text → Text → Bool
  | [], _ => true
  | _ :: _, [] => false
  | a :: s, b :: t => a < b || (a == b && le s t)

/-- The distinct texts of a list in ascending order. -/
def sortedSet (ts : List Text) : List Text := (ts.eraseDups).mergeSort le

/-- The string of a text whose code points all stand for characters. -/
def toString (t : Text) : String := String.ofList (t.map Char.ofNat)

end Text

end ChatCommands
