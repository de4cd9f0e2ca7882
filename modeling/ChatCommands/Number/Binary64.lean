/-!
Binary floating-point numbers of 64 bits.

A finite number is a sign, a mantissa below `2 ^ 53` and an exponent of two; it is kept in lowest
terms, so that two numbers of one value and sign are equal.  Every operation computes the exact
rational result and rounds it to the nearest number, a tie to the even mantissa.
-/

namespace ChatCommands

/-- The nearest integer to `num / den`; of two, the even one. -/
def roundHalfEven (num den : Nat) : Nat :=
  let q := num / den
  let r := num % den
  if den < 2 * r || (den == 2 * r && q % 2 == 1) then q + 1 else q

/-- A floating-point number. -/
inductive Binary64
  | nan
  | infinity (negative : Bool)
  | finite (negative : Bool) (mantissa : Nat) (exponent : Int)
  deriving DecidableEq, Repr, Inhabited

namespace Binary64

/-- `2 ^ e` as a rational number. -/
def pow2 (e : Int) : Rat :=
  if 0 ≤ e then Nat.pow 2 e.toNat else 1 / (Nat.pow 2 (-e).toNat : Rat)

/-- `num / den` in units of `2 ^ e`, rounded. -/
def scaled (num den : Nat) (e : Int) : Nat :=
  if 0 ≤ e then roundHalfEven num (den * Nat.pow 2 e.toNat)
  else roundHalfEven (num * Nat.pow 2 (-e).toNat) den

/-- The exponent of the unit in the last place of a positive `num / den`. -/
def unitExponent (num den : Nat) : Int :=
  let k : Int := (num.log2 : Int) - den.log2
  let atLeast : Bool :=
    if 0 ≤ k then den * Nat.pow 2 k.toNat ≤ num else den ≤ num * Nat.pow 2 (-k).toNat
  max (-1074) ((if atLeast then k else k - 1) - 52)

/-- The number nearest to `± num / den`. -/
def ofFraction (negative : Bool) (num den : Nat) : Binary64 :=
  if num = 0 then .finite negative 0 (-1074)
  else
    let e := unitExponent num den
    let m := scaled num den e
    let (m, e) := if m = Nat.pow 2 53 then (Nat.pow 2 52, e + 1) else (m, e)
    if 971 < e then .infinity negative else .finite negative m e

/-- The number nearest to a rational number. -/
def ofRat (q : Rat) : Binary64 := ofFraction (q < 0) q.num.natAbs q.den

/-- The number nearest to an integer. -/
def ofInt (i : Int) : Binary64 := ofFraction (i < 0) i.natAbs 1

/-- The number nearest to `± digits * 10 ^ exponent`; far outside the range of magnitudes the
exponent alone decides. -/
def ofDecimal (negative : Bool) (digits : Nat) (exponent : Int) : Binary64 :=
  let size : Int := (digits.log2 : Int) / 3 + exponent
  if digits = 0 || size < -800 then .finite negative 0 (-1074)
  else if 400 < exponent then .infinity negative
  else if 0 ≤ exponent then ofFraction negative (digits * Nat.pow 10 exponent.toNat) 1
  else ofFraction negative digits (Nat.pow 10 (-exponent).toNat)

/-- The value of a finite number. -/
def toRat? : Binary64 → Option Rat
  | .finite negative m e => some ((if negative then -(m : Rat) else (m : Rat)) * pow2 e)
  | _ => none

/-- The value of a finite number, and zero for the others. -/
def toRat (x : Binary64) : Rat := x.toRat?.getD 0

/-- The number has no fractional part. -/
def isWhole (x : Binary64) : Bool :=
  match x.toRat? with
  | some q => q.den == 1
  | none => false

/-- `x` is below `y`; false if either is no number. -/
def lt : Binary64 → Binary64 → Bool
  | .nan, _ | _, .nan => false
  | .infinity a, .infinity b => a && !b
  | .infinity a, .finite .. => a
  | .finite .., .infinity b => !b
  | x, y => x.toRat < y.toRat

/-- `x` is at most `y`; false if either is no number. -/
def le : Binary64 → Binary64 → Bool
  | .nan, _ | _, .nan => false
  | .infinity a, .infinity b => a || !b
  | .infinity a, .finite .. => a
  | .finite .., .infinity b => !b
  | x, y => x.toRat ≤ y.toRat

/-- The sum; only finite operands and one infinite operand occur. -/
def add (x y : Binary64) : Binary64 :=
  match x, y with
  | .nan, _ | _, .nan => .nan
  | .infinity a, .infinity b => if a = b then x else .nan
  | .infinity _, _ => x
  | _, .infinity _ => y
  | _, _ => ofRat (x.toRat + y.toRat)

/-- The integer part of a finite number. -/
def truncate (x : Binary64) : Int := x.toRat.num.tdiv x.toRat.den

/-- The value of the number nearest to `q`: how a clock that counts in floating point keeps it. -/
def snap (q : Rat) : Rat := ((ofRat q).toRat?).getD q

end Binary64

end ChatCommands
