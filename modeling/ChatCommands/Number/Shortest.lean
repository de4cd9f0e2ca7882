import ChatCommands.Number.Binary64
import ChatCommands.Text.Basic

/-!
Decimal numerals of floating-point numbers.

`shortest` finds the fewest digits that read back as the number: on the grids of one, two, ...
seventeen significant digits it tries the two neighbours of the value and takes the first grid with
a neighbour that rounds to the number, of two such neighbours the nearer one.  The other functions
lay digits out: positionally, with an exponent, with a fixed number of places.
-/

namespace ChatCommands.Binary64

/-- `10 ^ k` as a rational number. -/
def pow10 (k : Int) : Rat :=
  if 0 ≤ k then Nat.pow 10 k.toNat else 1 / (Nat.pow 10 (-k).toNat : Rat)

/-- The largest `k` with `10 ^ k ≤ q`, for positive `q`. -/
def decimalExponent (q : Rat) : Int :=
  let estimate := (((q.num.natAbs.log2 : Int) - q.den.log2) * 30103).fdiv 100000 - 2
  climb estimate 6
where
  /-- Steps up while the next power is not above `q`. -/
  climb (k : Int) : Nat → Int
    | 0 => k
    | fuel + 1 => if pow10 (k + 1) ≤ q then climb (k + 1) fuel else k

/-- The number `digits * 10 ^ exponent`. -/
structure Decimal where
  digits : Nat
  exponent : Int
  deriving DecidableEq, Repr

/-- The same number without zeros at the end of its digits. -/
def Decimal.trim (d : Decimal) : Decimal :=
  if _ : 10 ≤ d.digits ∧ d.digits % 10 = 0 then Decimal.trim ⟨d.digits / 10, d.exponent + 1⟩ else d
termination_by d.digits
decreasing_by exact Nat.div_lt_self (by omega) (by omega)

/-- The value of a decimal. -/
def Decimal.value (d : Decimal) : Rat := d.digits * pow10 d.exponent

/-- The rational numbers that round to `m * 2 ^ e`: the ends of the interval, which belong to it
when the mantissa is even. -/
def roundingInterval (m : Nat) (e : Int) : Rat × Rat :=
  let below : Rat := if m = Nat.pow 2 52 ∧ -1074 < e then pow2 (e - 2) else pow2 (e - 1)
  (m * pow2 e - below, m * pow2 e + pow2 (e - 1))

/-- The decimal of at most `count` digits that is nearest to `q` among those inside the interval. -/
def onGrid? (q : Rat) (inside : Rat → Bool) (k : Int) (count : Nat) : Option Decimal :=
  let exponent := k + 1 - count
  let unit := pow10 exponent
  let low := (q / unit).floor.toNat
  let down : Decimal := ⟨low, exponent⟩
  let up : Decimal := ⟨low + 1, exponent⟩
  let gapDown := q - down.value
  let gapUp := up.value - q
  match inside down.value && low != 0, inside up.value with
  | true, true =>
    if gapDown < gapUp || (gapDown == gapUp && low % 2 == 0) then some down else some up
  | true, false => some down
  | false, true => some up
  | false, false => none

/-- The shortest decimal that reads back as the positive number `m * 2 ^ e`. -/
def shortest (m : Nat) (e : Int) : Decimal :=
  let q := m * pow2 e
  let (lo, hi) := roundingInterval m e
  let inside (x : Rat) : Bool := if m % 2 = 0 then lo ≤ x && x ≤ hi else lo < x && x < hi
  let k := decimalExponent q
  (((List.range 17).findSome? fun n => onGrid? q inside k (n + 1)).getD ⟨0, 0⟩).trim

/-! ### Layout -/

/-- Digits with the decimal point after the first `point` of them, and at least one digit on each
side of the point unless `whole` drops an empty fraction. -/
def positional (digits : Text) (point : Int) (whole : Bool) : Text :=
  if point ≤ 0 then text "0." ++ List.replicate (-point).toNat 48 ++ digits
  else
    let n := point.toNat
    if digits.length ≤ n then
      digits ++ List.replicate (n - digits.length) 48 ++ (if whole then [] else text ".0")
    else digits.take n ++ text "." ++ digits.drop n

/-- Digits in scientific notation; the exponent has a sign and at least two digits. -/
def scientific (digits : Text) (exponent : Int) : Text :=
  let mantissa := match digits with
    | d :: rest@(_ :: _) => d :: cp '.' :: rest
    | ds => ds
  let size := Text.ofNat exponent.natAbs
  mantissa ++ [cp 'e', if exponent < 0 then cp '-' else cp '+'] ++
    (if size.length < 2 then 48 :: size else size)

/-- Lays out the value with `layout` of its digits and decimal exponent, after the sign. -/
def withSign (negative : Bool) (t : Text) : Text := if negative then cp '-' :: t else t

/-- The shortest numeral that reads back: positional for decimal exponents from -4 up to 15, with a
fraction of at least one digit, and scientific elsewhere. -/
def render : Binary64 → Text
  | .nan => text "nan"
  | .infinity negative => withSign negative (text "inf")
  | .finite negative 0 _ => withSign negative (text "0.0")
  | .finite negative m e =>
    let d := shortest m e
    let digits := Text.ofNat d.digits
    let exponent := d.exponent + digits.length - 1
    withSign negative <|
      if -4 ≤ exponent && exponent < 16 then positional digits (exponent + 1) false
      else scientific digits exponent

/-- Like `render`, but a whole number below `2 ^ 53` has no fraction. -/
def renderBrief (x : Binary64) : Text :=
  if x.isWhole && x.toRat.num.natAbs < Nat.pow 2 53 then Text.ofInt x.toRat.num else x.render

/-- Six significant digits without zeros at the end: positional for decimal exponents from -4 up to
5, and scientific elsewhere. -/
def renderGeneral : Binary64 → Text
  | .nan => text "nan"
  | .infinity negative => withSign negative (text "inf")
  | .finite negative 0 _ => withSign negative (text "0")
  | .finite negative m e =>
    let q := m * pow2 e
    let k := decimalExponent q
    let scaled := q / pow10 (k - 5)
    let d : Decimal := Decimal.trim ⟨roundHalfEven scaled.num.natAbs scaled.den, k - 5⟩
    let digits := Text.ofNat d.digits
    let exponent := d.exponent + digits.length - 1
    withSign negative <|
      if -4 ≤ exponent && exponent < 6 then positional digits (exponent + 1) true
      else scientific digits exponent

/-- One decimal place, rounded correctly, a tie to the even digit. -/
def tenths (q : Rat) : Int :=
  let n := roundHalfEven (10 * q.num.natAbs) q.den
  if q < 0 then -(n : Int) else n

/-- A number of tenths with one decimal place. -/
def renderTenths (q : Rat) : Text :=
  let n := (tenths q).natAbs
  withSign (q < 0) (Text.ofNat (n / 10) ++ text "." ++ Text.ofNat (n % 10))

/-- The floating-point number nearest to the value rounded to one decimal place. -/
def roundToTenths (q : Rat) : Binary64 := ofRat (mkRat (tenths q) 10)

end ChatCommands.Binary64
