import ChatCommands.Number.Shortest
import ChatCommands.Text.Blank

/-!
Decimal numerals with a given number of places or of significant digits.

The functions take a value that is not negative.  Every value is rounded correctly, a tie to the
even digit; `point` asks for a decimal point even where no digit follows it.
-/

namespace ChatCommands.Binary64

/-- The text on the left padded with zeros to `width` characters. -/
def padZeros (width : Nat) (t : Text) : Text := List.replicate (width - t.length) 48 ++ t

/-- A whole number of units of `10 ^ -places`. -/
def layPlaces (places : Nat) (point : Bool) (units : Nat) : Text :=
  let digits := padZeros (places + 1) (Text.ofNat units)
  let whole := digits.length - places
  digits.take whole ++ (if 0 < places || point then [46] else []) ++ digits.drop whole

/-- The value in units of `10 ^ -places`, rounded. -/
def unitsOf (places : Int) (q : Rat) : Nat :=
  let scaled := q * pow10 places
  roundHalfEven scaled.num.natAbs scaled.den

/-- A numeral with a given number of places. -/
def fixed (places : Nat) (point : Bool) (q : Rat) : Text :=
  layPlaces places point (unitsOf places q)

/-- The first `places + 1` significant digits of a value as a whole number, and the decimal exponent
of the first digit. -/
def leading (places : Nat) (q : Rat) : Nat × Int :=
  if q = 0 then (0, 0)
  else
    let k := decimalExponent q
    let n := unitsOf (places - k) q
    if n = Nat.pow 10 (places + 1) then (Nat.pow 10 places, k + 1) else (n, k)

/-- The exponent of a numeral: its sign and at least two digits. -/
def layExponent (k : Int) : Text :=
  [cp 'e', if k < 0 then cp '-' else cp '+'] ++ padZeros 2 (Text.ofNat k.natAbs)

/-- A numeral in scientific notation with a given number of places. -/
def exponential (places : Nat) (point : Bool) (q : Rat) : Text :=
  let (n, k) := leading places q
  layPlaces places point n ++ layExponent k

/-- The text without zeros at the end of its fraction,
and without the point if nothing follows it. -/
def dropFractionZeros (t : Text) : Text :=
  if t.contains 46 then
    let t := Text.stripEndOf (· == 48) t
    if t.getLast? = some 46 then t.dropLast else t
  else t

/-- A numeral with a given number of significant digits: positional unless the exponent is below -4
or not below that number.  Zeros at the end are kept if a point is asked for. -/
def general (digits : Nat) (point : Bool) (q : Rat) : Text :=
  let digits := max digits 1
  let (n, k) := leading (digits - 1) q
  let trim (t : Text) : Text := if point then t else dropFractionZeros t
  if -4 ≤ k && k < digits then trim (fixed (digits - 1 - k).toNat point q)
  else trim (layPlaces (digits - 1) point n) ++ layExponent k

end ChatCommands.Binary64
