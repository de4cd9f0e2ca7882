import ChatCommands.Number.Shortest
import ChatCommands.Proofs.Number.Nearest
import Mathlib.Algebra.Order.Floor.Ring
import Mathlib.Data.Rat.Floor

/-!
One decimal place of a floating-point number.

A number is rounded twice on its way into a numeral, to a floating-point number and to tenths.  The
first rounding moves it by less than a thousandth, and so it matters only half-way between two
tenths.
-/

namespace ChatCommands

theorem roundHalfEven_le_iff {a b : Nat} (hb : 0 < b) (k : Nat) :
    roundHalfEven a b ≤ k ↔ 2 * a < (2 * k + 1) * b ∨ 2 * a = (2 * k + 1) * b ∧ k % 2 = 0 := by
  have hsplit : b * (a / b) + a % b = a := Nat.div_add_mod a b
  have hrest : a % b < b := Nat.mod_lt a hb
  unfold roundHalfEven
  generalize a / b = q at *
  generalize a % b = r at *
  subst hsplit
  have hmiddle : (2 * k + 1) * b = 2 * (b * k) + b := by ring
  rw [hmiddle]
  simp only [Bool.or_eq_true, decide_eq_true_eq, Bool.and_eq_true, beq_iff_eq]
  rcases Nat.lt_trichotomy q k with hlt | rfl | hgt
  · -- the number is below the middle
    have hle : b * q + b ≤ b * k := Nat.mul_le_mul_left b hlt
    split <;> omega
  · split <;> omega
  · have hle : b * k + b ≤ b * q := Nat.mul_le_mul_left b hgt
    split <;> omega

namespace Binary64

variable {q : Rat}

theorem tenths_nonneg (hq : 0 ≤ q) : 0 ≤ tenths q := by
  unfold tenths
  rw [if_neg (not_lt.mpr hq)]
  exact Int.natCast_nonneg _

/-- **Which tenth a number is rounded to**: a middle between two goes to the even one. -/
theorem tenths_le_iff (hq : 0 ≤ q) (k : Nat) :
    tenths q ≤ k ↔ 20 * q < 2 * k + 1 ∨ 20 * q = 2 * k + 1 ∧ k % 2 = 0 := by
  have hden : (0 : Rat) < q.den := by exact_mod_cast q.den_pos
  have hnum : (q.num.natAbs : Rat) = q * q.den := by
    rw [Rat.mul_den_eq_num, ← Int.cast_natCast, Int.natAbs_of_nonneg (Rat.num_nonneg.mpr hq)]
  have hscaled : ((2 * (10 * q.num.natAbs) : Nat) : Rat) = 20 * q * q.den := by
    push_cast
    rw [hnum]
    ring
  have hmiddle : (((2 * k + 1) * q.den : Nat) : Rat) = (2 * k + 1) * q.den := by
    push_cast
    rfl
  have hlt : 2 * (10 * q.num.natAbs) < (2 * k + 1) * q.den ↔ 20 * q < 2 * k + 1 := by
    rw [← Nat.cast_lt (α := Rat), hscaled, hmiddle]
    exact mul_lt_mul_iff_left₀ hden
  have heq : 2 * (10 * q.num.natAbs) = (2 * k + 1) * q.den ↔ 20 * q = 2 * k + 1 := by
    rw [← Nat.cast_inj (R := Rat), hscaled, hmiddle]
    exact mul_left_inj' hden.ne'
  unfold tenths
  rw [if_neg (not_lt.mpr hq), Nat.cast_le, roundHalfEven_le_iff q.den_pos, hlt, heq]

/-! ### Floating-point numbers of moderate size -/

theorem toRat?_ofRat (hq : 0 < q) (h : q ≤ ((2 ^ 53 : Nat) : Rat)) :
    (ofRat q).toRat? = some (snap q) := by
  have hbig : nearest q ≤ ((2 ^ 53 : Nat) : Rat) := by
    have hmono := nearest_mono hq h
    have hexact := nearest_eq_self (m := 2 ^ 53) (e := 0) (by norm_num) le_rfl (by omega)
    rw [show pow2 0 = 1 from rfl, mul_one] at hexact
    rwa [hexact] at hmono
  have hin : nearest q < pow2 1024 := by
    refine hbig.trans_lt ?_
    rw [← pow2_natCast, pow2_eq_zpow, pow2_eq_zpow]
    exact zpow_lt_zpow_right₀ (by norm_num) (by norm_num)
  have hpos : decide (q < 0) = false := by simp [hq.le]
  unfold snap ofRat
  rw [hpos, ofFraction_toRat? false hq, if_pos hin]
  rfl

theorem toRat_ofRat (hq : 0 < q) (h : q ≤ ((2 ^ 53 : Nat) : Rat)) : (ofRat q).toRat = snap q :=
  congrArg (·.getD 0) (toRat?_ofRat hq h)

/-- **Rounding moves a number of moderate size by a little at most.** -/
theorem abs_snap_sub_le (hq : 0 ≤ q) (h : q ≤ 2 ^ 42) : |snap q - q| ≤ 1 / 1024 := by
  have hlow : (⌊1024 * q⌋ : Rat) / 1024 ≤ q := by
    have := Int.floor_le (1024 * q)
    linarith
  have hhigh : q ≤ ((⌊1024 * q⌋ + 1 : Int) : Rat) / 1024 := by
    have := Int.lt_floor_add_one (1024 * q)
    push_cast
    linarith
  have hnonneg : 0 ≤ ⌊1024 * q⌋ := Int.floor_nonneg.mpr (by linarith)
  have hsmall : ⌊1024 * q⌋ ≤ 2 ^ 52 := by
    rw [← Int.cast_le (R := Rat)]
    push_cast
    have := Int.floor_le (1024 * q)
    linarith
  -- the number stays between its two neighbours
  have hlow' := snap_mono hlow
  have hhigh' := snap_mono hhigh
  rw [snap_fine (by omega)] at hlow' hhigh'
  push_cast at hhigh hhigh'
  rw [abs_le]
  constructor <;> linarith

end Binary64

end ChatCommands
