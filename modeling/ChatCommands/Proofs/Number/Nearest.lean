import ChatCommands.Number.Binary64
import Mathlib.Algebra.Order.Field.Rat
import Mathlib.Algebra.Order.Field.Power
import Mathlib.Data.Rat.Lemmas
import Mathlib.Tactic.FieldSimp
import Mathlib.Tactic.Linarith
import Mathlib.Tactic.Positivity
import Mathlib.Tactic.Ring

/-!
Rounding to the nearest floating-point number keeps the order of numbers.

A positive number lies between two neighbouring powers of two, which fixes the unit in which it is
rounded.  Within one unit rounding to an integer is monotone; between two units there is a power of
two, which both of them represent.  Main statements: `snap_mono`, and `snap_eq_self` for the numbers
that a mantissa and an exponent give exactly.
-/

namespace ChatCommands

/-! ### Rounding to an integer -/

theorem roundHalfEven_mul (k : Nat) {b : Nat} (hb : 0 < b) : roundHalfEven (k * b) b = k := by
  have hr : k * b % b = 0 := Nat.mul_mod_left k b
  have hq : k * b / b = k := Nat.mul_div_cancel k hb
  unfold roundHalfEven
  simp [hr, hq, hb.ne']

theorem roundHalfEven_mono {a b c d : Nat} (hb : 0 < b) (hd : 0 < d) (h : a * d ≤ c * b) :
    roundHalfEven a b ≤ roundHalfEven c d := by
  have hab : b * (a / b) + a % b = a := Nat.div_add_mod a b
  have hcd : d * (c / d) + c % d = c := Nat.div_add_mod c d
  have hra : a % b < b := Nat.mod_lt a hb
  have hrc : c % d < d := Nat.mod_lt c hd
  unfold roundHalfEven
  generalize a / b = q at *
  generalize a % b = r at *
  generalize c / d = q' at *
  generalize c % d = r' at *
  subst hab hcd
  have hq : q ≤ q' := by
    by_contra hlt
    have h1 : q' + 1 ≤ q := by omega
    have h2 : b * d * (q' + 1) ≤ b * d * q := Nat.mul_le_mul_left _ h1
    have h3 : r' * b < d * b := Nat.mul_lt_mul_of_pos_right hrc hb
    nlinarith
  simp only []
  rcases Nat.lt_or_eq_of_le hq with hlt | rfl
  · split <;> split <;> omega
  · -- with equal integer parts the fractions are in order
    have hr : r * d ≤ r' * b := by nlinarith
    have hup : b ≤ 2 * r → d ≤ 2 * r' := by
      intro hbr
      by_contra hlt
      have : 2 * r' * b < d * b := Nat.mul_lt_mul_of_pos_right (by omega) hb
      nlinarith [Nat.mul_le_mul_right d hbr]
    have hover : b < 2 * r → d < 2 * r' := by
      intro hbr
      by_contra hle
      have : 2 * r' * b ≤ d * b := Nat.mul_le_mul_right b (by omega)
      nlinarith [Nat.mul_lt_mul_of_pos_right hbr hd]
    by_cases h1 : b < 2 * r
    · simp [h1, hover h1]
    · by_cases h2 : b = 2 * r ∧ q % 2 = 1
      · have hle := hup h2.1.le
        by_cases h3 : d < 2 * r'
        · simp [h2.1, h2.2, h3]
        · have h4 : d = 2 * r' := by omega
          simp [h2.1, h2.2, h4]
      · have hlow : (decide (b < 2 * r) || (b == 2 * r && q % 2 == 1)) = false := by
          simp only [Bool.or_eq_false_iff, decide_eq_false_iff_not, Bool.and_eq_false_iff,
            beq_eq_false_iff_ne]
          exact ⟨h1, by omega⟩
        simp only [hlow, Bool.false_eq_true, if_false]
        split <;> omega

namespace Binary64

/-! ### Powers of two -/

theorem pow2_eq_zpow (e : Int) : pow2 e = (2 : Rat) ^ e := by
  unfold pow2
  split
  case isTrue h =>
    obtain ⟨n, rfl⟩ := Int.eq_ofNat_of_zero_le h
    simp
  case isFalse h =>
    obtain ⟨n, hn⟩ := Int.eq_ofNat_of_zero_le (show 0 ≤ -e by omega)
    obtain rfl : e = -(n : Int) := by omega
    simp [zpow_neg]

theorem pow2_pos (e : Int) : 0 < pow2 e := by
  rw [pow2_eq_zpow]
  positivity

theorem pow2_add (a b : Int) : pow2 (a + b) = pow2 a * pow2 b := by
  simp only [pow2_eq_zpow]
  exact zpow_add₀ (by norm_num) a b

theorem pow2_le_pow2 {a b : Int} (h : a ≤ b) : pow2 a ≤ pow2 b := by
  simp only [pow2_eq_zpow]
  exact zpow_le_zpow_right₀ (by norm_num) h

theorem lt_of_pow2_lt_pow2 {a b : Int} (h : pow2 a < pow2 b) : a < b := by
  by_contra hle
  exact absurd (pow2_le_pow2 (not_lt.mp hle)) (not_le.mpr h)

theorem pow2_natCast (n : Nat) : pow2 (n : Int) = ((2 ^ n : Nat) : Rat) := by
  rw [pow2_eq_zpow]
  simp

/-- A power of two in units of a smaller one. -/
theorem natPow_mul_pow2 {a b : Int} (h : a ≤ b) :
    ((2 ^ (b - a).toNat : Nat) : Rat) * pow2 a = pow2 b := by
  rw [← pow2_natCast, ← pow2_add]
  congr 1
  omega

/-! ### The unit of a fraction -/

/-- **The unit of a positive fraction** is that of the greatest power of two below it, but not
smaller than the smallest unit. -/
theorem unitExponent_spec {num den : Nat} (hn : num ≠ 0) (hd : den ≠ 0) :
    ∃ l : Int, unitExponent num den = max (-1074) (l - 52) ∧
      pow2 l ≤ (num : Rat) / den ∧ (num : Rat) / den < pow2 (l + 1) := by
  have hdpos : (0 : Rat) < den := by positivity
  have hn1 : (pow2 (num.log2 : Int) : Rat) ≤ num := by
    rw [pow2_natCast]; exact_mod_cast Nat.log2_self_le hn
  have hn2 : (num : Rat) < pow2 ((num.log2 : Int) + 1) := by
    have : num < 2 ^ (num.log2 + 1) := Nat.lt_log2_self
    rw [show ((num.log2 : Int) + 1) = ((num.log2 + 1 : Nat) : Int) by simp, pow2_natCast]
    exact_mod_cast this
  have hd1 : (pow2 (den.log2 : Int) : Rat) ≤ den := by
    rw [pow2_natCast]; exact_mod_cast Nat.log2_self_le hd
  have hd2 : (den : Rat) < pow2 ((den.log2 : Int) + 1) := by
    have : den < 2 ^ (den.log2 + 1) := Nat.lt_log2_self
    rw [show ((den.log2 : Int) + 1) = ((den.log2 + 1 : Nat) : Int) by simp, pow2_natCast]
    exact_mod_cast this
  -- the quotient of the leading powers is right up to one
  have hlow : pow2 ((num.log2 : Int) - den.log2 - 1) ≤ (num : Rat) / den := by
    rw [le_div_iff₀ hdpos]
    calc pow2 ((num.log2 : Int) - den.log2 - 1) * den
        ≤ pow2 ((num.log2 : Int) - den.log2 - 1) * pow2 ((den.log2 : Int) + 1) :=
          mul_le_mul_of_nonneg_left hd2.le (pow2_pos _).le
      _ = pow2 (num.log2 : Int) := by rw [← pow2_add]; congr 1; ring
      _ ≤ num := hn1
  have hhigh : (num : Rat) / den < pow2 ((num.log2 : Int) - den.log2 + 1) := by
    rw [div_lt_iff₀ hdpos]
    calc (num : Rat) < pow2 ((num.log2 : Int) + 1) := hn2
      _ = pow2 ((num.log2 : Int) - den.log2 + 1) * pow2 (den.log2 : Int) := by
          rw [← pow2_add]; congr 1; ring
      _ ≤ pow2 ((num.log2 : Int) - den.log2 + 1) * den :=
          mul_le_mul_of_nonneg_left hd1 (pow2_pos _).le
  unfold unitExponent
  simp only [Nat.pow_eq]
  generalize (num.log2 : Int) - den.log2 = k at *
  have hat : (if 0 ≤ k then decide (den * 2 ^ k.toNat ≤ num)
      else decide (den ≤ num * 2 ^ (-k).toNat)) = decide (pow2 k ≤ (num : Rat) / den) := by
    split
    case isTrue hk =>
      obtain ⟨n, rfl⟩ := Int.eq_ofNat_of_zero_le hk
      simp only [pow2_natCast, le_div_iff₀ hdpos, Int.toNat_natCast, decide_eq_decide]
      rw [mul_comm den]
      exact_mod_cast Iff.rfl
    case isFalse hk =>
      obtain ⟨n, hn'⟩ := Int.eq_ofNat_of_zero_le (show 0 ≤ -k by omega)
      obtain rfl : k = -(n : Int) := by omega
      have hpos : (0 : Rat) < pow2 (n : Int) := pow2_pos _
      have hinv : pow2 (-(n : Int)) * pow2 (n : Int) = 1 := by
        rw [← pow2_add]; simp [pow2_eq_zpow]
      simp only [neg_neg, Int.toNat_natCast, decide_eq_decide, le_div_iff₀ hdpos]
      constructor
      · intro h
        have h' : (den : Rat) ≤ num * pow2 (n : Int) := by
          rw [pow2_natCast]; exact_mod_cast h
        nlinarith [pow2_pos (-(n : Int))]
      · intro h
        have h' : (den : Rat) ≤ num * pow2 (n : Int) := by nlinarith
        rw [pow2_natCast] at h'
        exact_mod_cast h'
  simp only [hat]
  by_cases h : pow2 k ≤ (num : Rat) / den
  · exact ⟨k, by simp [h], h, hhigh⟩
  · refine ⟨k - 1, by simp [h], hlow, ?_⟩
    rw [sub_add_cancel]
    exact not_le.mp h

/-! ### Rounding to a multiple of a unit -/

/-- The numerator and the denominator of a fraction in units of `2 ^ e`. -/
theorem scaled_eq (num den : Nat) (hd : den ≠ 0) (e : Int) :
    ∃ a b : Nat, 0 < b ∧ scaled num den e = roundHalfEven a b ∧
      (a : Rat) / b * pow2 e = (num : Rat) / den := by
  have hdpos : (0 : Rat) < den := by positivity
  unfold scaled
  split
  case isTrue h =>
    obtain ⟨n, rfl⟩ := Int.eq_ofNat_of_zero_le h
    refine ⟨num, den * 2 ^ n, by positivity, by simp, ?_⟩
    rw [pow2_natCast]
    push_cast
    field_simp
  case isFalse h =>
    obtain ⟨n, hn⟩ := Int.eq_ofNat_of_zero_le (show 0 ≤ -e by omega)
    obtain rfl : e = -(n : Int) := by omega
    refine ⟨num * 2 ^ n, den, by omega, by simp, ?_⟩
    rw [pow2_eq_zpow, zpow_neg, zpow_natCast]
    push_cast
    field_simp

theorem scaled_mono {n d n' d' : Nat} (hd : d ≠ 0) (hd' : d' ≠ 0) (e : Int)
    (h : (n : Rat) / d ≤ (n' : Rat) / d') : scaled n d e ≤ scaled n' d' e := by
  obtain ⟨a, b, hb, hab, hv⟩ := scaled_eq n d hd e
  obtain ⟨a', b', hb', hab', hv'⟩ := scaled_eq n' d' hd' e
  rw [hab, hab']
  refine roundHalfEven_mono hb hb' ?_
  rw [← hv, ← hv'] at h
  have h1 : (a : Rat) / b ≤ a' / b' := le_of_mul_le_mul_right h (pow2_pos e)
  rw [div_le_div_iff₀ (by positivity) (by positivity)] at h1
  exact_mod_cast h1

theorem scaled_le {n d : Nat} (hd : d ≠ 0) (e : Int) {k : Nat}
    (h : (n : Rat) / d ≤ k * pow2 e) : scaled n d e ≤ k := by
  obtain ⟨a, b, hb, hab, hv⟩ := scaled_eq n d hd e
  have h1 : (a : Rat) / b ≤ k := le_of_mul_le_mul_right (hv.trans_le h) (pow2_pos e)
  have h2 : a ≤ k * b := by
    rw [div_le_iff₀ (by positivity)] at h1
    exact_mod_cast h1
  rw [hab, ← roundHalfEven_mul k hb]
  exact roundHalfEven_mono hb hb (Nat.mul_le_mul_right b h2)

theorem le_scaled {n d : Nat} (hd : d ≠ 0) (e : Int) {k : Nat}
    (h : k * pow2 e ≤ (n : Rat) / d) : k ≤ scaled n d e := by
  obtain ⟨a, b, hb, hab, hv⟩ := scaled_eq n d hd e
  have h1 : (k : Rat) ≤ a / b := le_of_mul_le_mul_right (h.trans_eq hv.symm) (pow2_pos e)
  have h2 : k * b ≤ a := by
    rw [le_div_iff₀ (by positivity)] at h1
    exact_mod_cast h1
  rw [hab, ← roundHalfEven_mul k hb]
  exact roundHalfEven_mono hb hb (Nat.mul_le_mul_right b h2)

/-! ### The nearest number of a positive value -/

/-- The rounded value of a positive number, whatever its size. -/
def nearest (q : Rat) : Rat :=
  scaled q.num.natAbs q.den (unitExponent q.num.natAbs q.den) *
    pow2 (unitExponent q.num.natAbs q.den)

variable {x y : Rat}

theorem natAbs_num_div_den (h : 0 < x) : ((x.num.natAbs : Nat) : Rat) / (x.den : Nat) = x := by
  have hnum : (0 : Int) < x.num := Rat.num_pos.mpr h
  rw [show ((x.num.natAbs : Nat) : Rat) = ((x.num : Int) : Rat) by
    rw [← Int.cast_natCast, Int.natAbs_of_nonneg hnum.le]]
  exact Rat.num_div_den x

/-- A positive number is rounded to a multiple of a unit that its leading power of two fixes. -/
theorem nearest_spec (h : 0 < x) :
    ∃ l : Int, unitExponent x.num.natAbs x.den = max (-1074) (l - 52) ∧
      pow2 l ≤ x ∧ x < pow2 (l + 1) := by
  have hn : x.num.natAbs ≠ 0 := by
    have : 0 < x.num := Rat.num_pos.mpr h
    omega
  obtain ⟨l, hl, hlow, hhigh⟩ := unitExponent_spec hn x.den_nz
  rw [natAbs_num_div_den h] at hlow hhigh
  exact ⟨l, hl, hlow, hhigh⟩

theorem le_nearest (hx : 0 < x) {k : Nat} {f : Int} (hf : unitExponent x.num.natAbs x.den ≤ f)
    (h : k * pow2 f ≤ x) : k * pow2 f ≤ nearest x := by
  unfold nearest
  rw [← natPow_mul_pow2 hf, ← mul_assoc, ← Nat.cast_mul] at h ⊢
  refine mul_le_mul_of_nonneg_right ?_ (pow2_pos _).le
  exact_mod_cast le_scaled x.den_nz _ (by rwa [natAbs_num_div_den hx])

theorem nearest_le (hx : 0 < x) {k : Nat} {f : Int} (hf : unitExponent x.num.natAbs x.den ≤ f)
    (h : x ≤ k * pow2 f) : nearest x ≤ k * pow2 f := by
  unfold nearest
  rw [← natPow_mul_pow2 hf, ← mul_assoc, ← Nat.cast_mul] at h ⊢
  refine mul_le_mul_of_nonneg_right ?_ (pow2_pos _).le
  exact_mod_cast scaled_le x.den_nz _ (by rwa [natAbs_num_div_den hx])

theorem nearest_mono (hx : 0 < x) (h : x ≤ y) : nearest x ≤ nearest y := by
  have hy : 0 < y := hx.trans_le h
  obtain ⟨l, hl, hlow, hhigh⟩ := nearest_spec hx
  obtain ⟨l', hl', hlow', hhigh'⟩ := nearest_spec hy
  by_cases hll : l' ≤ l
  · -- the units are the same
    have : l < l' + 1 := lt_of_pow2_lt_pow2 ((hlow.trans h).trans_lt hhigh')
    obtain rfl : l = l' := by omega
    unfold nearest
    rw [hl, hl']
    refine mul_le_mul_of_nonneg_right ?_ (pow2_pos _).le
    have := scaled_mono x.den_nz y.den_nz (max (-1074) (l - 52))
      (by rwa [natAbs_num_div_den hx, natAbs_num_div_den hy])
    exact_mod_cast this
  · -- a power of two lies between the numbers
    have hup : x ≤ (1 : Nat) * pow2 l' := by
      rw [Nat.cast_one, one_mul]
      exact hhigh.le.trans (pow2_le_pow2 (by omega))
    have hdown : (1 : Nat) * pow2 l' ≤ y := by rwa [Nat.cast_one, one_mul]
    by_cases hsmall : -1074 ≤ l'
    · exact (nearest_le hx (by omega) hup).trans (le_nearest hy (by omega) hdown)
    · unfold nearest
      rw [hl, hl', show max (-1074) (l - 52) = (-1074 : Int) by omega,
        show max (-1074) (l' - 52) = (-1074 : Int) by omega]
      refine mul_le_mul_of_nonneg_right ?_ (pow2_pos _).le
      have := scaled_mono x.den_nz y.den_nz (-1074)
        (by rwa [natAbs_num_div_den hx, natAbs_num_div_den hy])
      exact_mod_cast this

/-- **A mantissa and an exponent give a number exactly.** -/
theorem nearest_eq_self {m : Nat} {e : Int} (hm : 0 < m) (hm' : m ≤ 2 ^ 53) (he : -1074 ≤ e) :
    nearest (m * pow2 e) = m * pow2 e := by
  have hpos : (0 : Rat) < m * pow2 e := mul_pos (by exact_mod_cast hm) (pow2_pos e)
  obtain ⟨l, hl, hlow, -⟩ := nearest_spec hpos
  have htop : (m : Rat) * pow2 e ≤ pow2 (53 + e) := by
    rw [pow2_add]
    refine mul_le_mul_of_nonneg_right ?_ (pow2_pos e).le
    rw [show (53 : Int) = ((53 : Nat) : Int) from rfl, pow2_natCast]
    exact_mod_cast hm'
  have hle : l ≤ 53 + e := by
    by_contra hlt
    have h1 : pow2 (53 + e) < pow2 (53 + e + 1) := by
      rw [pow2_add _ 1]
      have := pow2_pos (53 + e)
      simp only [pow2_eq_zpow, zpow_one] at *
      linarith
    have h2 : pow2 (53 + e + 1) ≤ pow2 l := pow2_le_pow2 (by omega)
    linarith
  rcases hle.lt_or_eq with hlt | rfl
  · have hunit : unitExponent (m * pow2 e).num.natAbs (m * pow2 e).den ≤ e := by omega
    exact le_antisymm (nearest_le hpos hunit le_rfl) (le_nearest hpos hunit le_rfl)
  · -- the greatest mantissa is a power of two
    have htwo : (m : Rat) * pow2 e = (1 : Nat) * pow2 (53 + e) := by
      rw [Nat.cast_one, one_mul]
      exact le_antisymm htop hlow
    have hunit : unitExponent (m * pow2 e).num.natAbs (m * pow2 e).den ≤ 53 + e := by omega
    refine le_antisymm ?_ ?_
    · exact (nearest_le hpos hunit htwo.le).trans htwo.ge
    · exact htwo.le.trans (le_nearest hpos hunit htwo.ge)

/-- The mantissa of a rounded number is in its range. -/
theorem scaled_unit_le (hx : 0 < x) :
    scaled x.num.natAbs x.den (unitExponent x.num.natAbs x.den) ≤ 2 ^ 53 := by
  obtain ⟨l, hl, -, hhigh⟩ := nearest_spec hx
  refine scaled_le x.den_nz _ ?_
  rw [natAbs_num_div_den hx, ← pow2_natCast, ← pow2_add]
  exact hhigh.le.trans (pow2_le_pow2 (by push_cast; omega))

/-- Rounding twice is rounding once. -/
theorem nearest_nearest (hx : 0 < x) (h : 0 < nearest x) : nearest (nearest x) = nearest x := by
  obtain ⟨l, hl, -, -⟩ := nearest_spec hx
  have hm : 0 < scaled x.num.natAbs x.den (unitExponent x.num.natAbs x.den) := by
    by_contra hzero
    have h0 : scaled x.num.natAbs x.den (unitExponent x.num.natAbs x.den) = 0 := by omega
    rw [nearest, h0] at h
    simp at h
  exact nearest_eq_self hm (scaled_unit_le hx) (by omega)

/-! ### Clock values -/

/-- The top of the range. -/
theorem pow2_1024 : pow2 1024 = ((2 ^ 53 : Nat) : Rat) * pow2 971 := by
  rw [← pow2_natCast, ← pow2_add]
  rfl

/-- A mantissa that has grown by rounding to the next power of two. -/
theorem full_mantissa (e : Int) :
    ((2 ^ 53 : Nat) : Rat) * pow2 e = ((2 ^ 52 : Nat) : Rat) * pow2 (e + 1) := by
  rw [← pow2_natCast, ← pow2_natCast, ← pow2_add, ← pow2_add]
  congr 1
  push_cast
  ring

/-- A mantissa in its range is below the top of the range exactly if its exponent is small. -/
theorem mul_pow2_lt_top {m : Nat} {e : Int} (hm : m < 2 ^ 53) (hbig : 971 < e → 2 ^ 52 ≤ m) :
    (m : Rat) * pow2 e < pow2 1024 ↔ ¬ 971 < e := by
  constructor
  · intro h he
    have h1 : pow2 1024 ≤ ((2 ^ 52 : Nat) : Rat) * pow2 e := by
      rw [← pow2_natCast, ← pow2_add]
      exact pow2_le_pow2 (by push_cast; omega)
    have h2 : ((2 ^ 52 : Nat) : Rat) * pow2 e ≤ m * pow2 e :=
      mul_le_mul_of_nonneg_right (by exact_mod_cast hbig he) (pow2_pos e).le
    linarith
  · intro he
    have h1 : (m : Rat) * pow2 e < ((2 ^ 53 : Nat) : Rat) * pow2 e :=
      mul_lt_mul_of_pos_right (by exact_mod_cast hm) (pow2_pos e)
    have h2 : ((2 ^ 53 : Nat) : Rat) * pow2 e ≤ ((2 ^ 53 : Nat) : Rat) * pow2 971 :=
      mul_le_mul_of_nonneg_left (pow2_le_pow2 (by omega)) (by positivity)
    rw [pow2_1024]
    linarith

/-- A number whose mantissa is in its range. -/
theorem finite_toRat? (negative : Bool) {m : Nat} {e : Int} (hm : m < 2 ^ 53)
    (hbig : 971 < e → 2 ^ 52 ≤ m) :
    (if 971 < e then infinity negative else finite negative m e).toRat? =
      if (m : Rat) * pow2 e < pow2 1024 then
        some (if negative then -(m * pow2 e) else m * pow2 e)
      else none := by
  simp only [mul_pow2_lt_top hm hbig]
  by_cases he : 971 < e
  · simp [he, toRat?]
  · cases negative <;> simp [he, toRat?]

/-- The number that a positive fraction rounds to, unless it is out of range. -/
theorem ofFraction_toRat? (negative : Bool) (hx : 0 < x) :
    (ofFraction negative x.num.natAbs x.den).toRat? =
      if nearest x < pow2 1024 then some (if negative then -nearest x else nearest x)
      else none := by
  obtain ⟨l, hl, hlow, -⟩ := nearest_spec hx
  have hn : x.num.natAbs ≠ 0 := by
    have : 0 < x.num := Rat.num_pos.mpr hx
    omega
  have htop := scaled_unit_le hx
  by_cases hfull : scaled x.num.natAbs x.den (unitExponent x.num.natAbs x.den) = 2 ^ 53
  · have hval : nearest x = ((2 ^ 52 : Nat) : Rat) *
        pow2 (unitExponent x.num.natAbs x.den + 1) := by
      rw [nearest, hfull, full_mantissa]
    simp only [ofFraction, Nat.pow_eq, hn, if_false, hfull, if_true, hval]
    exact finite_toRat? negative (by omega) fun _ => le_rfl
  · simp only [ofFraction, Nat.pow_eq, hn, if_false, hfull]
    refine finite_toRat? negative (lt_of_le_of_ne htop hfull) fun hbig => ?_
    refine le_scaled x.den_nz _ ?_
    rw [natAbs_num_div_den hx, ← pow2_natCast, ← pow2_add]
    refine le_trans (pow2_le_pow2 ?_) hlow
    push_cast
    omega

theorem snap_zero : snap 0 = 0 := by
  simp [snap, ofRat, ofFraction, toRat?]

theorem snap_of_pos (hx : 0 < x) : snap x = if nearest x < pow2 1024 then nearest x else x := by
  unfold snap ofRat
  rw [show decide (x < 0) = false by simp [hx.le], ofFraction_toRat? false hx]
  split <;> rfl

theorem snap_neg (x : Rat) : snap (-x) = -snap x := by
  have hpos : ∀ y : Rat, 0 < y → snap (-y) = -snap y := by
    intro y hy
    rw [snap_of_pos hy]
    unfold snap ofRat
    rw [show decide (-y < 0) = true by simp [hy], Rat.num_neg_eq_neg_num, Int.natAbs_neg,
      Rat.den_neg_eq_den, ofFraction_toRat? true hy]
    split <;> rfl
  rcases lt_trichotomy x 0 with hx | rfl | hx
  · have := hpos (-x) (by linarith)
    rw [neg_neg] at this
    rw [this, neg_neg]
  · simp [snap_zero]
  · exact hpos x hx

theorem nearest_nonneg (x : Rat) : 0 ≤ nearest x :=
  mul_nonneg (Nat.cast_nonneg _) (pow2_pos _).le

theorem snap_nonneg (hx : 0 ≤ x) : 0 ≤ snap x := by
  rcases hx.eq_or_lt with rfl | hx
  · rw [snap_zero]
  · rw [snap_of_pos hx]
    split
    · exact nearest_nonneg x
    · exact hx.le

theorem snap_mono_of_pos (hx : 0 < x) (h : x ≤ y) : snap x ≤ snap y := by
  rw [snap_of_pos hx, snap_of_pos (hx.trans_le h)]
  have hmono := nearest_mono hx h
  by_cases hy : nearest y < pow2 1024
  · rw [if_pos hy, if_pos (hmono.trans_lt hy)]
    exact hmono
  · rw [if_neg hy]
    split
    case isTrue hx' =>
      -- a number that is rounded into the range lies below one that is not
      by_contra hlt
      rw [not_le] at hlt
      have h1 := nearest_mono (hx.trans_le h) hlt.le
      rw [nearest_nearest hx (hx.trans_le (h.trans hlt.le))] at h1
      exact hy (h1.trans_lt hx')
    case isFalse => exact h

/-- **Rounding keeps the order of numbers.** -/
theorem snap_mono (h : x ≤ y) : snap x ≤ snap y := by
  rcases lt_or_ge 0 x with hx | hx
  · exact snap_mono_of_pos hx h
  · rcases lt_or_ge y 0 with hy | hy
    · have := snap_mono_of_pos (x := -y) (y := -x) (by linarith) (by linarith)
      rw [snap_neg, snap_neg] at this
      linarith
    · have h1 := snap_nonneg hy
      have h2 := snap_nonneg (x := -x) (by linarith)
      rw [snap_neg] at h2
      linarith

/-- **Rounding a number twice is rounding it once.** -/
theorem snap_snap (x : Rat) : snap (snap x) = snap x := by
  have hpos : ∀ y : Rat, 0 < y → snap (snap y) = snap y := by
    intro y hy
    rw [snap_of_pos hy]
    split
    case isTrue hin =>
      rcases (nearest_nonneg y).eq_or_lt with hzero | hn
      · rw [← hzero, snap_zero]
      · rw [snap_of_pos hn, nearest_nearest hy hn, if_pos hin]
    case isFalse hout => rw [snap_of_pos hy, if_neg hout]
  rcases lt_trichotomy x 0 with hx | rfl | hx
  · have hneg := hpos (-x) (by linarith)
    rwa [snap_neg, snap_neg, neg_inj] at hneg
  · rw [snap_zero, snap_zero]
  · exact hpos x hx

theorem snap_mul_pow2 {m : Nat} {e : Int} (hm : m ≤ 2 ^ 53) (he : -1074 ≤ e) :
    snap (m * pow2 e) = m * pow2 e := by
  rcases Nat.eq_zero_or_pos m with rfl | hpos
  · simp [snap_zero]
  · rw [snap_of_pos (mul_pos (by exact_mod_cast hpos) (pow2_pos e)), nearest_eq_self hpos hm he]
    split <;> rfl

/-- Parts of `1 / 1024` are exact in a range of moderate size. -/
theorem snap_fine {i : Int} (h : i.natAbs ≤ 2 ^ 53) : snap (i / 1024) = i / 1024 := by
  have hunit : pow2 (-10) = 1 / 1024 := by decide +kernel
  have hnat : ∀ n : Nat, n ≤ 2 ^ 53 → snap ((n : Rat) / 1024) = n / 1024 := by
    intro n hn
    have hsnap := snap_mul_pow2 (m := n) (e := -10) hn (by omega)
    rwa [hunit, mul_one_div] at hsnap
  rcases Int.natAbs_eq i with hi | hi
  · rw [hi, Int.cast_natCast]
    exact hnat _ h
  · rw [hi, Int.cast_neg, Int.cast_natCast, neg_div, snap_neg, hnat _ h]

/-- Whole numbers of moderate size are numbers of the clock. -/
theorem snap_intCast {i : Int} (h : i.natAbs ≤ 2 ^ 53) : snap i = i := by
  have hnat : ∀ n : Nat, n ≤ 2 ^ 53 → snap (n : Rat) = n := by
    intro n hn
    have := snap_mul_pow2 (m := n) (e := 0) hn (by omega)
    rwa [show pow2 0 = 1 from rfl, mul_one] at this
  rcases Int.natAbs_eq i with hi | hi
  · rw [hi, Int.cast_natCast]
    exact hnat _ h
  · rw [hi, Int.cast_neg, Int.cast_natCast, snap_neg, hnat _ h]

end Binary64

end ChatCommands
