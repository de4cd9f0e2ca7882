import ChatCommands.Cooldown.Limiter
import ChatCommands.Proofs.Number.Nearest

/-!
The clock of the cooldowns: differences of its readings are in the order of the readings.
-/

namespace ChatCommands.Cooldown

/-- A time as a clock that counts in floating point gives it. -/
def IsReading (t : Rat) : Prop := Binary64.snap t = t

instance (t : Rat) : Decidable (IsReading t) := inferInstanceAs (Decidable (_ = _))

/-- Whole numbers of milliseconds of moderate size are readings. -/
theorem isReading_intCast {i : Int} (h : i.natAbs ≤ 2 ^ 53) : IsReading i :=
  Binary64.snap_intCast h

/-- A way to subtract times that respects the order of the times in `readings`. -/
def Orderly (gap : Rat → Rat → Rat) (readings : Rat → Prop) : Prop :=
  ∀ ⦃a a' b b' : Rat⦄, readings a → readings a' → readings b → readings b' →
    a ≤ a' → b' ≤ b → gap a b ≤ gap a' b'

theorem elapsed_of_isReading {a b : Rat} (ha : IsReading a) (hb : IsReading b) :
    elapsed a b = Binary64.snap (a - b) :=
  if_pos ⟨ha, hb⟩

/-- **More time passes up to a later reading and from an earlier one.** -/
theorem elapsed_orderly : Orderly elapsed IsReading := by
  intro a a' b b' ha ha' hb hb' hle hle'
  rw [elapsed_of_isReading ha hb, elapsed_of_isReading ha' hb']
  exact Binary64.snap_mono (sub_le_sub hle hle')

/-- The difference of whole times is rounded, if anything, only once. -/
theorem elapsed_whole {a b : Rat} (ha : a.den = 1) (hb : b.den = 1) :
    elapsed a b = Binary64.snap (a - b) ∨ elapsed a b = a - b := by
  unfold elapsed
  split
  · exact .inl rfl
  · rw [if_pos ⟨ha, hb⟩]
    exact .inr rfl

theorem exists_intCast_eq_sub {a b : Rat} (ha : a.den = 1) (hb : b.den = 1) :
    ∃ i : Int, a - b = i := by
  refine ⟨a.num - b.num, ?_⟩
  rw [Int.cast_sub, (Rat.den_eq_one_iff a).mp ha, (Rat.den_eq_one_iff b).mp hb]

/-- **Whole times** that are not too far apart are subtracted exactly. -/
theorem elapsed_of_whole {a b : Rat} (ha : a.den = 1) (hb : b.den = 1) (h : |a - b| ≤ 2 ^ 53) :
    elapsed a b = a - b := by
  obtain ⟨i, hi⟩ := exists_intCast_eq_sub ha hb
  rcases elapsed_whole ha hb with hsnap | hexact
  · rw [hi] at h
    have hsmall : |i| ≤ 2 ^ 53 := by exact_mod_cast h
    rw [hsnap, hi]
    exact Binary64.snap_intCast (by rw [Int.abs_eq_natAbs] at hsmall; omega)
  · exact hexact

/-- Whole times that seem less than some time apart are so. -/
theorem sub_lt_of_elapsed_lt {a b : Rat} {i : Int} (ha : a.den = 1) (hb : b.den = 1)
    (hi : i.natAbs ≤ 2 ^ 53) (h : elapsed a b < i) : a - b < i := by
  rcases elapsed_whole ha hb with hsnap | hexact
  · by_contra hle
    have hmono := Binary64.snap_mono (not_lt.mp hle)
    rw [Binary64.snap_intCast hi, ← hsnap] at hmono
    exact absurd h (not_lt.mpr hmono)
  · rwa [hexact] at h

/-- No time passes backwards. -/
theorem elapsed_nonneg {a b : Rat} (h : b ≤ a) : 0 ≤ elapsed a b := by
  unfold elapsed
  split
  · exact Binary64.snap_nonneg (sub_nonneg.mpr h)
  · split
    · exact sub_nonneg.mpr h
    · exact Binary64.snap_nonneg (sub_nonneg.mpr (Binary64.snap_mono h))

/-- A time that has passed is a reading or a whole number. -/
theorem elapsed_kind (a b : Rat) : IsReading (elapsed a b) ∨ (elapsed a b).den = 1 := by
  unfold elapsed
  split
  · exact .inl (Binary64.snap_snap _)
  · split
    case isTrue hwhole =>
      obtain ⟨i, rfl⟩ : ∃ i : Int, a = i := ⟨a.num, (Rat.den_eq_one_iff a).mp hwhole.1 |>.symm⟩
      obtain ⟨j, rfl⟩ : ∃ j : Int, b = j := ⟨b.num, (Rat.den_eq_one_iff b).mp hwhole.2 |>.symm⟩
      right
      rw [← Int.cast_sub, Rat.den_intCast]
    case isFalse => exact .inl (Binary64.snap_snap _)

/-- What is left of a cooldown after some time is not more than the cooldown. -/
theorem elapsed_le {cooldownMs : Int} (hC : cooldownMs.natAbs ≤ 2 ^ 53) {gone : Rat}
    (hgone : 0 ≤ gone) (hkind : IsReading gone ∨ gone.den = 1) :
    elapsed cooldownMs gone ≤ cooldownMs := by
  have hread : IsReading cooldownMs := isReading_intCast hC
  by_cases hreading : IsReading gone
  · rw [elapsed_of_isReading hread hreading]
    calc Binary64.snap (cooldownMs - gone) ≤ Binary64.snap cooldownMs :=
          Binary64.snap_mono (sub_le_self _ hgone)
      _ = cooldownMs := hread
  · have hwhole := hkind.resolve_left hreading
    unfold elapsed
    rw [if_neg fun h => hreading h.2, if_pos ⟨Rat.den_intCast _, hwhole⟩]
    exact sub_le_self _ hgone

theorem truncate_le {q : Rat} {i : Int} (hi : 0 ≤ i) (h : q ≤ i) : Limiter.truncate q ≤ i := by
  have hden : (0 : Int) < q.den := by exact_mod_cast q.den_pos
  have hnum : q.num ≤ i * q.den := by
    have hmul := mul_le_mul_of_nonneg_right h (by exact_mod_cast hden.le : (0 : Rat) ≤ q.den)
    rw [Rat.mul_den_eq_num] at hmul
    exact_mod_cast hmul
  unfold Limiter.truncate
  rcases le_or_gt 0 q.num with hpos | hneg
  · rw [Int.tdiv_eq_ediv_of_nonneg hpos]
    exact Int.ediv_le_of_le_mul hden hnum
  · have hnonneg := Int.tdiv_nonneg (a := -q.num) (b := q.den) (by omega) hden.le
    rw [Int.neg_tdiv] at hnonneg
    omega

/-- **How long is left of a cooldown** is at most the cooldown, if the clock does not run
backwards. -/
theorem truncate_elapsed_le {cooldownMs : Int} (hC₀ : 0 ≤ cooldownMs) (hC : cooldownMs ≤ 2 ^ 53)
    {now last : Rat} (h : last ≤ now) :
    Limiter.truncate (elapsed cooldownMs (elapsed now last)) ≤ cooldownMs :=
  truncate_le hC₀ (elapsed_le (by omega) (elapsed_nonneg h) (elapsed_kind now last))

theorem truncate_intCast (i : Int) : Limiter.truncate i = i := by
  rw [Limiter.truncate, Rat.num_intCast, Rat.den_intCast, Nat.cast_one, Int.tdiv_one]

/-- **What is left of a cooldown** after a whole time is given exactly. -/
theorem truncate_elapsed_of_whole {cooldownMs : Int} (hC₀ : 0 ≤ cooldownMs)
    (hC : cooldownMs ≤ 2 ^ 53) {now last : Rat} (hnow : now.den = 1) (hlast : last.den = 1)
    (hle : last ≤ now) (hgap : elapsed now last < cooldownMs) :
    (Limiter.truncate (elapsed cooldownMs (elapsed now last)) : Rat) =
      cooldownMs - (now - last) := by
  have hsoon := sub_lt_of_elapsed_lt hnow hlast (by omega) hgap
  have hC' : (cooldownMs : Rat) ≤ 2 ^ 53 := by exact_mod_cast hC
  have hgone : elapsed now last = now - last := by
    refine elapsed_of_whole hnow hlast ?_
    rw [abs_of_nonneg (sub_nonneg.mpr hle)]
    exact hsoon.le.trans hC'
  obtain ⟨i, hi⟩ := exists_intCast_eq_sub hnow hlast
  have hi₀ : (0 : Rat) ≤ i := hi ▸ sub_nonneg.mpr hle
  rw [hi] at hsoon
  rw [hgone, hi]
  have hleft : elapsed cooldownMs i = cooldownMs - i := by
    refine elapsed_of_whole (Rat.den_intCast _) (Rat.den_intCast _) ?_
    rw [abs_of_pos (by linarith)]
    linarith
  rw [hleft, ← Int.cast_sub, truncate_intCast]

/-- **A cooldown is not over** after a wait that is less than what is left of it. -/
theorem elapsed_add_lt_iff {cooldownMs wait : Int} (hC : cooldownMs ≤ 2 ^ 53) (hwait : 0 ≤ wait)
    {now last : Rat} (hnow : now.den = 1) (hlast : last.den = 1) (hle : last ≤ now) :
    elapsed (now + wait) last < cooldownMs ↔ wait < cooldownMs - (now - last) := by
  have hC' : (cooldownMs : Rat) ≤ 2 ^ 53 := by exact_mod_cast hC
  have hwait' : (0 : Rat) ≤ wait := by exact_mod_cast hwait
  have hsum : (now + wait).den = 1 := by
    rw [← (Rat.den_eq_one_iff now).mp hnow, ← Int.cast_add]
    exact Rat.den_intCast _
  constructor
  · intro hsoon
    by_cases hC₀ : 0 ≤ cooldownMs
    · have hlt := sub_lt_of_elapsed_lt hsum hlast (by omega) hsoon
      linarith
    · -- no time passes backwards
      have hnonneg : 0 ≤ elapsed (now + wait) last := elapsed_nonneg (by linarith)
      have hneg : (cooldownMs : Rat) < 0 := by exact_mod_cast not_le.mp hC₀
      linarith
  · intro hlt
    rw [elapsed_of_whole hsum hlast (abs_le.mpr ⟨by linarith, by linarith⟩)]
    linarith

end ChatCommands.Cooldown
