import ChatCommands.Text.Basic
import Mathlib.Tactic.Common

/-!
Numerals denote the numbers that they are written for.

A decimal numeral has ASCII digits only, begins with a zero just if it is the zero, and denotes its
number.  Of four hexadecimal digits each has its place.
-/

namespace ChatCommands.Text

/-! ### Digits -/

theorem digitsRev_of_lt {base n : Nat} (h : n < base) :
    digitsRev base n = [digitsRev.digit n] := by
  rw [digitsRev, dif_neg (by omega)]

theorem digitsRev_of_le {base n : Nat} (hbase : 2 ≤ base) (h : base ≤ n) :
    digitsRev base n = digitsRev.digit (n % base) :: digitsRev base (n / base) := by
  rw [digitsRev, dif_pos ⟨hbase, h⟩]

theorem isAsciiDigit_digit {d : Nat} (h : d < 10) : isAsciiDigit (digitsRev.digit d) = true := by
  simp only [isAsciiDigit, digitsRev.digit, if_pos h, Bool.and_eq_true, decide_eq_true_eq]
  omega

theorem digit_sub {d : Nat} (h : d < 10) : digitsRev.digit d - 48 = d := by
  rw [digitsRev.digit, if_pos h, Nat.add_sub_cancel_left]

/-! ### Decimal numerals -/

theorem isAsciiDigit_of_mem_digitsRev {n c : Nat} (h : c ∈ digitsRev 10 n) :
    isAsciiDigit c = true := by
  induction n using Nat.strongRecOn with
  | _ n ih =>
    by_cases hn : n < 10
    · rw [digitsRev_of_lt hn, List.mem_singleton] at h
      subst h
      exact isAsciiDigit_digit hn
    · rw [digitsRev_of_le (by decide) (by omega)] at h
      rcases List.mem_cons.mp h with rfl | h
      · exact isAsciiDigit_digit (Nat.mod_lt n (by decide))
      · exact ih (n / 10) (by omega) h

theorem isAsciiDigit_of_mem_ofNat {n c : Nat} (h : c ∈ ofNat n) : isAsciiDigit c = true :=
  isAsciiDigit_of_mem_digitsRev (List.mem_reverse.mp h)

/-- **A numeral denotes its number.** -/
theorem toNat_ofNat (n : Nat) : toNat (ofNat n) = n := by
  rw [toNat, ofNat, List.foldl_reverse]
  induction n using Nat.strongRecOn with
  | _ n ih =>
    by_cases hn : n < 10
    · rw [digitsRev_of_lt hn, List.foldr_cons, List.foldr_nil, digit_sub hn]
      omega
    · rw [digitsRev_of_le (by decide) (by omega), List.foldr_cons, ih (n / 10) (by omega),
        digit_sub (Nat.mod_lt n (by decide))]
      omega

theorem digitsRev_ne_nil (n : Nat) : digitsRev 10 n ≠ [] := by
  by_cases hn : n < 10
  · rw [digitsRev_of_lt hn]
    exact List.cons_ne_nil _ _
  · rw [digitsRev_of_le (by decide) (by omega)]
    exact List.cons_ne_nil _ _

theorem getLast?_digitsRev {n : Nat} (h : n ≠ 0) : (digitsRev 10 n).getLast? ≠ some 48 := by
  induction n using Nat.strongRecOn with
  | _ n ih =>
    by_cases hn : n < 10
    · rw [digitsRev_of_lt hn, List.getLast?_singleton, digitsRev.digit, if_pos hn]
      intro heq
      have := Option.some.inj heq
      omega
    · rw [digitsRev_of_le (by decide) (by omega)]
      have hrest := ih (n / 10) (by omega) (by omega)
      cases hdigits : digitsRev 10 (n / 10) with
      | nil => exact absurd hdigits (digitsRev_ne_nil _)
      | cons d ds =>
        rw [hdigits] at hrest
        rw [List.getLast?_cons_cons]
        exact hrest

/-- A numeral is the zero, or it does not begin with a zero. -/
theorem ofNat_cases (n : Nat) :
    (n = 0 ∧ ofNat n = [48]) ∨ ∃ d ds, ofNat n = d :: ds ∧ d ≠ 48 := by
  by_cases hn : n = 0
  · subst hn
    refine .inl ⟨rfl, ?_⟩
    rw [ofNat, digitsRev_of_lt (by decide)]
    rfl
  · cases hnumeral : ofNat n with
    | nil => exact absurd (List.reverse_eq_nil_iff.mp hnumeral) (digitsRev_ne_nil n)
    | cons d ds =>
      refine .inr ⟨d, ds, rfl, ?_⟩
      rintro rfl
      have hlast := getLast?_digitsRev hn
      rw [← List.head?_reverse, ← ofNat, hnumeral] at hlast
      exact hlast rfl

/-! ### Hexadecimal numerals -/

theorem digit_bounds {d : Nat} (h : d < 16) :
    48 ≤ digitsRev.digit d ∧ digitsRev.digit d ≤ 102 := by
  rw [digitsRev.digit]
  split_ifs with hd <;> omega

theorem bounds_of_mem_digitsRev {n c : Nat} (h : c ∈ digitsRev 16 n) : 48 ≤ c ∧ c ≤ 102 := by
  induction n using Nat.strongRecOn with
  | _ n ih =>
    by_cases hn : n < 16
    · rw [digitsRev_of_lt hn, List.mem_singleton] at h
      subst h
      exact digit_bounds hn
    · rw [digitsRev_of_le (by decide) (by omega)] at h
      rcases List.mem_cons.mp h with rfl | h
      · exact digit_bounds (Nat.mod_lt n (by decide))
      · exact ih (n / 16) (by omega) h

theorem bounds_of_mem_ofHex {width n c : Nat} (h : c ∈ ofHex width n) : 48 ≤ c ∧ c ≤ 102 := by
  rcases List.mem_append.mp h with h | h
  · rw [List.eq_of_mem_replicate h]
    decide
  · exact bounds_of_mem_digitsRev (List.mem_reverse.mp h)

/-- The four digits of a number below 65536. -/
theorem ofHex_four {n : Nat} (h : n < 65536) :
    ofHex 4 n = [digitsRev.digit (n / 4096), digitsRev.digit (n / 256 % 16),
      digitsRev.digit (n / 16 % 16), digitsRev.digit (n % 16)] := by
  have hzero : digitsRev.digit 0 = 48 := rfl
  by_cases h₁ : n < 16
  · have hdigits : digitsRev 16 n = [digitsRev.digit n] := digitsRev_of_lt h₁
    rw [ofHex, hdigits, show n / 4096 = 0 by omega, show n / 256 % 16 = 0 by omega,
      show n / 16 % 16 = 0 by omega, show n % 16 = n by omega, hzero]
    rfl
  · rw [ofHex, digitsRev_of_le (by decide) (by omega)]
    by_cases h₂ : n < 256
    · rw [digitsRev_of_lt (by omega), show n / 4096 = 0 by omega, show n / 256 % 16 = 0 by omega,
        show n / 16 % 16 = n / 16 by omega, hzero]
      rfl
    · rw [digitsRev_of_le (by decide) (by omega)]
      by_cases h₃ : n < 4096
      · rw [digitsRev_of_lt (by omega), show n / 4096 = 0 by omega, Nat.div_div_eq_div_mul,
          show n / 256 % 16 = n / (16 * 16) by omega, hzero]
        rfl
      · rw [digitsRev_of_le (by decide) (by omega), digitsRev_of_lt (by omega),
          Nat.div_div_eq_div_mul, Nat.div_div_eq_div_mul]
        rfl

end ChatCommands.Text
