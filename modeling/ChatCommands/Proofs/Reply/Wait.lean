import ChatCommands.Proofs.Number.Tenths
import ChatCommands.Reply

/-!
The wait that a reply advertises.

The wait is given in tenths of a second, at least one, and rounded to the nearest one.  So it is too
short by up to fifty milliseconds wherever less than half a tenth is left over, and at half a tenth
where the floating-point number of seconds is rounded down.
-/

namespace ChatCommands.Reply

open Binary64

variable {retryAfterMs : Int}

/-- The advertised wait in tenths of a second. -/
def advertised (retryAfterMs : Int) : Int := tenths (waitSeconds retryAfterMs)

theorem abs_waitSeconds_sub_le (h : retryAfterMs ≤ 2 ^ 50) :
    |waitSeconds retryAfterMs - (max retryAfterMs 100 : Int) / 1000| ≤ 1 / 1024 := by
  have hlow : (100 : Rat) ≤ (max retryAfterMs 100 : Int) := by exact_mod_cast le_max_right _ _
  have hhigh : ((max retryAfterMs 100 : Int) : Rat) ≤ 2 ^ 50 := by
    exact_mod_cast max_le h (by norm_num)
  unfold waitSeconds
  rw [Rat.mkRat_eq_div]
  generalize ((max retryAfterMs 100 : Int) : Rat) = ms at *
  have hpos : 0 < ms / 1000 := by linarith
  have hsmall : ms / 1000 ≤ 2 ^ 42 := by linarith
  push_cast
  rw [toRat_ofRat hpos (hsmall.trans (by norm_num))]
  exact abs_snap_sub_le hpos.le hsmall

theorem waitSeconds_pos (h : retryAfterMs ≤ 2 ^ 50) : 0 < waitSeconds retryAfterMs := by
  have hnear := (abs_le.mp (abs_waitSeconds_sub_le h)).1
  have hlow : (100 : Rat) ≤ (max retryAfterMs 100 : Int) := by exact_mod_cast le_max_right _ _
  linarith

theorem advertised_nonneg (h : retryAfterMs ≤ 2 ^ 50) : 0 ≤ advertised retryAfterMs :=
  tenths_nonneg (waitSeconds_pos h).le

/-- **What a user is told who has to wait.** -/
theorem ofResult_rateLimited (limit : Int) (label : Text) {result : RunResult}
    (hresult : result.status = .rateLimited) (h : retryAfterMs ≤ 2 ^ 50) :
    ofResult limit label result retryAfterMs =
      some (text "This command is on cooldown. Try again in " ++
        (Text.ofNat ((advertised retryAfterMs).toNat / 10) ++ text "." ++
          Text.ofNat ((advertised retryAfterMs).toNat % 10)) ++ text "s.") := by
  have hpos := waitSeconds_pos h
  have hnonneg := advertised_nonneg h
  have habs : (tenths (waitSeconds retryAfterMs)).natAbs = (advertised retryAfterMs).toNat := by
    unfold advertised at hnonneg ⊢
    omega
  unfold ofResult renderTenths withSign
  rw [hresult]
  simp only [habs, not_lt.mpr hpos.le, decide_false, Bool.false_eq_true, if_false]

/-- Half a tenth of a second is rounded down: the floating-point number of seconds is below the
middle, or it is the middle and the tenth below is even. -/
def HalfDown (retryAfterMs : Int) : Prop :=
  waitSeconds retryAfterMs < retryAfterMs / 1000 ∨
    waitSeconds retryAfterMs = retryAfterMs / 1000 ∧ retryAfterMs / 100 % 2 = 0

theorem advertised_le_iff (h₀ : 100 ≤ retryAfterMs) (h : retryAfterMs ≤ 2 ^ 50) {k ms : Nat}
    (hsplit : retryAfterMs = 100 * k + ms) :
    advertised retryAfterMs ≤ k ↔ ms < 50 ∨ ms = 50 ∧ HalfDown retryAfterMs := by
  have hnear := abs_le.mp (abs_waitSeconds_sub_le h)
  rw [max_eq_left h₀] at hnear
  have hrat : (retryAfterMs : Rat) = 100 * k + ms := by
    rw [hsplit]
    push_cast
    rfl
  unfold advertised
  rw [tenths_le_iff (waitSeconds_pos h).le]
  rcases Nat.lt_trichotomy ms 50 with hlt | rfl | hgt
  · have hlt' : (ms : Rat) ≤ 49 := by exact_mod_cast Nat.le_of_lt_succ hlt
    constructor
    · intro _
      exact .inl hlt
    · intro _
      left
      linarith
  · have heven : retryAfterMs / 100 % 2 = 0 ↔ k % 2 = 0 := by omega
    push_cast at hrat
    unfold HalfDown
    rw [heven, hrat]
    constructor
    · rintro (hbelow | ⟨hmiddle, hk⟩)
      · exact .inr ⟨rfl, .inl (by linarith)⟩
      · exact .inr ⟨rfl, .inr ⟨by linarith, hk⟩⟩
    · rintro (hlt | ⟨-, hbelow | ⟨hmiddle, hk⟩⟩)
      · omega
      · left
        linarith
      · right
        exact ⟨by linarith, hk⟩
  · have hgt' : (51 : Rat) ≤ ms := by exact_mod_cast hgt
    constructor
    · rintro (hbelow | ⟨hmiddle, -⟩)
      · linarith
      · linarith
    · rintro (hlt | ⟨heq, -⟩) <;> omega

theorem advertised_of_lt (h : retryAfterMs < 100) : advertised retryAfterMs = 1 := by
  have hsame : waitSeconds retryAfterMs = waitSeconds 100 := by
    unfold waitSeconds
    rw [max_eq_right h.le, max_self]
  have hone : advertised 100 = 1 := by decide +kernel
  rw [← hone, advertised, advertised, hsame]

instance : Decidable (HalfDown retryAfterMs) := inferInstanceAs (Decidable (_ ∨ _))

/-- **When the advertised wait is too short**, for every wait. -/
theorem advertised_lt_iff (h₀ : 0 < retryAfterMs) (h : retryAfterMs ≤ 2 ^ 50) :
    100 * advertised retryAfterMs < retryAfterMs ↔ 100 < retryAfterMs ∧
      (0 < retryAfterMs % 100 ∧ retryAfterMs % 100 < 50 ∨
        retryAfterMs % 100 = 50 ∧ HalfDown retryAfterMs) := by
  by_cases hlong : 100 ≤ retryAfterMs
  · -- the last hundred milliseconds that begin before the end of the wait
    obtain ⟨k, hk⟩ := Int.eq_ofNat_of_zero_le (show 0 ≤ (retryAfterMs - 1) / 100 by omega)
    obtain ⟨ms, hms⟩ := Int.eq_ofNat_of_zero_le (show 0 ≤ retryAfterMs - 100 * k by omega)
    have hshort : 100 * advertised retryAfterMs < retryAfterMs ↔ advertised retryAfterMs ≤ k := by
      omega
    have hsplit : retryAfterMs = 100 * k + ms := by omega
    rw [hshort, advertised_le_iff hlong h hsplit]
    by_cases hhalf : HalfDown retryAfterMs
    · simp only [hhalf, and_true]
      omega
    · simp only [hhalf, and_false, or_false]
      omega
  · rw [advertised_of_lt (by omega)]
    omega

/-- **The advertised wait is too short by half a tenth of a second at most.** -/
theorem le_advertised_add (h : retryAfterMs ≤ 2 ^ 50) :
    retryAfterMs ≤ 100 * advertised retryAfterMs + 50 := by
  by_contra hshort
  have hnonneg := advertised_nonneg h
  by_cases hlong : 100 ≤ retryAfterMs
  · obtain ⟨k, hk⟩ := Int.eq_ofNat_of_zero_le hnonneg
    obtain ⟨ms, hms⟩ := Int.eq_ofNat_of_zero_le (show 0 ≤ retryAfterMs - 100 * k by omega)
    have hsplit : retryAfterMs = 100 * k + ms := by omega
    have hround := (advertised_le_iff hlong h hsplit).mp hk.le
    omega
  · rw [advertised_of_lt (by omega)] at hshort
    omega

end ChatCommands.Reply
