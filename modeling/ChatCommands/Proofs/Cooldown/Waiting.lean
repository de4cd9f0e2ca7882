import ChatCommands.Proofs.Cooldown.Overtaking
import ChatCommands.Proofs.Cooldown.Pruning
import Mathlib.Data.Rat.Floor

/-!
How long to wait after a refusal.

What is left of a cooldown may be a fraction of a millisecond more than a whole number, and the wait
that a refusal gives is its whole part.  So whoever waits for just that long is refused once more,
unless the rest was a whole number; and less than a millisecond before the end the wait is zero.
Main statement: `wait_suffices_iff_whole`.
-/

namespace ChatCommands.Cooldown

open Limiter

variable {s : Settings} {d : Desk} {k : Key} {cooldownMs : Int} {now last : Rat} {e : Entry}

/-! ### Times without rounding -/

/-- From `now` until a millisecond after the cooldown is over, times are subtracted exactly. -/
structure Unrounded (gap : Rat → Rat → Rat) (cooldownMs : Int) (now last : Rat) : Prop where
  gone : gap now last = now - last
  since : ∀ i : Nat, now + i - last < cooldownMs + 1 → gap (now + i) last = now + i - last
  left : gap cooldownMs (now - last) = cooldownMs - (now - last)

theorem unrounded_sub (cooldownMs : Int) (now last : Rat) :
    Unrounded (· - ·) cooldownMs now last :=
  ⟨rfl, fun _ _ => rfl, rfl⟩

theorem isReading_fine {i : Int} (h : i.natAbs ≤ 2 ^ 53) : IsReading (i / 1024) :=
  Binary64.snap_fine h

theorem elapsed_fine {i j : Int} (hi : i.natAbs ≤ 2 ^ 53) (hj : j.natAbs ≤ 2 ^ 53)
    (h : (i - j).natAbs ≤ 2 ^ 53) : elapsed (i / 1024) (j / 1024) = i / 1024 - j / 1024 := by
  rw [elapsed_of_isReading (isReading_fine hi) (isReading_fine hj), ← sub_div, ← Int.cast_sub]
  exact isReading_fine h

/-- On such a clock nothing is rounded for more than a century. -/
theorem unrounded_elapsed {i j : Int} (hC : 0 ≤ cooldownMs) (hC' : cooldownMs < 2 ^ 40)
    (hj : 0 ≤ j) (hle : j ≤ i) (hi : i < 2 ^ 52) :
    Unrounded elapsed cooldownMs (i / 1024) (j / 1024) := by
  constructor
  · apply elapsed_fine <;> omega
  · intro n hn
    have hsum : (i : Rat) / 1024 + n = ((i + 1024 * n : Int) : Rat) / 1024 := by
      push_cast
      ring
    have hsoon : i + 1024 * n - j < 1024 * (cooldownMs + 1) := by
      have hrat : (i : Rat) + 1024 * n - j < 1024 * (cooldownMs + 1) := by linarith
      exact_mod_cast hrat
    rw [hsum]
    apply elapsed_fine <;> omega
  · have hcooldown : (cooldownMs : Rat) = ((1024 * cooldownMs : Int) : Rat) / 1024 := by
      push_cast
      ring
    have hgone : (i : Rat) / 1024 - j / 1024 = ((i - j : Int) : Rat) / 1024 := by
      push_cast
      ring
    rw [hcooldown, hgone]
    apply elapsed_fine <;> omega

/-! ### Waits that suffice -/

/-- Whoever asks again after the wait is allowed to run, and nobody who asks some whole milliseconds
earlier; and there is something to wait for. -/
structure WaitSuffices (ask : Rat → Decision) (now : Rat) : Prop where
  pos : 1 ≤ (ask now).retryAfterMs
  after : (ask (now + (ask now).retryAfterMs)).allowed = true
  before : ∀ i : Nat, (i : Int) < (ask now).retryAfterMs → (ask (now + i)).allowed = false

/-- Whoever asks from `now` on is refused until some time more has gone by, and then allowed. -/
def OpensAfter (ask : Rat → Decision) (now left : Rat) : Prop :=
  ∀ i : Nat, (i : Rat) < left + 1 → ((ask (now + i)).allowed = true ↔ left ≤ i)

/-- **A wait for the whole part of what is left** suffices just if nothing more is left. -/
theorem OpensAfter.waitSuffices_iff {ask : Rat → Decision} {left : Rat}
    (h : OpensAfter ask now left) (hleft : 0 < left) (hretry : (ask now).retryAfterMs = ⌊left⌋) :
    WaitSuffices ask now ↔ left.den = 1 := by
  obtain ⟨n, hn⟩ := Int.eq_ofNat_of_zero_le (Int.floor_nonneg.mpr hleft.le)
  have hfloor : (n : Rat) ≤ left := by
    have hle := Int.floor_le left
    rwa [hn, Int.cast_natCast] at hle
  rw [hn] at hretry
  constructor
  · intro hwait
    have hafter := hwait.after
    rw [hretry, Int.cast_natCast] at hafter
    -- the whole part is enough, so it is all that is left
    have hle : left ≤ n := (h n (by linarith)).mp hafter
    rw [le_antisymm hle hfloor]
    exact Rat.den_natCast n
  · intro hden
    have hwhole : (left.num : Rat) = left := (Rat.den_eq_one_iff left).mp hden
    have hexact : left = n := by
      rw [← hwhole, Int.floor_intCast] at hn
      rw [← hwhole, hn, Int.cast_natCast]
    refine ⟨?_, ?_, ?_⟩
    · rw [hretry]
      rw [hexact] at hleft
      exact_mod_cast hleft
    · rw [hretry, Int.cast_natCast]
      exact (h n (by linarith)).mpr hexact.le
    · intro i hi
      rw [hretry] at hi
      have hsoon : (i : Rat) < left := by
        rw [hexact]
        exact_mod_cast hi
      rw [← Bool.not_eq_true, h i (by linarith)]
      exact not_le.mpr hsoon

/-! ### The wait of a refusal -/

theorem truncate_eq_floor {q : Rat} (hq : 0 ≤ q) : truncate q = ⌊q⌋ := by
  have hnum : 0 ≤ q.num := Rat.num_nonneg.mpr hq
  rw [truncate, Int.tdiv_eq_ediv_of_nonneg hnum, Rat.floor_def']

theorem fire_of_denied (hC : 0 < cooldownMs) (hidle : ∀ e, d.known? k = some e → e.pending = none)
    (hdenied : (d.limiter.allow s k cooldownMs now).allowed = false) :
    ∃ e last, d.known? k = some e ∧ e.pending = none ∧ e.lastFire = some last := by
  change (decisionOn s (d.known? k) cooldownMs now).allowed = false at hdenied
  cases he : d.known? k with
  | none => simp [he, decisionOn] at hdenied
  | some e =>
    have hpending := hidle e he
    cases hlast : e.lastFire with
    | none => simp [he, decisionOn, not_le.mpr hC, hpending, hlast] at hdenied
    | some last => exact ⟨e, last, rfl, hpending, hlast⟩

section

variable (hC : 0 < cooldownMs) (he : d.known? k = some e) (hidle : e.pending = none)
  (hlast : e.lastFire = some last)

include hC he hidle hlast

theorem allow_idle (t : Rat) : d.limiter.allow s k cooldownMs t =
    if s.gap t last < cooldownMs then ⟨false, truncate (s.gap cooldownMs (s.gap t last))⟩
    else ⟨true, 0⟩ := by
  change decisionOn s (d.known? k) cooldownMs t = _
  rw [he, decisionOn_idle hC hidle hlast]

variable (hgap : Unrounded s.gap cooldownMs now last)

include hgap

/-- **Until the cooldown is over an idle key is refused**, and then it is allowed. -/
theorem opensAfter_left :
    OpensAfter (d.limiter.allow s k cooldownMs) now (cooldownMs - (now - last)) := by
  intro i hi
  rw [allow_idle hC he hidle hlast, hgap.since i (by linarith)]
  by_cases hsoon : now + i - last < cooldownMs
  · rw [if_pos hsoon]
    constructor
    · intro h
      cases h
    · intro h
      linarith
  · rw [if_neg hsoon]
    constructor
    · intro _
      linarith
    · intro _
      rfl

/-- **The wait is the whole part of what is left.** -/
theorem retry_of_denied (hdenied : (d.limiter.allow s k cooldownMs now).allowed = false) :
    0 < cooldownMs - (now - last) ∧
      (d.limiter.allow s k cooldownMs now).retryAfterMs = ⌊cooldownMs - (now - last)⌋ := by
  rw [allow_idle hC he hidle hlast, hgap.gone, hgap.left] at hdenied ⊢
  by_cases hsoon : now - last < cooldownMs
  · have hleft : 0 < cooldownMs - (now - last) := by linarith
    rw [if_pos hsoon]
    exact ⟨hleft, truncate_eq_floor hleft.le⟩
  · rw [if_neg hsoon] at hdenied
    cases hdenied

end

/-- **When the wait of a refusal suffices**: after any operations, an idle key that is refused has
fired, and the wait is the whole part of what is left of the cooldown.  It suffices just if nothing
more is left; in any case every smaller number of milliseconds than what is left is too short, and
the next number is long enough.  All that is assumed of the limiter is that it does not round the
differences of these times, which exact subtraction never does. -/
theorem wait_suffices_iff_whole (s : Settings) (ops : List Operation) (k : Key) (cooldownMs : Int)
    (now : Rat) (hC : 0 < cooldownMs)
    (hidle : ∀ e, (Desk.after s ops).known? k = some e → e.pending = none)
    (hgap : ∀ last, (Desk.after s ops).lastFire? k = some last →
      Unrounded s.gap cooldownMs now last)
    (hdenied : ((Desk.after s ops).limiter.allow s k cooldownMs now).allowed = false) :
    let l := (Desk.after s ops).limiter
    let allow := fun t => l.allow s k cooldownMs t
    let reserve := fun t => (l.reserve s k cooldownMs t).2.1
    ∃ last, (Desk.after s ops).lastFire? k = some last ∧
      let left : Rat := cooldownMs - (now - last)
      0 < left ∧ (allow now).retryAfterMs = ⌊left⌋ ∧
        (WaitSuffices allow now ↔ left.den = 1) ∧ (WaitSuffices reserve now ↔ left.den = 1) ∧
        ∀ i : Nat, ((i : Rat) < left → (allow (now + i)).allowed = false) ∧
          (left ≤ i → (i : Rat) < left + 1 → (allow (now + i)).allowed = true) := by
  intro l allow reserve
  obtain ⟨e, last, he, hpending, hlast⟩ := fire_of_denied hC hidle hdenied
  have hfire : (Desk.after s ops).lastFire? k = some last :=
    Option.bind_eq_some_iff.mpr ⟨e, he, hlast⟩
  obtain ⟨hleft, hretry⟩ := retry_of_denied hC he hpending hlast (hgap last hfire) hdenied
  have hopens := opensAfter_left hC he hpending hlast (hgap last hfire)
  have hwhole : WaitSuffices allow now ↔ (cooldownMs - (now - last) : Rat).den = 1 :=
    hopens.waitSuffices_iff hleft hretry
  have hsame : reserve = allow := funext fun _ => decision_reserve
  refine ⟨last, hfire, hleft, hretry, hwhole, ?_, fun i => ⟨fun hi => ?_, fun hle hi => ?_⟩⟩
  · rw [hsame]
    exact hwhole
  · rw [← Bool.not_eq_true]
    intro hallowed
    exact absurd ((hopens i (by linarith)).mp hallowed) (not_le.mpr hi)
  · exact (hopens i hi).mpr hle

/-- A run that is asked for half a millisecond after the last one, with floating-point times and
with exact ones. -/
theorem wait_suffices_iff_whole_half :
    let k : Key := ⟨text "u1", text "c1"⟩
    let ops : List Operation := [.commit k 0 1000]
    let exact : Settings := { gap := fun a b => a - b }
    ¬ WaitSuffices (fun t => (Desk.after {} ops).limiter.allow {} k 1000 t) (1 / 2) ∧
      ¬ WaitSuffices (fun t => (Desk.after exact ops).limiter.allow exact k 1000 t) (1 / 2) := by
  intro k ops exact
  have refute : ∀ s : Settings, (Desk.after s ops).known? k = some ⟨some 0, 1000, none, 0⟩ →
      ((Desk.after s ops).limiter.allow s k 1000 (1 / 2)).allowed = false →
      Unrounded s.gap 1000 (1 / 2) 0 →
      ¬ WaitSuffices (fun t => (Desk.after s ops).limiter.allow s k 1000 t) (1 / 2) := by
    intro s hknown hdenied hgap
    have hidle : ∀ e, (Desk.after s ops).known? k = some e → e.pending = none := by
      intro e he
      obtain rfl := Option.some.inj (he.symm.trans hknown)
      rfl
    have hfire : ∀ last, (Desk.after s ops).lastFire? k = some last → last = 0 := by
      intro last hlast
      simpa [Desk.lastFire?, hknown, eq_comm] using hlast
    obtain ⟨last, hlast, -, -, hwhole, -⟩ := wait_suffices_iff_whole s ops k 1000 (1 / 2)
      (by decide) hidle (fun last hlast => hfire last hlast ▸ hgap) hdenied
    obtain rfl := hfire last hlast
    rw [hwhole]
    decide +kernel
  constructor
  · have hhalf : (1 / 2 : Rat) = ((512 : Int) : Rat) / 1024 := by norm_num
    have hzero : (0 : Rat) = ((0 : Int) : Rat) / 1024 := by norm_num
    have hgap : Unrounded elapsed 1000 (1 / 2) 0 := by
      rw [hhalf, hzero]
      apply unrounded_elapsed <;> norm_num
    exact refute {} (by decide +kernel) (by decide +kernel) hgap
  · exact refute exact (by decide +kernel) (by decide +kernel) (unrounded_sub 1000 (1 / 2) 0)

/-- **A wait that is too short.**  Half a millisecond after a fire with a cooldown of a second the
wait is 999 ms, and half a millisecond of the cooldown is left after it; then the wait is none. -/
theorem wait_half_short :
    let k : Key := ⟨text "u", text "c"⟩
    let d := Desk.after {} [.commit k 0 1000]
    d.limiter.allow {} k 1000 (1 / 2) = ⟨false, 999⟩ ∧
      d.limiter.allow {} k 1000 (1 / 2 + 999) = ⟨false, 0⟩ := by
  decide +kernel

end ChatCommands.Cooldown
