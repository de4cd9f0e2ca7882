import ChatCommands.Proofs.Cooldown.Histories

/-!
What pruning changes.

An entry is stale by the cooldown with which its key was last used, but a decision is taken by the
cooldown that the command has now.  So pruning shows just when a cooldown has grown beyond the grace
of the old one.  Main statement: `prune_changes_decision_iff`.
-/

namespace ChatCommands.Cooldown

open Limiter

variable {s : Settings} {d : Desk} {k : Key} {cooldownMs : Int} {now t : Rat} {e : Entry}

theorem known?_prune (hnd : d.limiter.table.keys.Nodup) (now : Rat) (k : Key) :
    (d.perform s (.prune now)).known? k = (d.known? k).filter fun e => !isStale s now e :=
  Table.get?_filter hnd (fun e => !isStale s now e) k

/-- Pruning at `now` forgets a fire of the key that still counts at `t` for a command with this
cooldown. -/
def Lost (s : Settings) (d : Desk) (k : Key) (cooldownMs : Int) (now t : Rat) : Prop :=
  ∃ e last, d.known? k = some e ∧ isStale s now e = true ∧ e.lastFire = some last ∧
    s.gap t last < cooldownMs

theorem idle_of_isStale (h : isStale s now e = true) : e.pending = none := by
  unfold isStale Entry.isIdle at h
  rw [Bool.and_eq_true, Option.isNone_iff_eq_none] at h
  exact h.1

theorem grace_le_of_isStale (h : isStale s now e = true) :
    ((e.cooldownMs * s.graceWindows : Int) : Rat) ≤ s.gap now e.touched := by
  unfold isStale at h
  rw [Bool.and_eq_true, decide_eq_true_iff] at h
  exact h.2

/-- The decision about an idle key whose last fire is known. -/
theorem decisionOn_idle (hC : 0 < cooldownMs) (hidle : e.pending = none) {last : Rat}
    (hlast : e.lastFire = some last) :
    decisionOn s (some e) cooldownMs t =
      if s.gap t last < cooldownMs then ⟨false, truncate (s.gap cooldownMs (s.gap t last))⟩
      else ⟨true, 0⟩ := by
  simp [decisionOn, not_le.mpr hC, hidle, hlast]

/-- **A stale key is free** unless its last fire still counts. -/
theorem decisionOn_stale (hstale : isStale s now e = true)
    (hover : ∀ last, e.lastFire = some last → ¬ s.gap t last < cooldownMs) :
    decisionOn s (some e) cooldownMs t = ⟨true, 0⟩ := by
  have hidle := idle_of_isStale hstale
  by_cases hC : 0 < cooldownMs
  · cases hlast : e.lastFire with
    | none => simp [decisionOn, hidle, hlast]
    | some last => rw [decisionOn_idle hC hidle hlast, if_neg (hover last hlast)]
  · simp [decisionOn, not_lt.mp hC]

theorem allow_prune_of_not_lost (hnd : d.limiter.table.keys.Nodup)
    (h : ¬ Lost s d k cooldownMs now t) :
    (d.perform s (.prune now)).limiter.allow s k cooldownMs t = d.limiter.allow s k cooldownMs t := by
  change decisionOn s ((d.perform s (.prune now)).known? k) cooldownMs t =
    decisionOn s (d.known? k) cooldownMs t
  rw [known?_prune hnd]
  cases he : d.known? k with
  | none => rfl
  | some e =>
    rw [Option.filter_some]
    cases hstale : isStale s now e with
    | false => rfl
    | true =>
      rw [Bool.not_true, if_neg Bool.false_ne_true]
      refine (decisionOn_stale hstale fun last hlast hsoon => ?_).symm
      exact h ⟨e, last, he, hstale, hlast, hsoon⟩

/-- **A fire that is forgotten too early** is denied before and allowed after. -/
theorem decisions_of_lost (hnd : d.limiter.table.keys.Nodup) (hC : 0 < cooldownMs)
    (h : Lost s d k cooldownMs now t) :
    (d.limiter.allow s k cooldownMs t).allowed = false ∧
      (d.perform s (.prune now)).limiter.allow s k cooldownMs t = ⟨true, 0⟩ := by
  obtain ⟨e, last, he, hstale, hlast, hsoon⟩ := h
  constructor
  · change (decisionOn s (d.known? k) cooldownMs t).allowed = false
    rw [he, decisionOn_idle hC (idle_of_isStale hstale) hlast, if_pos hsoon]
  · change decisionOn s ((d.perform s (.prune now)).known? k) cooldownMs t = ⟨true, 0⟩
    rw [known?_prune hnd, he, Option.filter_some, hstale, Bool.not_true, if_neg Bool.false_ne_true]
    rfl

theorem allow_prune_ne_iff (hnd : d.limiter.table.keys.Nodup) (hC : 0 < cooldownMs) :
    (d.perform s (.prune now)).limiter.allow s k cooldownMs t ≠
        d.limiter.allow s k cooldownMs t ↔ Lost s d k cooldownMs now t := by
  constructor
  · intro hne
    by_contra hnot
    exact hne (allow_prune_of_not_lost hnd hnot)
  · intro hlost heq
    obtain ⟨hdenied, hallowed⟩ := decisions_of_lost hnd hC hlost
    rw [← heq, hallowed] at hdenied
    cases hdenied

/-- **Only a cooldown beyond the grace is lost**: the fire lies before the last touch, and from there
the grace has gone by. -/
theorem grace_lt_of_lost (hd : Regular IsReading d) (hgap : Orderly s.gap IsReading)
    (hnow : IsReading now) (ht : IsReading t) (hle : now ≤ t) (he : d.known? k = some e)
    (h : Lost s d k cooldownMs now t) : e.cooldownMs * s.graceWindows < cooldownMs := by
  obtain ⟨e', last, he', hstale, hlast, hsoon⟩ := h
  obtain rfl : e = e' := Option.some.inj (he.symm.trans he')
  obtain ⟨htouched, hfires⟩ := hd.timed k e he
  obtain ⟨hread, hbefore⟩ := hfires last hlast
  have hgrace : ((e.cooldownMs * s.graceWindows : Int) : Rat) < cooldownMs :=
    calc ((e.cooldownMs * s.graceWindows : Int) : Rat) ≤ s.gap now e.touched :=
          grace_le_of_isStale hstale
      _ ≤ s.gap t last := hgap hnow ht htouched hread hle hbefore
      _ < cooldownMs := hsoon
  exact_mod_cast hgrace

/-- **When pruning changes a decision**: after any operations, the answer to `allow` or `reserve`
differs from what it would be without the pruning just if the pruned entry of the key knew of a fire
that is younger than the cooldown asked for.  Then the run is allowed instead of denied; and it never
happens with a cooldown that is covered by the grace of the one that the key was last used with. -/
theorem prune_changes_decision_iff (maxEntries graceWindows : Int) (ops : List Operation) (k : Key)
    (cooldownMs : Int) (now t : Rat) (hC : 1 ≤ cooldownMs)
    (htimes : ∀ u ∈ ops.filterMap Operation.time?, IsReading u)
    (hnow : IsReading now) (ht : IsReading t) (hle : now ≤ t) :
    let s : Settings := { maxEntries, graceWindows }
    let d := Desk.after s ops
    let pruned := d.perform s (.prune now)
    (pruned.limiter.allow s k cooldownMs t ≠ d.limiter.allow s k cooldownMs t ↔
        Lost s d k cooldownMs now t) ∧
      ((pruned.limiter.reserve s k cooldownMs t).2.1 ≠ (d.limiter.reserve s k cooldownMs t).2.1 ↔
        Lost s d k cooldownMs now t) ∧
      (Lost s d k cooldownMs now t → (d.limiter.allow s k cooldownMs t).allowed = false ∧
        pruned.limiter.allow s k cooldownMs t = ⟨true, 0⟩) ∧
      ∀ e, d.known? k = some e → cooldownMs ≤ e.cooldownMs * graceWindows →
        ¬ Lost s d k cooldownMs now t := by
  intro s d pruned
  have hC : 0 < cooldownMs := hC
  have hd : Regular IsReading d := regular_after elapsed_forward htimes
  refine ⟨allow_prune_ne_iff hd.nodup hC, ?_, decisions_of_lost hd.nodup hC, ?_⟩
  · rw [decision_reserve, decision_reserve]
    exact allow_prune_ne_iff hd.nodup hC
  · intro e he hcovered hlost
    have hbeyond : e.cooldownMs * graceWindows < cooldownMs :=
      grace_lt_of_lost (s := s) hd elapsed_orderly hnow ht hle he hlost
    exact absurd hcovered (not_le.mpr hbeyond)

/-- A run with a cooldown of a second, pruned after three, is asked for again with a cooldown of a
minute. -/
theorem prune_changes_decision_iff_raised :
    let k : Key := ⟨text "u1", text "c1"⟩
    let ops : List Operation := [.reserve k 1000 0, .settle 0]
    let s : Settings := { maxEntries := 10, graceWindows := 3 }
    (1 : Int) ≤ 60000 ∧ (∀ u ∈ ops.filterMap Operation.time?, IsReading u) ∧ IsReading 3000 ∧
      IsReading 3500 ∧ (3000 : Rat) ≤ 3500 ∧ Lost s (Desk.after s ops) k 60000 3000 3500 := by
  intro k ops s
  have hC : (1 : Int) ≤ 60000 := by decide
  have htimes : ∀ u ∈ ops.filterMap Operation.time?, IsReading u := by decide +kernel
  have hnow : IsReading 3000 := by decide +kernel
  have ht : IsReading 3500 := by decide +kernel
  have hle : (3000 : Rat) ≤ 3500 := by norm_num
  refine ⟨hC, htimes, hnow, ht, hle, ?_⟩
  apply (prune_changes_decision_iff 10 3 ops k 60000 3000 3500 hC htimes hnow ht hle).1.mp
  decide +kernel

/-- **Pruning that loses a fire.**  A command fires with a cooldown of a millisecond; three
milliseconds later its entry is pruned and its cooldown is a minute: it may run again at once. -/
theorem prune_forgets_raised_cooldown :
    let k : Key := ⟨text "u", text "c"⟩
    let s : Settings := {}
    let d := Desk.after s [.reserve k 1 0, .settle 0]
    d.limiter.allow s k 60000 3 = ⟨false, 59997⟩ ∧
      (d.perform s (.prune 3)).limiter.allow s k 60000 3 = ⟨true, 0⟩ := by
  decide +kernel

end ChatCommands.Cooldown
