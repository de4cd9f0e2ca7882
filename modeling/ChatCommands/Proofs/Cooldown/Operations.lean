import ChatCommands.Cooldown.Limiter
import ChatCommands.Proofs.Cooldown.Table

/-!
What each operation of a limiter does to the entry of a key, as long as no room has to be made.
-/

namespace ChatCommands.Cooldown.Limiter

variable {s : Settings} {l : Limiter} {k : Key} {cooldownMs : Int} {now : Rat} {r : Reservation}
  {used : List Key}

/-! ### Reserving -/

theorem reserve_of_nonpos (hC : cooldownMs ≤ 0) :
    l.reserve s k cooldownMs now =
      ({ l with granted := l.granted + 1 }, ⟨true, 0⟩, some ⟨k, 0, now, l.granted⟩) :=
  if_pos hC

/-- The entry of a key for which a run is granted. -/
def grantedEntry (l : Limiter) (k : Key) (cooldownMs : Int) (now : Rat) : Entry :=
  { (l.table.get? k).getD {} with pending := some l.granted, cooldownMs, touched := now }

theorem reserve_of_allowed (hC : 0 < cooldownMs)
    (h : (decisionOn s (l.table.get? k) cooldownMs now).allowed = true) :
    l.reserve s k cooldownMs now =
      (⟨l.table.touch s.maxEntries k (l.grantedEntry k cooldownMs now), l.granted + 1⟩,
        decisionOn s (l.table.get? k) cooldownMs now, some ⟨k, cooldownMs, now, l.granted⟩) := by
  unfold reserve
  rw [if_neg (Int.not_le.mpr hC)]
  simp only [h, if_true]
  rfl

theorem reserve_of_denied (hC : 0 < cooldownMs)
    (h : (decisionOn s (l.table.get? k) cooldownMs now).allowed = false) :
    l.reserve s k cooldownMs now = (l, decisionOn s (l.table.get? k) cooldownMs now, none) := by
  unfold reserve
  rw [if_neg (Int.not_le.mpr hC)]
  simp [h]

/-- A run is allowed if and only if it is reserved. -/
theorem reserve_allowed :
    (l.reserve s k cooldownMs now).2.1.allowed = (l.reserve s k cooldownMs now).2.2.isSome := by
  by_cases hC : cooldownMs ≤ 0
  · rw [reserve_of_nonpos hC]
    rfl
  · have hpaid := Int.not_le.mp hC
    cases h : (decisionOn s (l.table.get? k) cooldownMs now).allowed with
    | true =>
      rw [reserve_of_allowed hpaid h]
      exact h
    | false =>
      rw [reserve_of_denied hpaid h]
      exact h

/-! ### Committing -/

/-- The entry of a key after a fire. -/
def firedEntry (r : Reservation) : Entry := ⟨some r.issued, r.cooldownMs, none, r.issued⟩

theorem commitReservation_of_nonpos (hC : r.cooldownMs ≤ 0) : l.commitReservation s r = l :=
  if_pos hC

theorem commitReservation_of_pending (hC : 0 < r.cooldownMs) {e : Entry}
    (he : l.table.get? r.key = some e) (hin : e.pending = some r.id) :
    l.commitReservation s r = { l with table := l.table.set r.key (firedEntry r) } := by
  unfold commitReservation
  rw [if_neg (Int.not_le.mpr hC), he]
  simp [hin, firedEntry]

theorem get?_commitReservation_of_pending (hC : 0 < r.cooldownMs) {e : Entry}
    (he : l.table.get? r.key = some e) (hin : e.pending = some r.id) :
    (l.commitReservation s r).table.get? r.key = some (firedEntry r) := by
  rw [commitReservation_of_pending hC he hin]
  simp [Table.get?_set, he]

theorem within_commitReservation (h : l.table.Within used)
    (hk : 0 < r.cooldownMs → r.key ∈ used) (hfits : (used.dedup.length : Int) ≤ s.maxEntries) :
    (l.commitReservation s r).table.Within used := by
  unfold commitReservation
  by_cases hC : r.cooldownMs ≤ 0
  · rwa [if_pos hC]
  · rw [if_neg hC]
    simp only []
    split
    case h_1 hnew =>
      rw [h.insert_eq (hk (Int.not_le.mp hC)) hnew hfits]
      exact h.append_singleton (hk (Int.not_le.mp hC)) (Table.get?_eq_none.mp hnew) _
    case h_2 =>
      split
      · exact h
      · exact h.set _ _

theorem get?_commitReservation_of_ne (h : l.table.Within used)
    (hk : 0 < r.cooldownMs → r.key ∈ used) (hfits : (used.dedup.length : Int) ≤ s.maxEntries)
    {k : Key} (hne : k ≠ r.key) :
    (l.commitReservation s r).table.get? k = l.table.get? k := by
  unfold commitReservation
  by_cases hC : r.cooldownMs ≤ 0
  · rw [if_pos hC]
  · rw [if_neg hC]
    simp only []
    split
    case h_1 hnew =>
      rw [h.insert_eq (hk (Int.not_le.mp hC)) hnew hfits, Table.get?_append_singleton hnew, if_neg hne]
    case h_2 =>
      split
      · rfl
      · rw [Table.get?_set, if_neg hne]

theorem granted_commitReservation : (l.commitReservation s r).granted = l.granted := by
  unfold commitReservation
  by_cases hC : r.cooldownMs ≤ 0
  · rw [if_pos hC]
  · rw [if_neg hC]
    simp only []
    split
    · rfl
    · split <;> rfl

/-! ### Releasing -/

theorem release_of_get?_eq_none (h : l.table.get? r.key = none) : l.release r = l := by
  unfold release
  rw [h]

theorem release_of_not_pending {e : Entry} (he : l.table.get? r.key = some e)
    (h : e.pending ≠ some r.id) : l.release r = l := by
  unfold release
  rw [he]
  exact if_neg h

theorem within_release (h : l.table.Within used) : (l.release r).table.Within used := by
  unfold release
  split
  · exact h
  · split
    · split
      · exact h.erase _
      · exact h.set _ _
    · exact h

theorem get?_release_of_ne {k : Key} (hne : k ≠ r.key) :
    (l.release r).table.get? k = l.table.get? k := by
  unfold release
  split
  · rfl
  · split
    · split
      · rw [Table.get?_erase, if_neg hne]
      · rw [Table.get?_set, if_neg hne]
    · rfl

theorem get?_release_of_pending {e : Entry} (he : l.table.get? r.key = some e)
    (hin : e.pending = some r.id) :
    (l.release r).table.get? r.key =
      if e.lastFire.isSome then some { e with pending := none } else none := by
  unfold release
  simp only [he, hin, if_true]
  cases e.lastFire with
  | none => simp [Table.get?_erase]
  | some t => simp [Table.get?_set, he]

theorem granted_release : (l.release r).granted = l.granted := by
  unfold release
  split
  · rfl
  · split
    · split <;> rfl
    · rfl

/-! ### Pruning -/

theorem get?_prune (h : l.table.Within used) (k : Key) :
    (l.prune s now).table.get? k = (l.table.get? k).filter fun e => !isStale s now e :=
  Table.get?_filter h.nodup (fun e => !isStale s now e) k

end ChatCommands.Cooldown.Limiter
