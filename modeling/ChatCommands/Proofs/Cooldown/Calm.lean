import ChatCommands.Proofs.Cooldown.Operations

/-!
A limiter with nothing in flight, and what becomes of it when a run is reserved and the reservation
is settled at once.

Here room may have to be made, so that the entries of other keys can go; but none is changed.  A
reservation that is released leaves the last fire of every key that is still known as it was, and
where no room had to be made it leaves every key known.
-/

namespace ChatCommands.Cooldown

namespace Table

variable {t t' : Table} {k k' : Key} {e e' : Entry} {maxEntries : Int}

theorem get?_eq_some_iff (hnd : t.keys.Nodup) : t.get? k = some e ↔ (k, e) ∈ t := by
  induction t with
  | nil => simp
  | cons p t ih =>
    rw [keys_cons, List.nodup_cons] at hnd
    rw [get?_cons, List.mem_cons]
    split
    case isTrue hp =>
      have hnot : (k, e) ∉ t := fun hmem => hnd.1 (hp ▸ List.mem_map_of_mem (f := (·.1)) hmem)
      simp only [hnot, or_false, Option.some.injEq]
      constructor
      · rintro rfl
        rw [← hp]
      · exact fun heq => (congrArg Prod.snd heq).symm
    case isFalse hp =>
      rw [ih hnd.2]
      refine ⟨.inr, fun h => h.resolve_left fun heq => hp ?_⟩
      exact (congrArg Prod.fst heq).symm

theorem get?_of_sublist (hnd : t.keys.Nodup) (hsub : t'.Sublist t) (h : t'.get? k = some e) :
    t.get? k = some e := by
  have hnd' : t'.keys.Nodup := hnd.sublist (hsub.map _)
  rw [get?_eq_some_iff hnd'] at h
  rw [get?_eq_some_iff hnd]
  exact hsub.subset h

/-! ### Making room -/

theorem dropIdle_sublist (keep : Key) (excess : Nat) (t : Table) :
    (dropIdle keep excess t).Sublist t := by
  induction t generalizing excess with
  | nil => cases excess <;> exact List.Sublist.refl _
  | cons p t ih =>
    cases excess with
    | zero => exact List.Sublist.refl _
    | succ excess =>
      unfold dropIdle
      split
      · exact (ih excess).cons p
      · exact (ih (excess + 1)).cons_cons p

theorem get?_dropIdle (keep : Key) (excess : Nat) (t : Table) :
    (dropIdle keep excess t).get? keep = t.get? keep := by
  induction t generalizing excess with
  | nil => cases excess <;> rfl
  | cons p t ih =>
    cases excess with
    | zero => rfl
    | succ excess =>
      unfold dropIdle
      split
      · rename_i hdrop
        have hne : p.1 ≠ keep := by simpa using (Bool.and_eq_true_iff.mp hdrop).2
        rw [ih, get?_cons, if_neg hne]
      · rw [get?_cons, get?_cons, ih]

theorem nodup_append_singleton (hnd : t.keys.Nodup) (hk : t.get? k = none) :
    (keys (t ++ [(k, e)])).Nodup := by
  have hkeys : keys (t ++ [(k, e)]) = t.keys ++ [k] := List.map_append
  rw [hkeys]
  refine hnd.append (List.nodup_singleton k) fun x hx hx' => ?_
  rw [List.mem_singleton] at hx'
  exact get?_eq_none.mp hk (hx' ▸ hx)

theorem nodup_erase (hnd : t.keys.Nodup) (k : Key) : (t.erase k).keys.Nodup :=
  hnd.sublist (keys_filter_sublist t _)

theorem nodup_set (hnd : t.keys.Nodup) (k : Key) (e : Entry) : (t.set k e).keys.Nodup := by
  rwa [keys_set]

theorem nodup_touch (hnd : t.keys.Nodup) : (t.touch maxEntries k e).keys.Nodup := by
  unfold touch
  split
  · exact nodup_append_singleton (nodup_erase hnd k) (get?_erase_self t k)
  · rename_i hk
    exact (nodup_append_singleton hnd hk).sublist ((dropIdle_sublist _ _ _).map _)

theorem get?_touch_self : (t.touch maxEntries k e).get? k = some e := by
  unfold touch
  split
  · rw [get?_append_singleton (get?_erase_self t k), if_pos rfl]
  · rename_i hk
    rw [insert, get?_dropIdle, get?_append_singleton hk, if_pos rfl]

/-- **Touching a key changes no other.** -/
theorem get?_of_touch (hnd : t.keys.Nodup) (hne : k' ≠ k)
    (h : (t.touch maxEntries k e).get? k' = some e') : t.get? k' = some e' := by
  unfold touch at h
  split at h
  · rw [get?_append_singleton (get?_erase_self t k), if_neg hne, get?_erase, if_neg hne] at h
    exact h
  · rename_i hk
    have hmore := get?_of_sublist (nodup_append_singleton hnd hk) (dropIdle_sublist _ _ _) h
    rwa [get?_append_singleton hk, if_neg hne] at hmore

/-- **A table below its bound forgets no key.** -/
theorem get?_touch_of_room (hroom : (t.length : Int) < maxEntries) (hne : k' ≠ k) :
    (t.touch maxEntries k e).get? k' = t.get? k' := by
  unfold touch
  split
  · rw [get?_append_singleton (get?_erase_self t k), if_neg hne, get?_erase, if_neg hne]
  · rename_i hk
    have hexcess : ((t.length + 1 : Int) - maxEntries).toNat = 0 := by omega
    rw [insert, hexcess, dropIdle, get?_append_singleton hk, if_neg hne]

end Table

namespace Limiter

variable {s : Settings} {l l' : Limiter} {k : Key} {cooldownMs : Int} {now : Rat} {r : Reservation}
  {d : Decision}

/-- Nothing is in flight, and every key is known for a fire. -/
structure Calm (l : Limiter) : Prop where
  nodup : l.table.keys.Nodup
  idle : ∀ k e, l.table.get? k = some e → e.pending = none
  fired : ∀ k e, l.table.get? k = some e → e.lastFire.isSome

/-- No fire has come or gone from `l` to `l'`: the last fire of a key that is still known is what it
was, and no key is forgotten by a table below its bound. -/
structure Unfired (maxEntries : Int) (l l' : Limiter) : Prop where
  lastFire : ∀ k e', l'.table.get? k = some e' →
    ∃ e, l.table.get? k = some e ∧ e.lastFire = e'.lastFire
  known : (l.table.length : Int) < maxEntries → ∀ k e, l.table.get? k = some e →
    (l'.table.get? k).isSome

theorem Unfired.refl (maxEntries : Int) (l : Limiter) : Unfired maxEntries l l :=
  ⟨fun _ e' h => ⟨e', h, rfl⟩, fun _ _ _ h => h ▸ rfl⟩

theorem calm_new : Calm {} where
  nodup := List.nodup_nil
  idle := nofun
  fired := nofun

/-- Only the table counts. -/
theorem Calm.of_table_eq (h : l.Calm) (htable : l'.table = l.table) : l'.Calm :=
  ⟨htable ▸ h.nodup, htable ▸ h.idle, htable ▸ h.fired⟩

/-- A reservation that is not in flight is given back: nothing happens. -/
theorem Calm.release_eq (h : l.Calm) (r : Reservation) : l.release r = l := by
  cases he : l.table.get? r.key with
  | none => exact release_of_get?_eq_none he
  | some e => exact release_of_not_pending he (by simp [h.idle r.key e he])

theorem Calm.prune (h : l.Calm) (s : Settings) (now : Rat) : (l.prune s now).Calm := by
  have hget : ∀ k e, (l.prune s now).table.get? k = some e → l.table.get? k = some e := by
    intro k e he
    have heq := Table.get?_filter h.nodup (fun e => !isStale s now e) k
    exact (Option.filter_eq_some_iff.mp (heq.symm.trans he)).1
  exact ⟨h.nodup.sublist (Table.keys_filter_sublist _ _), fun k e he => h.idle k e (hget k e he),
    fun k e he => h.fired k e (hget k e he)⟩

/-! ### A reservation that is refused -/

/-- **A calm limiter refuses a run only for a fire**, and the limiter stays as it is. -/
theorem Calm.denied (h : l.Calm) (hr : l.reserve s k cooldownMs now = (l', d, none)) :
    l' = l ∧ ∃ e last, l.table.get? k = some e ∧ e.lastFire = some last ∧
      s.gap now last < cooldownMs ∧ d.retryAfterMs = truncate (s.gap cooldownMs (s.gap now last)) := by
  have hC : 0 < cooldownMs := by
    by_contra hfree
    rw [reserve_of_nonpos (Int.not_lt.mp hfree)] at hr
    cases hr
  cases hallowed : (decisionOn s (l.table.get? k) cooldownMs now).allowed with
  | true =>
    rw [reserve_of_allowed hC hallowed] at hr
    cases hr
  | false =>
    rw [reserve_of_denied hC hallowed] at hr
    obtain ⟨rfl, hd⟩ : l = l' ∧ decisionOn s (l.table.get? k) cooldownMs now = d := by
      simpa using hr
    refine ⟨rfl, ?_⟩
    cases he : l.table.get? k with
    | none => simp [he, decisionOn] at hallowed
    | some e =>
      obtain ⟨last, hlast⟩ := Option.isSome_iff_exists.mp (h.fired k e he)
      have hdecision : decisionOn s (some e) cooldownMs now = if s.gap now last < cooldownMs then
          ⟨false, truncate (s.gap cooldownMs (s.gap now last))⟩ else ⟨true, 0⟩ := by
        simp [decisionOn, Int.not_le.mpr hC, h.idle k e he, hlast]
      rw [he, hdecision] at hallowed hd
      by_cases hgap : s.gap now last < cooldownMs
      · rw [if_pos hgap] at hd
        exact ⟨e, last, rfl, hlast, hgap, hd ▸ rfl⟩
      · simp [if_neg hgap] at hallowed

/-! ### A reservation that is granted -/

theorem reserve_granted (hr : l.reserve s k cooldownMs now = (l', d, some r)) :
    r.key = k ∧ r.issued = now ∧ r.id = l.granted ∧ l'.granted = l.granted + 1 ∧
      (cooldownMs ≤ 0 ∧ r.cooldownMs = 0 ∧ l'.table = l.table ∨
        0 < cooldownMs ∧ r.cooldownMs = cooldownMs ∧
          l'.table = l.table.touch s.maxEntries k (l.grantedEntry k cooldownMs now)) := by
  by_cases hC : cooldownMs ≤ 0
  · rw [reserve_of_nonpos hC] at hr
    cases hr
    exact ⟨rfl, rfl, rfl, rfl, .inl ⟨hC, rfl, rfl⟩⟩
  · have hC : 0 < cooldownMs := Int.not_le.mp hC
    cases hallowed : (decisionOn s (l.table.get? k) cooldownMs now).allowed with
    | true =>
      rw [reserve_of_allowed hC hallowed] at hr
      cases hr
      exact ⟨rfl, rfl, rfl, rfl, .inr ⟨hC, rfl, rfl⟩⟩
    | false =>
      rw [reserve_of_denied hC hallowed] at hr
      cases hr

/-- **A reservation that is released leaves no trace.** -/
theorem Calm.reserve_release (h : l.Calm)
    (hr : l.reserve s k cooldownMs now = (l', d, some r)) :
    (l'.release r).Calm ∧ Unfired s.maxEntries l (l'.release r) := by
  obtain ⟨rfl, -, hid, -, ⟨-, -, htable⟩ | ⟨-, -, htable⟩⟩ := reserve_granted hr
  · have hcalm : l'.Calm := h.of_table_eq htable
    rw [hcalm.release_eq]
    exact ⟨hcalm, fun k e' he => ⟨e', htable ▸ he, rfl⟩, fun _ k e he => by rw [htable, he]; rfl⟩
  · have hself : l'.table.get? r.key = some (l.grantedEntry r.key cooldownMs now) := by
      rw [htable, Table.get?_touch_self]
    have hpending : (l.grantedEntry r.key cooldownMs now).pending = some r.id := by
      rw [hid]
      rfl
    have hrelease := get?_release_of_pending hself hpending
    have hnd : l'.table.keys.Nodup := htable ▸ Table.nodup_touch h.nodup
    have hother : ∀ k e, k ≠ r.key → (l'.release r).table.get? k = some e →
        l.table.get? k = some e := by
      intro k e hne he
      rw [get?_release_of_ne hne, htable] at he
      exact Table.get?_of_touch h.nodup hne he
    -- the key itself is known after the release just if it was before
    have hsame : ∀ e, (l'.release r).table.get? r.key = some e → e.pending = none ∧
        ∃ e', l.table.get? r.key = some e' ∧ e'.lastFire = e.lastFire := by
      intro e he
      rw [hrelease] at he
      split at he
      · rename_i hfire
        cases he
        cases hbefore : l.table.get? r.key with
        | none => simp [grantedEntry, hbefore] at hfire
        | some e' => exact ⟨rfl, e', rfl, by simp [grantedEntry, hbefore]⟩
      · cases he
    have hlast : ∀ k e, (l'.release r).table.get? k = some e → e.pending = none ∧
        ∃ e', l.table.get? k = some e' ∧ e'.lastFire = e.lastFire := by
      intro k e he
      by_cases hne : k = r.key
      · subst hne
        exact hsame e he
      · exact ⟨h.idle k e (hother k e hne he), e, hother k e hne he, rfl⟩
    refine ⟨⟨?_, fun k e he => (hlast k e he).1, fun k e he => ?_⟩,
      fun k e he => (hlast k e he).2, fun hroom k e he => ?_⟩
    · unfold release
      rw [hself]
      simp only [hpending, if_true]
      split
      · exact Table.nodup_erase hnd _
      · exact Table.nodup_set hnd _ _
    · obtain ⟨e', he', hfire⟩ := (hlast k e he).2
      exact hfire ▸ h.fired k e' he'
    · by_cases hne : k = r.key
      · subst hne
        rw [hrelease, if_pos (by simpa [grantedEntry, he] using h.fired _ e he)]
        rfl
      · rw [get?_release_of_ne hne, htable, Table.get?_touch_of_room hroom hne, he]
        rfl

/-- A reservation that is committed at once makes an entry for its fire. -/
theorem get?_reserve_commit (hC : 0 < cooldownMs)
    (hr : l.reserve s k cooldownMs now = (l', d, some r)) :
    (l'.commitReservation s r).table.get? k = some (firedEntry r) := by
  obtain ⟨rfl, -, hid, -, ⟨hfree, -, -⟩ | ⟨-, hpaid, htable⟩⟩ := reserve_granted hr
  · omega
  · have hself : l'.table.get? r.key = some (l.grantedEntry r.key cooldownMs now) := by
      rw [htable, Table.get?_touch_self]
    have hpending : (l.grantedEntry r.key cooldownMs now).pending = some r.id := by
      rw [hid]
      rfl
    exact get?_commitReservation_of_pending (hpaid ▸ hC) hself hpending

/-- **A reservation that is committed is the last fire of its key**, and no other key has another
one than before. -/
theorem Calm.reserve_commit (h : l.Calm)
    (hr : l.reserve s k cooldownMs now = (l', d, some r)) :
    (l'.commitReservation s r).Calm ∧
      ∀ k' e, (l'.commitReservation s r).table.get? k' = some e →
        k' = k ∧ e.lastFire = some r.issued ∨ l.table.get? k' = some e := by
  obtain ⟨rfl, -, hid, -, ⟨-, hfree, htable⟩ | ⟨hC, hpaid, htable⟩⟩ := reserve_granted hr
  · rw [commitReservation_of_nonpos (by omega)]
    exact ⟨h.of_table_eq htable, fun k' e he => .inr (htable ▸ he)⟩
  · have hself : l'.table.get? r.key = some (l.grantedEntry r.key cooldownMs now) := by
      rw [htable, Table.get?_touch_self]
    have hpending : (l.grantedEntry r.key cooldownMs now).pending = some r.id := by
      rw [hid]
      rfl
    have hcommit := commitReservation_of_pending (s := s) (hpaid ▸ hC) hself hpending
    have hnd : l'.table.keys.Nodup := htable ▸ Table.nodup_touch h.nodup
    have hget : ∀ k' e, (l'.commitReservation s r).table.get? k' = some e →
        k' = r.key ∧ e = firedEntry r ∨ l.table.get? k' = some e := by
      intro k' e he
      rw [hcommit, Table.get?_set] at he
      by_cases hne : k' = r.key
      · rw [if_pos hne, hself] at he
        cases he
        exact .inl ⟨hne, rfl⟩
      · rw [if_neg hne, htable] at he
        exact .inr (Table.get?_of_touch h.nodup hne he)
    refine ⟨⟨?_, fun k' e he => ?_, fun k' e he => ?_⟩, fun k' e he => ?_⟩
    · rw [hcommit]
      exact Table.nodup_set hnd _ _
    · obtain ⟨-, rfl⟩ | hbefore := hget k' e he
      · rfl
      · exact h.idle k' e hbefore
    · obtain ⟨-, rfl⟩ | hbefore := hget k' e he
      · rfl
      · exact h.fired k' e hbefore
    · exact (hget k' e he).imp_left fun ⟨hk, heq⟩ => ⟨hk, heq ▸ rfl⟩

end Limiter

end ChatCommands.Cooldown
