import ChatCommands.Proofs.Cooldown.Overtaking

/-!
What an operation does to the table as a whole.

`Origin` follows one key; here is the order of all entries as well.  `Change` lists the tables that
an operation can leave, and `change_perform` shows that there are no others, so that what holds of
the table in every history is a matter of one case for each of them.
-/

namespace ChatCommands.Cooldown

namespace Table

variable {t : Table} {k : Key} {e e' : Entry} {maxEntries : Int}

theorem touch_of_known (h : t.get? k = some e) :
    t.touch maxEntries k e' = t.erase k ++ [(k, e')] := by
  unfold touch
  rw [h]

theorem touch_of_new (h : t.get? k = none) :
    t.touch maxEntries k e' = t.insert maxEntries k e' := by
  unfold touch
  rw [h]

/-! ### The entry of a key and the others -/

theorem erase_set (t : Table) (k : Key) (e : Entry) : (t.set k e).erase k = t.erase k := by
  induction t with
  | nil => rfl
  | cons p t ih =>
    unfold erase set at ih ⊢
    rw [List.map_cons, List.filter_cons, List.filter_cons, ih]
    by_cases hk : p.1 = k
    · simp [hk]
    · simp [hk]

theorem perm_erase (hnd : t.keys.Nodup) (h : t.get? k = some e) :
    t.Perm ((k, e) :: t.erase k) := by
  induction t with
  | nil => cases h
  | cons p t ih =>
    rw [keys_cons, List.nodup_cons] at hnd
    rw [get?_cons] at h
    by_cases hk : p.1 = k
    · rw [if_pos hk] at h
      obtain rfl : p.2 = e := Option.some.inj h
      have hrest : get? t k = none := get?_eq_none.mpr (hk ▸ hnd.1)
      have herase : erase (p :: t) k = t := by
        rw [erase, List.filter_cons_of_neg (by simp [hk])]
        exact erase_of_get?_eq_none hrest
      rw [herase, ← hk]
    · rw [if_neg hk] at h
      have herase : erase (p :: t) k = p :: erase t k := by
        rw [erase, List.filter_cons_of_pos (by simp [hk])]
        rfl
      rw [herase]
      exact ((ih hnd.2 h).cons p).trans (List.Perm.swap _ _ _)

theorem perm_set (hnd : t.keys.Nodup) (h : t.get? k = some e) :
    (t.set k e').Perm ((k, e') :: t.erase k) := by
  have hset : (t.set k e').get? k = some e' := by
    rw [get?_set, if_pos rfl, h]
    rfl
  have hperm := perm_erase (nodup_set hnd k e') hset
  rwa [erase_set] at hperm

end Table

open Limiter

variable {s : Settings} {d : Desk} {k : Key} {op : Operation} {e e' : Entry} {n : Nat}

/-- The tables that an operation can leave. -/
inductive Change (s : Settings) (d : Desk) : Operation → Table → Prop
  | same {op : Operation} : Change s d op d.limiter.table
  | fired {k now cooldownMs} : Change s d (.commit k now cooldownMs)
    (d.limiter.table.touch s.maxEntries k ⟨some now, cooldownMs, none, now⟩)
  | reserved {k cooldownMs now} (hC : 0 < cooldownMs)
    (hallowed : (d.limiter.allow s k cooldownMs now).allowed = true) :
    Change s d (.reserve k cooldownMs now)
      (d.limiter.table.touch s.maxEntries k (d.limiter.grantedEntry k cooldownMs now))
  | settled {n : Nat} {r e} (hr : d.tickets[n]? = some r) (hC : 0 < r.cooldownMs)
    (he : d.known? r.key = some e) (hfree : e.pending = none ∨ e.pending = some r.id) :
    Change s d (.settle n) (d.limiter.table.set r.key (firedEntry r))
  | settledLate {n : Nat} {r} (hr : d.tickets[n]? = some r) (hC : 0 < r.cooldownMs)
    (hnew : d.known? r.key = none) :
    Change s d (.settle n) (d.limiter.table.insert s.maxEntries r.key (firedEntry r))
  | released {n : Nat} {r e} (hr : d.tickets[n]? = some r) (he : d.known? r.key = some e)
    (hpending : e.pending = some r.id) (hfire : e.lastFire.isSome) :
    Change s d (.release n) (d.limiter.table.set r.key { e with pending := none })
  | dropped {n : Nat} {r e} (hr : d.tickets[n]? = some r) (he : d.known? r.key = some e)
    (hpending : e.pending = some r.id) :
    Change s d (.release n) (d.limiter.table.erase r.key)
  | pruned {now} : Change s d (.prune now)
    (d.limiter.table.filter fun p => !isStale s now p.2)
  | cleared : Change s d .clear []

theorem change_reserve {cooldownMs : Int} {now : Rat} : Change s d (.reserve k cooldownMs now)
    (d.perform s (.reserve k cooldownMs now)).limiter.table := by
  obtain ⟨l', dec, r, hr⟩ : ∃ l' dec r, d.limiter.reserve s k cooldownMs now = (l', dec, r) :=
    ⟨_, _, _, rfl⟩
  simp only [Desk.perform, hr]
  cases r with
  | none =>
    rw [reserve_refused hr]
    exact .same
  | some r =>
    have hallowed := allowed_of_reserve hr
    obtain ⟨-, -, -, -, ⟨-, -, htable⟩ | ⟨hC, -, htable⟩⟩ := reserve_granted hr
    · rw [htable]
      exact .same
    · rw [htable]
      exact .reserved hC hallowed

theorem change_settle {r : Reservation} (hr : d.tickets[n]? = some r) :
    Change s d (.settle n) (d.limiter.commitReservation s r).table := by
  by_cases hC : r.cooldownMs ≤ 0
  · rw [commitReservation_of_nonpos hC]
    exact .same
  unfold commitReservation
  rw [if_neg hC]
  cases he : d.limiter.table.get? r.key with
  | none => exact .settledLate hr (not_le.mp hC) he
  | some e =>
    simp only []
    split
    · exact .same
    · rename_i hfree
      refine .settled hr (not_le.mp hC) he ?_
      cases hpending : e.pending with
      | none => exact .inl rfl
      | some n => simpa [hpending] using hfree

theorem change_release {r : Reservation} (hr : d.tickets[n]? = some r) :
    Change s d (.release n) (d.limiter.release r).table := by
  unfold release
  cases he : d.limiter.table.get? r.key with
  | none => exact .same
  | some e =>
    simp only []
    split
    · rename_i hpending
      split
      · exact .dropped hr he hpending
      · rename_i last hfire
        exact .released hr he hpending (by rw [hfire]; rfl)
    · exact .same

/-- **Every operation makes one of the changes.** -/
theorem change_perform (s : Settings) (d : Desk) (op : Operation) :
    Change s d op (d.perform s op).limiter.table := by
  cases op with
  | allow k cooldownMs now => exact .same
  | commit k now cooldownMs => exact .fired
  | reserve k cooldownMs now => exact change_reserve
  | settle n =>
    simp only [Desk.perform]
    split
    · rename_i r hr
      exact change_settle hr
    · exact .same
  | release n =>
    simp only [Desk.perform]
    split
    · rename_i r hr
      exact change_release hr
    · exact .same
  | prune now => exact .pruned
  | clear => exact .cleared

/-- **A key that comes to be tracked is inserted.** -/
theorem insert_of_tracked (hnd : d.limiter.table.keys.Nodup) (hnew : d.known? k = none)
    (htracked : ((d.perform s op).known? k).isSome) :
    ∃ e, (d.perform s op).limiter.table = d.limiter.table.insert s.maxEntries k e := by
  obtain ⟨e, he⟩ := Option.isSome_iff_exists.mp htracked
  have hnew' : d.limiter.table.get? k = none := hnew
  cases origin_of_perform hnd he with
  | kept he₀ => cases hnew.symm.trans he₀
  | fired => exact ⟨_, Table.touch_of_new hnew'⟩
  | reserved hC hallowed =>
    simp only [Desk.perform, reserve_of_allowed hC hallowed]
    exact ⟨_, Table.touch_of_new hnew'⟩
  | @settled n r hr hk hC hfree =>
    subst hk
    refine ⟨firedEntry r, ?_⟩
    simp only [Desk.perform, hr, commitReservation, if_neg (not_le.mpr hC), hnew']
    rfl
  | released hr hk he₀ => cases hnew.symm.trans he₀

end ChatCommands.Cooldown
