import ChatCommands.Proofs.Cooldown.Eviction

/-!
How many keys are tracked.

Room is made only when a key is added, and keys with a run in flight stay.  So right after that the
table is within its bound, except for those keys and the new one; but once several of them have been
settled, the table holds more idle keys than its bound allows, until the next key is added.  Main
statement: `bound_broken_iff_landed`.
-/

namespace ChatCommands.Cooldown

namespace Table

variable {t t' : Table} {k : Key} {e e' : Entry} {maxEntries : Int}

/-- How many runs are in flight. -/
def inFlight (t : Table) : Nat := t.countP fun p => p.2.pending.isSome

/-- No more keys are tracked than the bound, or than have a run in flight and one. -/
def WithinBound (maxEntries : Int) (t : Table) : Prop :=
  (t.length : Int) ≤ max maxEntries (t.inFlight + 1)

instance : Decidable (t.WithinBound maxEntries) := inferInstanceAs (Decidable (_ ≤ _))

/-- A key whose run was in flight stays tracked without it. -/
def Landed (t t' : Table) : Prop :=
  ∃ k e e', t.get? k = some e ∧ e.pending.isSome ∧ t'.get? k = some e' ∧ e'.pending = none

theorem withinBound_iff : t.WithinBound maxEntries ↔
    (t.length : Int) ≤ maxEntries ∨ t.length ≤ t.inFlight + 1 := by
  unfold WithinBound
  rw [le_max_iff]
  omega

theorem length_eq_inFlight_add_idle (t : Table) : t.length = t.inFlight + t.idle.length := by
  have hbusy : ∀ p : Key × Entry, (!p.2.isIdle) = p.2.pending.isSome := by
    intro p
    rw [Entry.isIdle, Option.not_isNone]
  have hsplit := List.length_eq_length_filter_add (l := t) fun p => p.2.isIdle
  rw [List.filter_congr fun p _ => hbusy p] at hsplit
  rw [inFlight, List.countP_eq_length_filter, Nat.add_comm]
  exact hsplit

theorem inFlight_of_perm (h : t.Perm ((k, e) :: t')) :
    t.inFlight = t'.inFlight + if e.pending.isSome then 1 else 0 := by
  unfold inFlight
  rw [h.countP_eq, List.countP_cons]

/-! ### Entries that go -/

theorem not_landed_of_sublist (hnd : t.keys.Nodup) (h : t'.Sublist t) : ¬ Landed t t' := by
  rintro ⟨k, e, e', he, hpending, he', hidle⟩
  have hsame : t.get? k = some e' := get?_of_sublist hnd h he'
  obtain rfl : e = e' := Option.some.inj (he.symm.trans hsame)
  rw [hidle] at hpending
  cases hpending

theorem WithinBound.sublist (h : t.WithinBound maxEntries) (hsub : t'.Sublist t) :
    t'.WithinBound maxEntries := by
  have hlen := hsub.length_le
  have hidle : t'.idle.length ≤ t.idle.length := (hsub.filter _).length_le
  have hsplit := length_eq_inFlight_add_idle t
  have hsplit' := length_eq_inFlight_add_idle t'
  rw [withinBound_iff] at h ⊢
  omega

/-! ### An entry that changes -/

theorem landed_iff_of_perm (hnd : t.keys.Nodup) (hnd' : t'.keys.Nodup) (he : t.get? k = some e)
    (h : t'.Perm ((k, e') :: t.erase k)) :
    Landed t t' ↔ e.pending.isSome ∧ e'.pending = none := by
  have hself : t'.get? k = some e' :=
    (get?_eq_some_iff hnd').mpr (h.mem_iff.mpr List.mem_cons_self)
  constructor
  · rintro ⟨k', x, x', hx, hpending, hx', hidle⟩
    by_cases hk : k' = k
    · subst hk
      obtain rfl : x = e := Option.some.inj (hx.symm.trans he)
      obtain rfl : x' = e' := Option.some.inj (hx'.symm.trans hself)
      exact ⟨hpending, hidle⟩
    · -- the other keys keep their entries
      have hmem := h.mem_iff.mp ((get?_eq_some_iff hnd').mp hx')
      rcases List.mem_cons.mp hmem with heq | hmem
      · exact absurd (congrArg (·.1) heq) hk
      · have hsame := (get?_eq_some_iff hnd).mpr (List.mem_of_mem_filter hmem)
        obtain rfl : x = x' := Option.some.inj (hx.symm.trans hsame)
        rw [hidle] at hpending
        cases hpending
  · rintro ⟨hpending, hidle⟩
    exact ⟨k, e, e', he, hpending, hself, hidle⟩

/-- **A table whose bound breaks** as an entry changes has too many keys, with all runs but one in
flight, and one of these lands. -/
theorem WithinBound.not_iff_of_perm (h : t.WithinBound maxEntries) (hnd : t.keys.Nodup)
    (hnd' : t'.keys.Nodup) (he : t.get? k = some e) (hperm : t'.Perm ((k, e') :: t.erase k)) :
    ¬ t'.WithinBound maxEntries ↔
      maxEntries < t.length ∧ t.length = t.inFlight + 1 ∧ Landed t t' := by
  have hlen : t'.length = t.length := by
    rw [hperm.length_eq, (perm_erase hnd he).length_eq]
    rfl
  have hbefore := inFlight_of_perm (perm_erase hnd he)
  have hafter := inFlight_of_perm hperm
  rw [landed_iff_of_perm hnd hnd' he hperm, ← Option.not_isSome_iff_eq_none]
  rw [withinBound_iff] at h ⊢
  rw [hlen]
  by_cases hpending : e.pending.isSome
  · rw [if_pos hpending] at hbefore
    by_cases hpending' : e'.pending.isSome
    · rw [if_pos hpending'] at hafter
      simp only [hpending, hpending', not_true, and_false, iff_false, not_not]
      omega
    · rw [if_neg hpending'] at hafter
      simp only [hpending, hpending', Bool.false_eq_true, not_false_eq_true, and_true]
      omega
  · -- no run is taken out of flight
    rw [if_neg hpending] at hbefore
    simp only [hpending, Bool.false_eq_true, false_and, and_false, iff_false, not_not]
    split at hafter <;> omega

/-! ### An entry that is added -/

theorem not_landed_insert (hk : t.get? k = none) : ¬ Landed t (t.insert maxEntries k e) := by
  rintro ⟨k', x, x', hx, hpending, hx', hidle⟩
  have hne : k' ≠ k := by
    rintro rfl
    cases hk.symm.trans hx
  have hsame : (t.insert maxEntries k e).get? k' = some x :=
    get?_insert_of_pending hne hk hx hpending
  obtain rfl : x = x' := Option.some.inj (hsame.symm.trans hx')
  rw [hidle] at hpending
  cases hpending

/-- **A table to which a key was just added is within its bound.** -/
theorem withinBound_insert (hnd : t.keys.Nodup) (hk : t.get? k = none) :
    (t.insert maxEntries k e).WithinBound maxEntries := by
  generalize hnew : t.insert maxEntries k e = new
  have hnd' : new.keys.Nodup := hnew ▸ nodup_insert hnd hk
  have hself : new.get? k = some e := hnew ▸ get?_insert_self hk
  have hperm := perm_erase hnd' hself
  have hlen : new.length = (new.erase k).length + 1 := hperm.length_eq
  rw [withinBound_iff]
  by_cases hlong : maxEntries < new.length
  · -- all the others have a run in flight
    have hall : (new.erase k).inFlight = (new.erase k).length := by
      refine List.countP_eq_length.mpr fun p hp => ?_
      obtain ⟨hmem, hne⟩ := List.mem_filter.mp hp
      subst hnew
      exact pending_of_lt_length_insert hnd hk hlong hmem (by simpa using hne)
    have hflight := inFlight_of_perm hperm
    omega
  · omega

/-! ### All of it -/

/-- What a table can become in one operation: entries go, one changes, or one is added. -/
inductive Shape (maxEntries : Int) (t : Table) : Table → Prop
  | dropped {t' : Table} (h : t'.Sublist t) : Shape maxEntries t t'
  | changed {t' : Table} {k : Key} {e e' : Entry} (he : t.get? k = some e)
    (h : t'.Perm ((k, e') :: t.erase k)) : Shape maxEntries t t'
  | added {t' : Table} {k : Key} {e : Entry} (hk : t.get? k = none)
    (h : t' = t.insert maxEntries k e) : Shape maxEntries t t'

theorem shape_touch : Shape maxEntries t (t.touch maxEntries k e') := by
  cases hk : t.get? k with
  | none => exact .added hk (touch_of_new hk)
  | some e =>
    rw [touch_of_known hk]
    exact .changed hk (List.perm_append_singleton (k, e') (t.erase k))

/-- **When the bound breaks**: only as a run lands in a table that has too many keys already, with
all runs but one in flight. -/
theorem Shape.not_withinBound_iff (h : Shape maxEntries t t') (hnd : t.keys.Nodup)
    (hnd' : t'.keys.Nodup) (hwithin : t.WithinBound maxEntries) :
    ¬ t'.WithinBound maxEntries ↔
      maxEntries < t.length ∧ t.length = t.inFlight + 1 ∧ Landed t t' := by
  cases h with
  | dropped hsub =>
    have hstays := hwithin.sublist hsub
    have hnone := not_landed_of_sublist hnd hsub
    simp [hstays, hnone]
  | changed he hperm => exact hwithin.not_iff_of_perm hnd hnd' he hperm
  | added hk heq =>
    have hstays : t'.WithinBound maxEntries := heq ▸ withinBound_insert hnd hk
    have hnone : ¬ Landed t t' := heq ▸ not_landed_insert hk
    simp [hstays, hnone]

end Table

open Limiter

variable {s : Settings} {d : Desk} {ops : List Operation} {op : Operation} {k : Key}

/-! ### Runs -/

theorem shape_perform (hnd : d.limiter.table.keys.Nodup) (s : Settings) (op : Operation) :
    Table.Shape s.maxEntries d.limiter.table (d.perform s op).limiter.table := by
  have hchange := change_perform s d op
  generalize (d.perform s op).limiter.table = table at hchange ⊢
  cases hchange with
  | same => exact .dropped (List.Sublist.refl _)
  | fired => exact Table.shape_touch
  | reserved => exact Table.shape_touch
  | settled hr hC he hfree => exact .changed he (Table.perm_set hnd he)
  | settledLate hr hC hnew => exact .added hnew rfl
  | released hr he hpending hfire => exact .changed he (Table.perm_set hnd he)
  | dropped => exact .dropped List.filter_sublist
  | pruned => exact .dropped List.filter_sublist
  | cleared => exact .dropped (List.nil_sublist _)

/-- **There are no more keys than the bound, or than once had a run in flight and one.** -/
theorem exists_bound (s : Settings) (ops : List Operation) :
    ∃ first, first <+: ops ∧ ((Desk.after s ops).limiter.table.length : Int) ≤
      max s.maxEntries ((Desk.after s first).limiter.table.inFlight + 1) := by
  induction ops using List.reverseRecOn with
  | nil =>
    refine ⟨[], List.prefix_rfl, ?_⟩
    simp only [Desk.after_nil, List.length_nil]
    omega
  | append_singleton ops op ih =>
    obtain ⟨first, hfirst, hbound⟩ := ih
    have hnd := nodup_after s ops
    have hearlier : first <+: ops ++ [op] := hfirst.trans (List.prefix_append _ _)
    rw [Desk.after_concat]
    cases shape_perform hnd s op with
    | dropped hsub =>
      have hlen := hsub.length_le
      exact ⟨first, hearlier, by omega⟩
    | changed he hperm =>
      have hlen := hperm.length_eq.trans (Table.perm_erase hnd he).length_eq.symm
      exact ⟨first, hearlier, by omega⟩
    | added hk hinsert =>
      refine ⟨ops ++ [op], List.prefix_rfl, ?_⟩
      rw [Desk.after_concat, hinsert]
      exact Table.withinBound_insert hnd hk

/-- **When the bound breaks**: after any operations there are no more keys than the bound, or than
at some moment so far had a run in flight and one.  An operation that adds a key leaves the table
within `max maxEntries (inFlight + 1)`.  Any other one takes it out of that bound only by settling a
run of a key that stays tracked, when there are too many keys already and all but one have a run in
flight; and then it always does. -/
theorem bound_broken_iff_landed (maxEntries graceWindows : Int) (ops : List Operation)
    (op : Operation) :
    let s : Settings := { maxEntries, graceWindows }
    let d := Desk.after s ops
    let d' := d.perform s op
    let t := d.limiter.table
    let t' := d'.limiter.table
    (∃ first, first <+: ops ∧ (t.length : Int) ≤
      max maxEntries ((Desk.after s first).limiter.table.inFlight + 1)) ∧
    (∀ k, d.known? k = none → (d'.known? k).isSome → t'.WithinBound maxEntries) ∧
    (t.WithinBound maxEntries → (¬ t'.WithinBound maxEntries ↔
      maxEntries < t.length ∧ t.length = t.inFlight + 1 ∧
        ∃ k e e', d.known? k = some e ∧ e.pending.isSome ∧ d'.known? k = some e' ∧
          e'.pending = none)) := by
  intro s d d' t t'
  have hnd : t.keys.Nodup := nodup_after s ops
  refine ⟨exists_bound s ops, fun k hnew htracked => ?_, fun hwithin => ?_⟩
  · obtain ⟨e, hinsert⟩ := insert_of_tracked hnd hnew htracked
    have htable : t' = t.insert maxEntries k e := hinsert
    rw [htable]
    exact Table.withinBound_insert hnd hnew
  · have hshape : Table.Shape maxEntries t t' := shape_perform hnd s op
    exact hshape.not_withinBound_iff hnd (nodup_perform hnd op) hwithin

/-- With room for one key, two runs are in flight; as the second one is settled too, two idle keys
are left. -/
theorem bound_broken_iff_landed_second :
    let key (author : Text) : Key := ⟨author, text "c1"⟩
    let ops : List Operation :=
      [.reserve (key (text "u1")) 1000 0, .reserve (key (text "u2")) 1000 1, .settle 0]
    let t := (Desk.after { maxEntries := 1, graceWindows := 3 } ops).limiter.table
    let t' := ((Desk.after { maxEntries := 1, graceWindows := 3 } ops).perform
      { maxEntries := 1, graceWindows := 3 } (.settle 1)).limiter.table
    t.WithinBound 1 ∧ t.length = 2 ∧ t.inFlight = 1 ∧ ¬ t'.WithinBound 1 := by
  intro key ops t t'
  have hwithin : t.WithinBound 1 := by decide +kernel
  have hlen : t.length = 2 := by decide +kernel
  have hflight : t.inFlight = 1 := by decide +kernel
  have hbreaks := ((bound_broken_iff_landed 1 3 ops (.settle 1)).2.2 hwithin).mpr
    ⟨by change (1 : Int) < (t.length : Nat); omega, hlen.trans (by rw [hflight]),
      key (text "u2"), ⟨none, 1000, some 1, 1⟩, ⟨some 1, 1000, none, 1⟩, by decide +kernel,
      by decide, by decide +kernel, by decide⟩
  exact ⟨hwithin, hlen, hflight, hbreaks⟩

/-- So the bound does not hold in every state. -/
theorem bound_broken_idle :
    ¬ ∀ (maxEntries : Int) (ops : List Operation), 1 ≤ maxEntries →
      (Desk.after { maxEntries, graceWindows := 3 } ops).limiter.table.WithinBound maxEntries := by
  intro hall
  let key (author : Text) : Key := ⟨author, text "c1"⟩
  have hwithin := hall 1 [.reserve (key (text "u1")) 1000 0, .reserve (key (text "u2")) 1000 1,
    .settle 0, .settle 1] (by decide)
  revert hwithin
  decide +kernel

end ChatCommands.Cooldown
