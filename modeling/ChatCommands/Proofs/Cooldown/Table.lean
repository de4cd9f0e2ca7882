import ChatCommands.Cooldown.Table
import Mathlib.Data.List.Dedup
import Mathlib.Data.List.Perm.Subperm

/-!
What a table answers after each of its operations.

In a table without repeated keys every operation changes the answer for its own key only.  Making
room is the exception; a table whose keys come from a set that fits it never has to.
-/

namespace ChatCommands.Cooldown.Table

variable {t : Table} {k k' : Key} {e : Entry}

/-- The keys of a table, in its order. -/
def keys (t : Table) : List Key := t.map (·.1)

@[simp] theorem keys_nil : keys [] = [] := rfl

@[simp] theorem keys_cons (p : Key × Entry) (t : Table) : keys (p :: t) = p.1 :: keys t := rfl

@[simp] theorem length_keys (t : Table) : (keys t).length = t.length := List.length_map _

@[simp] theorem get?_nil (k : Key) : get? [] k = none := rfl

theorem get?_cons (p : Key × Entry) (t : Table) (k : Key) :
    get? (p :: t) k = if p.1 = k then some p.2 else t.get? k := by
  unfold get?
  rw [List.lookup_cons]
  by_cases h : k = p.1
  · rw [beq_iff_eq.mpr h, if_pos h.symm]
  · rw [beq_eq_false_iff_ne.mpr h, if_neg fun h' => h h'.symm]

theorem get?_eq_none : t.get? k = none ↔ k ∉ t.keys := by
  induction t with
  | nil => simp
  | cons p t ih =>
    rw [get?_cons, keys_cons, List.mem_cons, not_or]
    split
    case isTrue h => simp [h]
    case isFalse h => simp [ih, Ne.symm h]

/-! ### One operation -/

theorem get?_erase (t : Table) (k k' : Key) :
    (t.erase k).get? k' = if k' = k then none else t.get? k' := by
  induction t with
  | nil => simp [erase]
  | cons p t ih =>
    unfold erase at ih ⊢
    rw [List.filter_cons]
    by_cases hp : p.1 = k
    · rw [if_neg (by simp [hp]), ih, get?_cons]
      by_cases hk : k' = k
      · simp [hk]
      · rw [if_neg hk, if_neg hk, if_neg fun h => hk (h.symm.trans hp)]
    · rw [if_pos (by simpa using hp), get?_cons, get?_cons, ih]
      by_cases hk : k' = k
      · rw [if_pos hk, if_pos hk, if_neg fun h => hp (h.trans hk)]
      · rw [if_neg hk, if_neg hk]

theorem get?_set (t : Table) (k : Key) (e : Entry) (k' : Key) :
    (t.set k e).get? k' = if k' = k then (t.get? k).map fun _ => e else t.get? k' := by
  induction t with
  | nil => simp [set]
  | cons p t ih =>
    unfold set at ih ⊢
    rw [List.map_cons, get?_cons, get?_cons, get?_cons, ih]
    by_cases hp : p.1 = k
    · by_cases hk : k' = k
      · simp [hp, hk]
      · simp [hp, hk, Ne.symm hk]
    · by_cases hk : k' = k
      · simp [hp, hk]
      · simp [hp, hk]

theorem get?_append_singleton (h : t.get? k = none) (e : Entry) (k' : Key) :
    get? (t ++ [(k, e)]) k' = if k' = k then some e else t.get? k' := by
  induction t with
  | nil =>
    rw [List.nil_append, get?_cons]
    simp only [eq_comm]
  | cons p t ih =>
    rw [get?_cons] at h
    split at h
    · cases h
    · rename_i hp
      rw [List.cons_append, get?_cons, get?_cons, ih h]
      by_cases hk : k' = k
      · rw [if_pos hk, if_pos hk, if_neg fun h' => hp (h'.trans hk)]
      · rw [if_neg hk, if_neg hk]

theorem get?_filter (hnd : t.keys.Nodup) (keep : Entry → Bool) (k : Key) :
    get? (t.filter fun p => keep p.2) k = (t.get? k).filter keep := by
  induction t with
  | nil => rfl
  | cons p t ih =>
    rw [keys_cons, List.nodup_cons] at hnd
    rw [List.filter_cons, get?_cons]
    by_cases hp : p.1 = k
    · have hrest : get? t k = none := get?_eq_none.mpr (hp ▸ hnd.1)
      rw [if_pos hp, Option.filter_some]
      split
      · rw [get?_cons, if_pos hp]
      · rw [ih hnd.2, hrest]
        rfl
    · rw [if_neg hp]
      split
      · rw [get?_cons, if_neg hp, ih hnd.2]
      · exact ih hnd.2

/-! ### The keys -/

theorem keys_filter_sublist (t : Table) (keep : Key × Entry → Bool) :
    (keys (t.filter keep)).Sublist t.keys :=
  List.filter_sublist.map _

theorem keys_set (t : Table) (k : Key) (e : Entry) : (t.set k e).keys = t.keys := by
  induction t with
  | nil => rfl
  | cons p t ih =>
    unfold set at ih ⊢
    rw [List.map_cons, keys_cons, keys_cons, ih]
    split
    case isTrue h => rw [h]
    case isFalse => rfl

/-! ### A table with room -/

/-- The table has no repeated keys, and all its keys are among `used`. -/
structure Within (used : List Key) (t : Table) : Prop where
  nodup : t.keys.Nodup
  subset : ∀ k ∈ t.keys, k ∈ used

variable {used : List Key}

theorem Within.nil (used : List Key) : Within used [] := ⟨List.nodup_nil, by simp⟩

theorem Within.mono (h : Within used t) {used' : List Key} (hsub : ∀ k ∈ used, k ∈ used') :
    Within used' t :=
  ⟨h.nodup, fun k hk => hsub k (h.subset k hk)⟩

theorem Within.filter (h : Within used t) (keep : Key × Entry → Bool) :
    Within used (t.filter keep) :=
  ⟨h.nodup.sublist (keys_filter_sublist t keep),
    fun k hk => h.subset k ((keys_filter_sublist t keep).subset hk)⟩

theorem Within.erase (h : Within used t) (k : Key) : Within used (t.erase k) := h.filter _

theorem Within.set (h : Within used t) (k : Key) (e : Entry) : Within used (t.set k e) := by
  refine ⟨?_, ?_⟩ <;> rw [keys_set]
  · exact h.nodup
  · exact h.subset

theorem Within.append_singleton (h : Within used t) (hk : k ∈ used) (hnew : k ∉ t.keys)
    (e : Entry) : Within used (t ++ [(k, e)]) := by
  have hkeys : keys (t ++ [(k, e)]) = t.keys ++ [k] := List.map_append
  refine ⟨?_, ?_⟩ <;> rw [hkeys]
  · refine List.Nodup.append h.nodup (List.nodup_singleton k) ?_
    intro x hx hx'
    rw [List.mem_singleton] at hx'
    exact hnew (hx' ▸ hx)
  · intro x hx
    rcases List.mem_append.mp hx with hx | hx
    · exact h.subset x hx
    · rw [List.mem_singleton] at hx
      exact hx ▸ hk

theorem Within.length_le (h : Within used t) : t.length ≤ used.dedup.length := by
  rw [← length_keys]
  refine (h.nodup.subperm ?_).length_le
  intro k hk
  exact List.mem_dedup.mpr (h.subset k hk)

/-- **A new key finds room** in a table whose keys come from a set that fits it. -/
theorem Within.insert_eq (h : Within used t) (hk : k ∈ used) (hnew : t.get? k = none)
    {maxEntries : Int} (hfits : (used.dedup.length : Int) ≤ maxEntries) (e : Entry) :
    t.insert maxEntries k e = t ++ [(k, e)] := by
  have hlen := (h.append_singleton hk (get?_eq_none.mp hnew) e).length_le
  rw [List.length_append, List.length_singleton] at hlen
  have hroom : ((t.length + 1 : Int) - maxEntries).toNat = 0 := by omega
  unfold insert
  rw [hroom, dropIdle]

theorem erase_of_get?_eq_none (h : t.get? k = none) : t.erase k = t := by
  refine List.filter_eq_self.mpr ?_
  intro p hp
  have hne : p.1 ≠ k := by
    intro hpk
    exact get?_eq_none.mp h (hpk ▸ List.mem_map_of_mem hp)
  simpa using hne

theorem Within.touch_eq (h : Within used t) (hk : k ∈ used) {maxEntries : Int}
    (hfits : (used.dedup.length : Int) ≤ maxEntries) (e : Entry) :
    t.touch maxEntries k e = t.erase k ++ [(k, e)] := by
  unfold touch
  split
  · rfl
  · rename_i hnew
    rw [erase_of_get?_eq_none hnew, h.insert_eq hk hnew hfits]

theorem get?_erase_self (t : Table) (k : Key) : (t.erase k).get? k = none := by
  rw [get?_erase, if_pos rfl]

theorem Within.touch (h : Within used t) (hk : k ∈ used) {maxEntries : Int}
    (hfits : (used.dedup.length : Int) ≤ maxEntries) (e : Entry) :
    Within used (t.touch maxEntries k e) := by
  rw [h.touch_eq hk hfits]
  exact (h.erase k).append_singleton hk (get?_eq_none.mp (get?_erase_self t k)) e

theorem Within.get?_touch (h : Within used t) (hk : k ∈ used) {maxEntries : Int}
    (hfits : (used.dedup.length : Int) ≤ maxEntries) (e : Entry) (k' : Key) :
    (t.touch maxEntries k e).get? k' = if k' = k then some e else t.get? k' := by
  rw [h.touch_eq hk hfits, get?_append_singleton (get?_erase_self t k), get?_erase]
  split <;> rfl

end ChatCommands.Cooldown.Table
