import ChatCommands.Audit.Log
import ChatCommands.Audit.Store

/-!
The entries that a store keeps, and the counts of an audit log, tenant by tenant.

How many entries are left after `k` of them were stored follows a law: as many as the last trim has
left, and those that have come since.  Main statements: `newest_grow`, `newest_trim`.
-/

namespace ChatCommands.Audit

/-! ### The newest entries -/

namespace Store

variable {es : List AuditEntry} {e : AuditEntry} {s : Store} {t t' : Text}

theorem length_newest (keep : Nat) (es : List AuditEntry) :
    (newest keep es).length = min keep es.length := by
  rw [newest, List.length_drop]
  omega

theorem newest_newest (keep keep' : Nat) (es : List AuditEntry) :
    newest keep (newest keep' es) = newest (min keep keep') es := by
  unfold newest
  rw [List.drop_drop, List.length_drop]
  congr 1
  omega

theorem newest_append (keep : Nat) (es : List AuditEntry) (e : AuditEntry) :
    newest keep es ++ [e] = newest (keep + 1) (es ++ [e]) := by
  unfold newest
  rw [List.length_append, List.length_singleton, Nat.add_sub_add_right,
    List.drop_append_of_le_length (Nat.sub_le ..)]

theorem newest_eq_self {keep : Nat} (h : es.length ≤ keep) : newest keep es = es := by
  rw [newest, Nat.sub_eq_zero_of_le h, List.drop_zero]

/-! ### How many are left -/

/-- How many entries are left after `k` were stored, if the newest `keep` are kept whenever `every`
more have come. -/
def left (keep every k : Nat) : Nat := min keep (every * (k / every)) + k % every

variable {keep every k : Nat}

theorem left_lt (hevery : 0 < every) (k : Nat) : left keep every k ≤ keep + every - 1 := by
  have hmod := Nat.mod_lt k hevery
  unfold left
  omega

/-- Between two trims the entries grow. -/
theorem newest_grow (hbetween : (k + 1) % every ≠ 0) :
    newest (left keep every k) es ++ [e] = newest (left keep every (k + 1)) (es ++ [e]) := by
  have hstep : left keep every (k + 1) = left keep every k + 1 := by
    unfold left
    have hdiv : (k + 1) / every = k / every := Nat.succ_div_of_not_dvd fun hdvd =>
      hbetween (Nat.mod_eq_zero_of_dvd hdvd)
    have hk := Nat.div_add_mod k every
    have hk' := Nat.div_add_mod (k + 1) every
    rw [hdiv] at hk' ⊢
    omega
  rw [hstep, newest_append]

/-- A trim leaves the newest. -/
theorem newest_trim (hevery : 0 < every) (hes : es.length = k) (htrim : (k + 1) % every = 0) :
    newest keep (newest (left keep every k) es ++ [e]) =
      newest (left keep every (k + 1)) (es ++ [e]) := by
  have hlast : every * (k / every) + every = k + 1 ∧ k % every + 1 = every := by
    obtain ⟨q, hq⟩ := Nat.dvd_of_mod_eq_zero htrim
    have hk := Nat.div_add_mod k every
    have hmod := Nat.mod_lt k hevery
    have hlt : every * (k / every) < every * q := by omega
    have hle : every * (k / every + 1) ≤ every * q :=
      Nat.mul_le_mul_left every (Nat.lt_of_mul_lt_mul_left hlt)
    rw [Nat.mul_add, Nat.mul_one] at hle
    omega
  have hright : left keep every (k + 1) = min keep (k + 1) := by
    have hk' := Nat.div_add_mod (k + 1) every
    unfold left
    rw [htrim] at hk' ⊢
    omega
  rw [newest_append, newest_newest, hright]
  unfold newest left
  rw [List.length_append, List.length_singleton]
  congr 1
  omega

/-! ### Entries by tenant -/

theorem lookup_map_of_keys {β : Type} (f : Text → β → β) (t : Text) (l : List (Text × β)) :
    (l.map fun x => (x.1, f x.1 x.2)).lookup t = (l.lookup t).map (f t) := by
  induction l with
  | nil => rfl
  | cons x l ih =>
    rw [List.map_cons, List.lookup_cons, List.lookup_cons, ih]
    cases heq : t == x.1 with
    | true => rw [beq_iff_eq.mp heq]; rfl
    | false => rfl

theorem entriesOf_trim (s : Store) (t t' : Text) (keep : Nat) :
    (s.trim t keep).entriesOf t' = if t' = t then newest keep (s.entriesOf t') else s.entriesOf t' := by
  unfold entriesOf trim
  rw [lookup_map_of_keys (fun u es => if u = t then newest keep es else es) t' s.tenants]
  split
  · cases s.tenants.lookup t' with
    | none => exact (newest_eq_self (Nat.zero_le _)).symm
    | some es => rfl
  · cases s.tenants.lookup t' <;> rfl

/-- A store without a bound of its own keeps every entry that is appended. -/
theorem entriesOf_append (hs : s.retention = none) (e : AuditEntry) (t : Text) :
    (s.append e).entriesOf t = if t = e.tenant then s.entriesOf t ++ [e] else s.entriesOf t := by
  unfold entriesOf append
  simp only [hs, Option.elim_none]
  split
  · rename_i hknown
    rw [lookup_map_of_keys (fun u es => if u = e.tenant then es ++ [e] else es) t s.tenants]
    cases hlookup : s.tenants.lookup t with
    | some es => simp only [Option.map_some, Option.getD_some]
    | none =>
      rw [if_neg]
      · rfl
      · rintro rfl
        obtain ⟨x, hx, hxe⟩ := List.any_eq_true.mp hknown
        have hne := List.lookup_eq_none_iff.mp hlookup x hx
        rw [bne_iff_ne] at hne
        exact hne (beq_iff_eq.mp hxe).symm
  · rename_i hunknown
    rw [List.lookup_append, List.lookup_cons]
    cases ht : t == e.tenant with
    | true =>
      have hnone : s.tenants.lookup t = none := by
        refine List.lookup_eq_none_iff.mpr fun x hx => bne_iff_ne.mpr fun heq => hunknown ?_
        exact List.any_eq_true.mpr ⟨x, hx, beq_iff_eq.mpr (heq.symm.trans (beq_iff_eq.mp ht))⟩
      rw [hnone, if_pos (beq_iff_eq.mp ht)]
      rfl
    | false =>
      rw [if_neg (beq_eq_false_iff_ne.mp ht), List.lookup_nil, Option.or_none]

end Store

/-! ### Counts -/

/-- The count of a tenant. -/
def countOf (t : Text) (counts : List (Text × Nat)) : Nat := (counts.lookup t).getD 0

theorem countAppend_fst (tenant : Text) (counts : List (Text × Nat)) :
    (countAppend tenant counts).1 = countOf tenant counts + 1 := by
  induction counts with
  | nil => rfl
  | cons x counts ih =>
    obtain ⟨t, n⟩ := x
    unfold countAppend countOf
    rw [List.lookup_cons]
    split
    · rename_i heq
      rw [heq, beq_self_eq_true]
      rfl
    · rename_i hne
      rw [beq_eq_false_iff_ne.mpr (Ne.symm hne)]
      exact ih

theorem countOf_countAppend (tenant t : Text) (counts : List (Text × Nat)) :
    countOf t (countAppend tenant counts).2 =
      if t = tenant then countOf t counts + 1 else countOf t counts := by
  induction counts with
  | nil =>
    unfold countAppend countOf
    rw [List.lookup_cons]
    cases ht : t == tenant with
    | true => rw [if_pos (beq_iff_eq.mp ht)]; rfl
    | false => rw [if_neg (beq_eq_false_iff_ne.mp ht)]
  | cons x counts ih =>
    obtain ⟨u, n⟩ := x
    unfold countAppend
    split
    · rename_i heq
      subst heq
      unfold countOf
      rw [List.lookup_cons, List.lookup_cons]
      cases hu : t == u with
      | true => rw [if_pos (beq_iff_eq.mp hu)]; rfl
      | false => rw [if_neg (beq_eq_false_iff_ne.mp hu)]
    · rename_i hne
      change countOf t ((u, n) :: (countAppend tenant counts).2) = _
      unfold countOf at ih ⊢
      rw [List.lookup_cons, List.lookup_cons]
      cases hu : t == u with
      | true => rw [if_neg fun heq => hne ((beq_iff_eq.mp hu).symm.trans heq)]
      | false => exact ih

end ChatCommands.Audit
