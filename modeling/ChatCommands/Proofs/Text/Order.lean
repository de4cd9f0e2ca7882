import ChatCommands.Text.Basic
import Mathlib.Data.List.Sort

/-!
The texts of a set in order.

The order by code points is total, so a set of texts has one ascending listing: the listing depends
on what is in the set only, and not on where or how often a text was given.
-/

namespace ChatCommands.Text

/-! ### The order -/

theorem le_cons {a b : Nat} {s t : Text} :
    le (a :: s) (b :: t) = true ↔ a < b ∨ a = b ∧ le s t = true := by
  simp [le]

theorem le_total (s t : Text) : (le s t || le t s) = true := by
  rw [Bool.or_eq_true]
  induction s generalizing t with
  | nil => exact .inl rfl
  | cons a s ih =>
    cases t with
    | nil => exact .inr rfl
    | cons b t =>
      rw [le_cons, le_cons]
      rcases Nat.lt_trichotomy a b with h | rfl | h
      · exact .inl (.inl h)
      · rcases ih t with h | h
        · exact .inl (.inr ⟨rfl, h⟩)
        · exact .inr (.inr ⟨rfl, h⟩)
      · exact .inr (.inl h)

theorem le_trans {s t u : Text} (hst : le s t = true) (htu : le t u = true) : le s u = true := by
  induction s generalizing t u with
  | nil => rfl
  | cons a s ih =>
    cases t with
    | nil => cases hst
    | cons b t =>
      cases u with
      | nil => cases htu
      | cons c u =>
        rw [le_cons] at hst htu ⊢
        rcases hst with hab | ⟨rfl, hst⟩
        · rcases htu with hbc | ⟨rfl, -⟩
          · exact .inl (Nat.lt_trans hab hbc)
          · exact .inl hab
        · rcases htu with hbc | ⟨rfl, htu⟩
          · exact .inl hbc
          · exact .inr ⟨rfl, ih hst htu⟩

theorem le_antisymm {s t : Text} (hst : le s t = true) (hts : le t s = true) : s = t := by
  induction s generalizing t with
  | nil =>
    cases t with
    | nil => rfl
    | cons b t => cases hts
  | cons a s ih =>
    cases t with
    | nil => cases hst
    | cons b t =>
      rw [le_cons] at hst hts
      rcases hst with hab | ⟨rfl, hst⟩
      · rcases hts with hba | ⟨rfl, -⟩ <;> omega
      · rcases hts with hba | ⟨-, hts⟩
        · omega
        · rw [ih hst hts]

/-! ### The listing of a set -/

theorem nodup_eraseDups (ts : List Text) : ts.eraseDups.Nodup := by
  induction hlen : ts.length using Nat.strongRecOn generalizing ts with
  | _ n ih =>
    cases ts with
    | nil => exact List.nodup_nil
    | cons t ts =>
      rw [List.eraseDups_cons, List.nodup_cons, List.mem_eraseDups]
      constructor
      · intro hmem
        have := (List.mem_filter.mp hmem).2
        simp at this
      · refine ih (ts.filter _).length ?_ _ rfl
        have := List.length_filter_le (fun u => !u == t) ts
        rw [← hlen, List.length_cons]
        omega

theorem mem_sortedSet {t : Text} {ts : List Text} : t ∈ sortedSet ts ↔ t ∈ ts := by
  rw [sortedSet, (List.mergeSort_perm _ le).mem_iff, List.mem_eraseDups]

/-- One text stands before another one in the order. -/
def Before (s t : Text) : Prop := le s t = true ∧ s ≠ t

instance : Std.Irrefl Before := ⟨fun _ h => h.2 rfl⟩

instance : Std.Antisymm Before := ⟨fun _ _ hst hts => le_antisymm hst.1 hts.1⟩

/-- **The listing is ascending**, and so names nothing twice. -/
theorem pairwise_sortedSet (ts : List Text) : (sortedSet ts).Pairwise Before := by
  have hsorted : (sortedSet ts).Pairwise fun s t => le s t = true :=
    @List.pairwise_mergeSort _ le (fun _ _ _ hst htu => le_trans hst htu) le_total _
  have hdistinct : (sortedSet ts).Nodup :=
    (List.mergeSort_perm _ le).nodup_iff.mpr (nodup_eraseDups ts)
  exact hsorted.and hdistinct

/-- **There is one listing for each set.** -/
theorem sortedSet_eq_iff {ts us : List Text} :
    sortedSet ts = sortedSet us ↔ ∀ t, t ∈ ts ↔ t ∈ us := by
  constructor
  · intro heq t
    rw [← @mem_sortedSet t ts, heq, mem_sortedSet]
  · intro hmem
    refine (pairwise_sortedSet ts).eq_of_mem_iff (pairwise_sortedSet us) ?_
    intro t
    rw [mem_sortedSet, mem_sortedSet]
    exact hmem t

end ChatCommands.Text
