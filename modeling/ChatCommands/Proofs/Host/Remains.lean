import ChatCommands.Proofs.Host.Subtree

/-!
What a removal leaves of a file tree.

Whatever refuses to be removed stays, and so does a directory that refuses to be listed, with
everything under it; and so do the directories in which these stand.  Everything else goes.
-/

namespace ChatCommands.Host.Node

/-! ### What stays of a node -/

/-- The node refuses to be removed. -/
def isKept : Node → Bool
  | .file kept _ | .link kept _ | .directory kept _ _ => kept

/-- The node is a directory that refuses to be listed. -/
def isClosed : Node → Bool
  | .directory _ closed _ => closed
  | _ => false

mutual

/-- What a removal leaves of a node. -/
def remains : Node → Option Node
  | .file kept content => if kept then some (.file kept content) else none
  | .link kept target => if kept then some (.link kept target) else none
  | .directory kept closed es =>
    if closed then some (.directory kept closed es)
    else if kept || !(remainingEntries es).isEmpty then
      some (.directory kept closed (remainingEntries es))
    else none

/-- What a removal leaves of the entries of a directory. -/
def remainingEntries : List (Text × Node) → List (Text × Node)
  | [] => []
  | (name, n) :: rest => (n.remains.map fun m => (name, m)).toList ++ remainingEntries rest

end

theorem shell_remains {n m : Node} (h : n.remains = some m) : m.shell = n.shell := by
  cases n with
  | file kept content =>
    rw [remains] at h
    split at h
    · cases h
      rfl
    · cases h
  | link kept target =>
    rw [remains] at h
    split at h
    · cases h
      rfl
    · cases h
  | directory kept closed es =>
    rw [remains] at h
    split at h
    · cases h
      rfl
    · split at h
      · cases h
        rfl
      · cases h

theorem lookup_remainingEntries {es : List (Text × Node)} (h : (es.map Prod.fst).Nodup)
    (name : Text) : (remainingEntries es).lookup name = (es.lookup name).bind remains := by
  induction es with
  | nil => rfl
  | cons e es ih =>
    obtain ⟨x, n⟩ := e
    rw [List.map_cons, List.nodup_cons] at h
    have hrest := ih h.2
    rw [remainingEntries, lookup_entry]
    by_cases hname : name = x
    · subst hname
      rw [if_pos rfl, Option.bind_some]
      cases n.remains with
      | none =>
        change (remainingEntries es).lookup name = none
        rw [hrest, lookup_eq_none_of_not_mem h.1]
        rfl
      | some m => exact (lookup_entry name m (remainingEntries es) name).trans (if_pos rfl)
    · rw [if_neg hname, ← hrest]
      cases n.remains with
      | none => rfl
      | some m => exact (lookup_entry x m (remainingEntries es) name).trans (if_neg hname)

/-! ### Where something stays -/

/-- A node stays if it refuses to be removed, if it is a directory that refuses to be listed or is
under one, or if something under it stays. -/
inductive Stays (t : Node) : Location → Prop
  | refuses {l : Location} {n : Node} (h : t.lookup l = some n) (hkept : n.isKept) : Stays t l
  | shut {l : Location} {n : Node} (h : t.lookup l = some n) (hclosed : n.isClosed)
      (under : Location) : Stays t (l ++ under)
  | holds {l under : Location} (h : Stays t (l ++ under)) : Stays t l

theorem Stays.child {t child : Node} {name : Text} {l : Location}
    (hname : t.entries.lookup name = some child) (h : child.Stays l) : t.Stays (name :: l) := by
  have hlookup (l : Location) : t.lookup (name :: l) = child.lookup l := by
    rw [lookup_cons, hname, Option.bind_some]
  induction h with
  | refuses h hkept => exact .refuses ((hlookup _).trans h) hkept
  | shut h hclosed under => exact .shut ((hlookup _).trans h) hclosed under
  | holds h ih => exact .holds ih

/-- In an entry something stays if the directory refuses to be listed, or if it stays there. -/
theorem stays_cons_iff {t : Node} {name : Text} {l : Location} :
    t.Stays (name :: l) ↔
      t.isClosed ∨ ∃ child, t.entries.lookup name = some child ∧ child.Stays l := by
  constructor
  · intro h
    generalize hl' : name :: l = l' at h
    induction h generalizing l with
    | refuses h hkept =>
      rw [← hl', lookup_cons] at h
      obtain ⟨child, hname, h⟩ := Option.bind_eq_some_iff.mp h
      exact .inr ⟨child, hname, .refuses h hkept⟩
    | @shut l₀ n h hclosed under =>
      cases l₀ with
      | nil =>
        cases h
        exact .inl hclosed
      | cons x l₀ =>
        cases hl'
        rw [lookup_cons] at h
        obtain ⟨child, hname, h⟩ := Option.bind_eq_some_iff.mp h
        exact .inr ⟨child, hname, .shut h hclosed under⟩
    | holds h ih =>
      subst hl'
      rcases ih rfl with hclosed | ⟨child, hname, hstays⟩
      · exact .inl hclosed
      · exact .inr ⟨child, hname, hstays.holds⟩
  · rintro (hclosed | ⟨child, hname, hstays⟩)
    · exact .shut (lookup_nil t) hclosed (name :: l)
    · exact .child hname hstays

/-- A node itself stays if it refuses, or if one of its entries stays. -/
theorem stays_nil_iff {t : Node} :
    t.Stays [] ↔ t.isKept ∨ t.isClosed ∨
      ∃ name child, t.entries.lookup name = some child ∧ child.Stays [] := by
  constructor
  · intro h
    generalize hl' : ([] : Location) = l' at h
    induction h with
    | refuses h hkept =>
      cases hl'
      cases h
      exact .inl hkept
    | shut h hclosed under =>
      obtain ⟨rfl, -⟩ := List.append_eq_nil_iff.mp hl'.symm
      cases h
      exact .inr (.inl hclosed)
    | @holds l under h ih =>
      subst hl'
      cases under with
      | nil => exact ih rfl
      | cons name under =>
        rcases stays_cons_iff.mp h with hclosed | ⟨child, hname, hstays⟩
        · exact .inr (.inl hclosed)
        · exact .inr (.inr ⟨name, child, hname, .holds hstays⟩)
  · rintro (hkept | hclosed | ⟨name, child, hname, hstays⟩)
    · exact .refuses (lookup_nil t) hkept
    · exact .shut (lookup_nil t) hclosed []
    · exact .holds (Stays.child hname hstays)

theorem stays_directory_iff {kept closed : Bool} {es : List (Text × Node)}
    (h : (es.map Prod.fst).Nodup) : (Node.directory kept closed es).Stays [] ↔
      closed ∨ kept ∨ ∃ e ∈ es, e.2.Stays [] := by
  rw [stays_nil_iff, or_left_comm]
  apply or_congr_right
  apply or_congr_right
  constructor
  · rintro ⟨name, child, hname, hstays⟩
    exact ⟨(name, child), mem_of_lookup hname, hstays⟩
  · rintro ⟨e, he, hstays⟩
    exact ⟨e.1, e.2, lookup_of_mem h he, hstays⟩

/-! ### What stays is what remains -/

mutual

/-- Something remains of a node if the node stays. -/
theorem remains_isSome_iff {n : Node} (h : n.Distinct) : n.remains.isSome ↔ n.Stays [] := by
  match n with
  | .file kept content | .link kept target =>
    rw [stays_nil_iff, remains]
    cases kept <;> simp [isKept, isClosed, entries]
  | .directory kept closed es =>
    have hes := remainingEntries_ne_nil_iff es fun e he =>
      h.child (lookup_of_mem h.entries_nodup he)
    rw [stays_directory_iff h.entries_nodup, ← hes, remains]
    cases closed
    · cases kept
      · cases remainingEntries es <;> simp
      · simp
    · simp

theorem remainingEntries_ne_nil_iff (es : List (Text × Node)) (h : ∀ e ∈ es, e.2.Distinct) :
    remainingEntries es ≠ [] ↔ ∃ e ∈ es, e.2.Stays [] := by
  match es with
  | [] => simp [remainingEntries]
  | (name, n) :: rest =>
    have hone := remains_isSome_iff (h (name, n) List.mem_cons_self)
    have hrest := remainingEntries_ne_nil_iff rest fun e he => h e (List.mem_cons_of_mem _ he)
    simp only [List.mem_cons, exists_eq_or_imp, ← hone, ← hrest, remainingEntries]
    cases n.remains <;> simp

end

theorem lookup_remains_cons {kept : Bool} {es : List (Text × Node)} (name : Text) (l : Location) :
    ((Node.directory kept false es).remains.bind fun m => m.lookup (name :: l)) =
      ((remainingEntries es).lookup name).bind fun m => m.lookup l := by
  rw [remains, if_neg Bool.false_ne_true]
  split
  · exact lookup_cons _ name l
  · rename_i hgone
    have hnil : remainingEntries es = [] := by
      simp only [Bool.or_eq_true, Bool.not_eq_true', not_or, Bool.not_eq_false,
        List.isEmpty_iff] at hgone
      exact hgone.2
    rw [hnil]
    rfl

/-- **What remains of a node is what stays in it**, and each thing that stays is as it was. -/
theorem lookup_remains {n : Node} (h : n.Distinct) (l : Location) :
    (n.Stays l → (n.remains.bind fun m => m.lookup l).map shell = (n.lookup l).map shell) ∧
      (¬ n.Stays l → (n.remains.bind fun m => m.lookup l) = none) := by
  induction l generalizing n with
  | nil =>
    rw [← remains_isSome_iff h]
    simp only [lookup_nil]
    cases hm : n.remains with
    | none => simp
    | some m => simp [shell_remains hm]
  | cons name l ih =>
    rw [stays_cons_iff]
    cases n with
    | file kept content | link kept target =>
      cases kept <;> simp [remains, isClosed, entries]
    | directory kept closed es =>
      cases closed with
      | true => simp [remains, isClosed]
      | false =>
        rw [lookup_remains_cons, lookup_remainingEntries h.entries_nodup, lookup_cons]
        change (_ ∨ (∃ child, es.lookup name = _ ∧ _) → _ = ((es.lookup name).bind _).map shell) ∧ _
        cases hname : es.lookup name with
        | none => simp
        | some child =>
          simpa [isClosed, entries, hname] using ih (h.child hname)

end ChatCommands.Host.Node
