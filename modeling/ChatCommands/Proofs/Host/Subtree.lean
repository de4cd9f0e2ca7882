import ChatCommands.Proofs.Host.FileTree

/-!
One subtree in the place of another.

A change within a subtree is a change of that subtree, and two changes in one place are the second
one.  What stands elsewhere is not touched by a change.
-/

namespace ChatCommands.Host.Node

variable {t d : Node} {here : Location} {name : Text} {new : Option Node}

/-- The node without its entries. -/
def shell : Node → Node
  | .directory kept closed _ => .directory kept closed []
  | n => n

@[simp] theorem isDirectory_shell (n : Node) : n.shell.isDirectory = n.isDirectory := by
  cases n <;> rfl

theorem sameKind_of_shell {m n : Node} (h : m.shell = n.shell) : m.SameKind n := by
  cases m <;> cases n <;> cases h <;> trivial

/-! ### Entries -/

theorem setEntry_self {es : List (Text × Node)} (h : es.lookup name = some d) :
    setEntry name (some d) es = es := by
  induction es with
  | nil => cases h
  | cons e es ih =>
    obtain ⟨x, n⟩ := e
    rw [lookup_entry] at h
    rw [setEntry]
    split
    · rename_i heq
      rw [if_pos heq.symm] at h
      cases h
      rw [← heq]
      rfl
    · rename_i hne
      rw [if_neg (Ne.symm hne)] at h
      rw [ih h]

theorem setEntry_setEntry (name : Text) (d : Node) (new : Option Node) (es : List (Text × Node)) :
    setEntry name new (setEntry name (some d) es) = setEntry name new es := by
  induction es with
  | nil => simp [setEntry]
  | cons e es ih =>
    by_cases hx : e.1 = name
    · simp [setEntry, hx]
    · simp [setEntry, hx, ih]

theorem setEntry_append {es₁ es₂ : List (Text × Node)} {n : Node} (h : name ∉ es₁.map Prod.fst) :
    setEntry name new (es₁ ++ (name, n) :: es₂) =
      es₁ ++ (new.map fun m => (name, m)).toList ++ es₂ := by
  induction es₁ with
  | nil => simp [setEntry]
  | cons e es₁ ih =>
    rw [List.map_cons, List.mem_cons, not_or] at h
    rw [List.cons_append, setEntry, if_neg (Ne.symm h.1), ih h.2]
    rfl

/-! ### Changes below an entry -/

/-- What becomes of an entry if the node at a location in it is set or removed. -/
def replaced (child : Node) (new : Option Node) : Location → Option Node
  | [] => new
  | name :: l => some (child.set new (name :: l))

theorem set_cons {kept closed : Bool} {es : List (Text × Node)} {child : Node}
    (h : es.lookup name = some child) (new : Option Node) (l : Location) :
    (Node.directory kept closed es).set new (name :: l) =
      .directory kept closed (setEntry name (child.replaced new l) es) := by
  cases l with
  | nil => rfl
  | cons name' l => simp only [Node.set, h, replaced]

theorem exists_entry (h : t.lookup (name :: here) = some d) :
    ∃ kept closed es child, t = .directory kept closed es ∧ es.lookup name = some child ∧
      child.lookup here = some d := by
  rw [lookup_cons] at h
  obtain ⟨child, hchild, hd⟩ := Option.bind_eq_some_iff.mp h
  cases t with
  | file | link => cases hchild
  | directory kept closed es => exact ⟨kept, closed, es, child, rfl, hchild, hd⟩

/-- Putting in what is there changes nothing. -/
theorem set_self (h : t.lookup here = some d) : t.set (some d) here = t := by
  induction here generalizing t with
  | nil =>
    rw [lookup_nil] at h
    cases h
    cases d <;> rfl
  | cons name here ih =>
    obtain ⟨kept, closed, es, child, rfl, hchild, hd⟩ := exists_entry h
    rw [set_cons hchild]
    cases here with
    | nil =>
      rw [lookup_nil] at hd
      cases hd
      rw [replaced, setEntry_self hchild]
    | cons name' here => rw [replaced, ih hd, setEntry_self hchild]

/-- Of two changes in one place only the second one shows. -/
theorem set_set (h : t.lookup here = some d) (hne : here ≠ []) (d' : Node) (new : Option Node) :
    (t.set (some d') here).set new here = t.set new here := by
  induction here generalizing t with
  | nil => exact absurd rfl hne
  | cons name here ih =>
    obtain ⟨kept, closed, es, child, rfl, hchild, hd⟩ := exists_entry h
    rw [set_cons hchild, set_cons hchild]
    cases here with
    | nil =>
      change Node.directory kept closed (setEntry name new (setEntry name (some d') es)) = _
      rw [setEntry_setEntry]
      rfl
    | cons name' here =>
      have hset : (setEntry name (child.replaced (some d') (name' :: here)) es).lookup name =
          some (child.set (some d') (name' :: here)) := by
        rw [replaced, lookup_setEntry_some, if_pos rfl]
      rw [set_cons hset, replaced, replaced, setEntry_setEntry, ih hd (List.cons_ne_nil _ _)]
      rfl

/-- A change within a subtree changes that subtree. -/
theorem set_append (h : t.lookup here = some d) {l : Location} (hne : l ≠ []) (new : Option Node) :
    t.set new (here ++ l) = t.set (some (d.set new l)) here := by
  induction here generalizing t with
  | nil =>
    rw [lookup_nil] at h
    cases h
    cases d <;> rfl
  | cons name here ih =>
    obtain ⟨kept, closed, es, child, rfl, hchild, hd⟩ := exists_entry h
    rw [List.cons_append, set_cons hchild, set_cons hchild]
    cases here with
    | nil =>
      rw [lookup_nil] at hd
      cases hd
      cases l with
      | nil => exact absurd rfl hne
      | cons name' l => rfl
    | cons name' here =>
      rw [replaced, List.cons_append, replaced, ← List.cons_append, ih hd]

/-- What was put in is found in its place. -/
theorem lookup_set_present (h : t.lookup here = some d) (d' : Node) :
    (t.set (some d') here).lookup here = some d' := by
  induction here generalizing t with
  | nil => simp [Node.set]
  | cons name here ih =>
    obtain ⟨kept, closed, es, child, rfl, hchild, hd⟩ := exists_entry h
    rw [set_cons hchild, lookup_cons]
    change ((setEntry name (child.replaced (some d') here) es).lookup name).bind _ = some d'
    cases here with
    | nil => rw [replaced, lookup_setEntry_some, if_pos rfl, Option.bind_some, lookup_nil]
    | cons name' here =>
      rw [replaced, lookup_setEntry_some, if_pos rfl, Option.bind_some]
      exact ih hd

theorem lookup_setEntry {es : List (Text × Node)} (h : (es.map Prod.fst).Nodup) (name : Text)
    (new : Option Node) (y : Text) :
    (setEntry name new es).lookup y = if y = name then new else es.lookup y := by
  cases new with
  | none => exact lookup_setEntry_none h y
  | some d => exact lookup_setEntry_some name d es y

/-- What was put in, or nothing if a node was taken out, is found in its place. -/
theorem lookup_set (h : t.lookup here = some d) (hne : here ≠ []) (hdistinct : t.Distinct)
    (new : Option Node) : (t.set new here).lookup here = new := by
  induction here generalizing t with
  | nil => exact absurd rfl hne
  | cons name here ih =>
    obtain ⟨kept, closed, es, child, rfl, hchild, hd⟩ := exists_entry h
    rw [set_cons hchild, lookup_cons]
    change ((setEntry name (child.replaced new here) es).lookup name).bind _ = new
    rw [lookup_setEntry hdistinct.entries_nodup, if_pos rfl]
    cases here with
    | nil => cases new <;> simp [replaced]
    | cons name' here =>
      rw [replaced, Option.bind_some]
      exact ih hd (List.cons_ne_nil _ _) (hdistinct.child hchild)

theorem lookup_set_append (h : t.lookup here = some d) (hne : here ≠ []) (hdistinct : t.Distinct)
    (new : Option Node) (l : Location) :
    (t.set new here).lookup (here ++ l) = new.bind fun n => n.lookup l := by
  rw [lookup_append, lookup_set h hne hdistinct]

/-- What does not stand in the changed subtree is as it was, but for what is under it. -/
theorem lookup_set_apart (h : t.lookup here = some d) (hdistinct : t.Distinct) (new : Option Node)
    {l : Location} (hapart : ¬ here <+: l) :
    ((t.set new here).lookup l).map shell = (t.lookup l).map shell := by
  induction here generalizing t l with
  | nil => exact absurd List.nil_prefix hapart
  | cons name here ih =>
    obtain ⟨kept, closed, es, child, rfl, hchild, hd⟩ := exists_entry h
    rw [set_cons hchild]
    cases l with
    | nil => rfl
    | cons y l =>
      rw [lookup_cons, lookup_cons]
      change (((setEntry name (child.replaced new here) es).lookup y).bind _).map shell =
        ((es.lookup y).bind _).map shell
      rw [lookup_setEntry hdistinct.entries_nodup]
      by_cases hy : y = name
      · subst hy
        rw [if_pos rfl, hchild]
        rw [List.prefix_cons_inj] at hapart
        cases here with
        | nil => exact absurd List.nil_prefix hapart
        | cons name' here =>
          rw [replaced, Option.bind_some, Option.bind_some]
          exact ih hd (hdistinct.child hchild) hapart
      · rw [if_neg hy]

theorem below_setEntry {kept closed : Bool} {d₁ d₂ : Node} (hle : d₁.Below d₂) (name : Text)
    (es : List (Text × Node)) :
    (Node.directory kept closed (setEntry name (some d₁) es)).Below
      (.directory kept closed (setEntry name (some d₂) es)) := by
  apply below_directory
  intro y n hn
  rw [lookup_setEntry_some] at hn ⊢
  by_cases hy : y = name
  · rw [if_pos hy] at hn ⊢
    cases hn
    exact ⟨d₂, rfl, hle⟩
  · rw [if_neg hy] at hn ⊢
    exact ⟨n, hn, .refl n⟩

/-- With a lower subtree in a place a tree is below the one with an upper subtree there. -/
theorem set_below_set (h : t.lookup here = some d) {d₁ d₂ : Node} (hle : d₁.Below d₂) :
    (t.set (some d₁) here).Below (t.set (some d₂) here) := by
  induction here generalizing t with
  | nil => cases t <;> exact hle
  | cons name here ih =>
    obtain ⟨kept, closed, es, child, rfl, hchild, hd⟩ := exists_entry h
    rw [set_cons hchild, set_cons hchild]
    cases here with
    | nil => exact below_setEntry hle name es
    | cons name' here => exact below_setEntry (ih hd) name es

/-- A tree is below an upper one in which the empty directory is put where it is in the lower one. -/
theorem Below.set_empty {t' : Node} (hle : t.Below t') (hdistinct : t'.Distinct)
    (h : t.lookup here = some emptyDirectory) :
    t.Below (t'.set (some emptyDirectory) here) := by
  intro l n hn
  obtain ⟨d', hd', -⟩ := hle here _ h
  by_cases hprefix : here <+: l
  · obtain ⟨l', rfl⟩ := hprefix
    rw [lookup_append, h, Option.bind_some] at hn
    cases l' with
    | nil =>
      cases hn
      rw [List.append_nil]
      exact ⟨emptyDirectory, lookup_set_present hd' _, .refl _⟩
    | cons name l' => cases hn
  · obtain ⟨n', hn', hkind⟩ := hle l n hn
    have hshell := lookup_set_apart hd' hdistinct (some emptyDirectory) hprefix
    rw [hn'] at hshell
    obtain ⟨m, hm, hsame⟩ := Option.map_eq_some_iff.mp hshell
    exact ⟨m, hm, hkind.trans (sameKind_of_shell hsame.symm)⟩

theorem emptyDirectory_below (hdir : d.isDirectory) : emptyDirectory.Below d := by
  cases d with
  | file | link => cases hdir
  | directory kept closed es => exact below_directory fun _ _ hn => by cases hn

end ChatCommands.Host.Node
