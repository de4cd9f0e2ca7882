import ChatCommands.Host.FileTree

/-!
What is found in a file tree after a node is put in or taken out.

A tree is below another if each of its nodes is in the other too, as a node of the same kind.  Walks
that come to a node in the lower tree come to the same location in the upper one.  Putting in a node
where there is none leads to an upper tree, and taking one out of a free tree to a lower one.
-/

namespace ChatCommands.Host.Node

variable {t t' : Node} {l l' : Location} {name : Text}

/-! ### Nodes of the same kind -/

/-- The nodes are of the same kind; links of one kind have the same target. -/
def SameKind : Node → Node → Prop
  | .file .., .file .. => True
  | .link _ target, .link _ target' => target = target'
  | .directory .., .directory .. => True
  | _, _ => False

theorem SameKind.refl (n : Node) : n.SameKind n := by
  cases n <;> trivial

theorem SameKind.trans {n₁ n₂ n₃ : Node} (h₁ : n₁.SameKind n₂) (h₂ : n₂.SameKind n₃) :
    n₁.SameKind n₃ := by
  cases n₁ <;> cases n₂ <;> cases n₃ <;> first | trivial | exact absurd h₁ id | exact absurd h₂ id |
    exact Eq.trans h₁ h₂

theorem SameKind.isDirectory {n n' : Node} (h : n.SameKind n') : n'.isDirectory = n.isDirectory := by
  cases n <;> cases n' <;> first | rfl | exact absurd h id

/-- Each node of the first tree is in the second one too. -/
def Below (t t' : Node) : Prop :=
  ∀ l n, t.lookup l = some n → ∃ n', t'.lookup l = some n' ∧ n.SameKind n'

theorem Below.refl (t : Node) : t.Below t := fun _ n h => ⟨n, h, .refl n⟩

theorem Below.trans {t₁ t₂ t₃ : Node} (h₁ : t₁.Below t₂) (h₂ : t₂.Below t₃) : t₁.Below t₃ := by
  intro l n hn
  obtain ⟨n', hn', hkind⟩ := h₁ l n hn
  obtain ⟨n'', hn'', hkind'⟩ := h₂ l n' hn'
  exact ⟨n'', hn'', hkind.trans hkind'⟩

theorem Below.lookup_eq_none (h : t.Below t') (hnone : t'.lookup l = none) : t.lookup l = none := by
  cases hn : t.lookup l with
  | none => rfl
  | some n =>
    obtain ⟨n', hn', -⟩ := h l n hn
    rw [hnone] at hn'
    cases hn'

/-! ### Entries -/

@[simp] theorem lookup_nil (t : Node) : t.lookup [] = some t := by
  cases t <;> rfl

@[simp] theorem lookup_cons (t : Node) (name : Text) (l : Location) :
    t.lookup (name :: l) = (t.entries.lookup name).bind fun child => child.lookup l := by
  cases t <;> rfl

theorem lookup_append (t : Node) (l l' : Location) :
    t.lookup (l ++ l') = (t.lookup l).bind fun n => n.lookup l' := by
  induction l generalizing t with
  | nil => simp
  | cons name l ih =>
    simp only [List.cons_append, lookup_cons]
    cases t.entries.lookup name with
    | none => rfl
    | some child => exact ih child

theorem lookup_entry (x : Text) (n : Node) (es : List (Text × Node)) (y : Text) :
    List.lookup y ((x, n) :: es) = if y = x then some n else es.lookup y := by
  by_cases h : y = x
  · simp [h]
  · rw [List.lookup_cons, beq_false_of_ne h, if_neg h]

theorem lookup_setEntry_some (name : Text) (child : Node) (es : List (Text × Node)) (y : Text) :
    (setEntry name (some child) es).lookup y = if y = name then some child else es.lookup y := by
  induction es with
  | nil => exact lookup_entry name child [] y
  | cons e es ih =>
    obtain ⟨x, n⟩ := e
    by_cases hx : x = name
    · subst hx
      simp only [setEntry, if_true, Option.map_some, Option.toList_some, List.singleton_append,
        lookup_entry]
      split <;> rfl
    · simp only [setEntry, if_neg hx, lookup_entry, ih]
      by_cases hy : y = x
      · rw [if_pos hy, if_pos hy, if_neg (hy ▸ hx)]
      · rw [if_neg hy, if_neg hy]

theorem lookup_eq_none_of_not_mem {es : List (Text × Node)} (h : name ∉ es.map Prod.fst) :
    es.lookup name = none := by
  rw [List.lookup_eq_none_iff]
  intro e he
  exact bne_iff_ne.mpr fun heq => h (heq ▸ List.mem_map_of_mem he)

theorem lookup_of_mem {es : List (Text × Node)} (h : (es.map Prod.fst).Nodup) {e : Text × Node}
    (he : e ∈ es) : es.lookup e.1 = some e.2 := by
  induction es with
  | nil => cases he
  | cons x es ih =>
    rw [List.map_cons, List.nodup_cons] at h
    rw [lookup_entry]
    rcases List.mem_cons.mp he with rfl | he
    · exact if_pos rfl
    · rw [if_neg]
      · exact ih h.2 he
      · exact fun heq => h.1 (heq ▸ List.mem_map_of_mem he)

theorem mem_of_lookup {es : List (Text × Node)} {n : Node} (h : es.lookup name = some n) :
    (name, n) ∈ es := by
  induction es with
  | nil => cases h
  | cons e es ih =>
    obtain ⟨x, m⟩ := e
    rw [lookup_entry] at h
    split at h
    · rename_i heq
      cases h
      rw [heq]
      exact List.mem_cons_self
    · exact List.mem_cons_of_mem _ (ih h)

theorem lookup_setEntry_none {es : List (Text × Node)} (h : (es.map Prod.fst).Nodup) (y : Text) :
    (setEntry name none es).lookup y = if y = name then none else es.lookup y := by
  induction es with
  | nil => simp [setEntry]
  | cons e es ih =>
    obtain ⟨x, n⟩ := e
    rw [List.map_cons, List.nodup_cons] at h
    by_cases hx : x = name
    · subst hx
      simp only [setEntry, if_true, Option.map_none, Option.toList_none, List.nil_append,
        lookup_entry]
      by_cases hy : y = x
      · rw [if_pos hy, hy, lookup_eq_none_of_not_mem h.1]
      · rw [if_neg hy, if_neg hy]
    · simp only [setEntry, if_neg hx, lookup_entry, ih h.2]
      by_cases hy : y = x
      · rw [if_pos hy, if_pos hy, if_neg (hy ▸ hx)]
      · rw [if_neg hy, if_neg hy]

theorem setEntry_keys_subset (name : Text) (child : Option Node) (es : List (Text × Node)) :
    ∀ y ∈ (setEntry name child es).map Prod.fst, y = name ∨ y ∈ es.map Prod.fst := by
  induction es with
  | nil => cases child <;> simp [setEntry]
  | cons e es ih =>
    intro y hy
    by_cases hx : e.1 = name
    · cases child <;> simp_all [setEntry]
    · simp only [setEntry, if_neg hx, List.map_cons, List.mem_cons] at hy ⊢
      rcases hy with hy | hy
      · exact .inr (.inl hy)
      · exact (ih y hy).imp id .inr

theorem setEntry_nodup {es : List (Text × Node)} (h : (es.map Prod.fst).Nodup)
    (child : Option Node) : ((setEntry name child es).map Prod.fst).Nodup := by
  induction es with
  | nil => cases child <;> simp [setEntry]
  | cons e es ih =>
    rw [List.map_cons, List.nodup_cons] at h
    by_cases hx : e.1 = name
    · subst hx
      cases child with
      | none => simpa [setEntry] using h.2
      | some c => simpa [setEntry] using h
    · simp only [setEntry, if_neg hx, List.map_cons, List.nodup_cons]
      refine ⟨fun hmem => ?_, ih h.2⟩
      rcases setEntry_keys_subset name child es _ hmem with heq | hmem
      · exact hx heq
      · exact h.1 hmem

/-! ### Trees without double names -/

/-- No two entries of a directory have one name. -/
def Distinct (t : Node) : Prop := ∀ l n, t.lookup l = some n → (n.entries.map Prod.fst).Nodup

theorem Distinct.entries_nodup {kept closed : Bool} {es : List (Text × Node)}
    (h : (Node.directory kept closed es).Distinct) : (es.map Prod.fst).Nodup :=
  h [] _ (lookup_nil _)

theorem Distinct.lookup (h : t.Distinct) {n : Node} (hn : t.lookup l = some n) : n.Distinct := by
  intro l' m hm
  refine h (l ++ l') m ?_
  rw [lookup_append, hn]
  exact hm

theorem Distinct.child {kept closed : Bool} {es : List (Text × Node)}
    (h : (Node.directory kept closed es).Distinct) {n : Node} (hn : es.lookup name = some n) :
    n.Distinct := by
  have hlookup : (Node.directory kept closed es).lookup [name] = some n := by
    rw [lookup_cons]
    change (es.lookup name).bind _ = _
    rw [hn, Option.bind_some, lookup_nil]
  exact h.lookup hlookup

theorem distinct_directory {kept closed : Bool} {es : List (Text × Node)}
    (hnodup : (es.map Prod.fst).Nodup) (h : ∀ name n, es.lookup name = some n → n.Distinct) :
    (Node.directory kept closed es).Distinct := by
  intro l n hn
  cases l with
  | nil =>
    cases hn
    exact hnodup
  | cons name l =>
    rw [lookup_cons] at hn
    obtain ⟨child, hchild, hn⟩ := Option.bind_eq_some_iff.mp hn
    exact h name child hchild l n hn

theorem distinct_of_mem {kept closed : Bool} {es : List (Text × Node)}
    (hnodup : (es.map Prod.fst).Nodup) (h : ∀ e ∈ es, e.2.Distinct) :
    (Node.directory kept closed es).Distinct :=
  distinct_directory hnodup fun name n hn => h (name, n) (mem_of_lookup hn)

theorem distinct_leaf {n : Node} (h : n.entries = []) : n.Distinct := by
  intro l m hm
  cases l with
  | nil =>
    cases hm
    rw [h]
    exact List.nodup_nil
  | cons name l =>
    rw [lookup_cons, h] at hm
    cases hm

/-- Putting in a tree without double names, or taking a node out, makes no double names. -/
theorem Distinct.set {new : Option Node} (hnew : ∀ n, new = some n → n.Distinct) :
    ∀ {t : Node} (_ : t.Distinct) (l : Location), (t.set new l).Distinct := by
  intro t h l
  induction l generalizing t with
  | nil =>
    cases new with
    | none => simpa [Node.set] using h
    | some n => simpa [Node.set] using hnew n rfl
  | cons name l ih =>
    cases t with
    | file kept content => cases l <;> exact h
    | link kept target => cases l <;> exact h
    | directory kept closed es =>
      cases l with
      | nil =>
        refine distinct_directory (setEntry_nodup h.entries_nodup new) fun y n hn => ?_
        cases new with
        | none =>
          rw [lookup_setEntry_none h.entries_nodup] at hn
          split at hn
          · cases hn
          · exact h.child hn
        | some new =>
          rw [lookup_setEntry_some] at hn
          split at hn
          · cases hn
            exact hnew _ rfl
          · exact h.child hn
      | cons name' l =>
        simp only [Node.set]
        split
        · rename_i child hchild
          refine distinct_directory (setEntry_nodup h.entries_nodup _) fun y n hn => ?_
          rw [lookup_setEntry_some] at hn
          split at hn
          · cases hn
            exact ih (h.child hchild)
          · exact h.child hn
        · exact h

/-! ### Free trees -/

/-- Nothing keeps the node from being removed, once it is empty; if it is a directory, it can be
listed, and its entries have different names. -/
def Mild : Node → Prop
  | .file kept _ | .link kept _ => kept = false
  | .directory kept closed es => kept = false ∧ closed = false ∧ (es.map Prod.fst).Nodup

/-- The file system permits the removal of everything in the tree. -/
def Free (t : Node) : Prop := ∀ l n, t.lookup l = some n → n.Mild

theorem Free.child {kept closed : Bool} {es : List (Text × Node)}
    (h : (Node.directory kept closed es).Free) {n : Node} (hn : es.lookup name = some n) :
    n.Free := by
  intro l m hm
  refine h (name :: l) m ?_
  rw [lookup_cons]
  change (es.lookup name).bind _ = _
  rw [hn]
  exact hm

theorem Free.lookup (h : t.Free) {n : Node} (hn : t.lookup l = some n) : n.Free := by
  intro l' m hm
  refine h (l ++ l') m ?_
  rw [lookup_append, hn]
  exact hm

theorem Free.distinct (h : t.Free) : t.Distinct := by
  intro l n hn
  have hmild := h l n hn
  cases n with
  | file | link => exact List.nodup_nil
  | directory kept closed es => exact hmild.2.2

theorem Free.entries_nodup {kept closed : Bool} {es : List (Text × Node)}
    (h : (Node.directory kept closed es).Free) : (es.map Prod.fst).Nodup :=
  h.distinct.entries_nodup

theorem free_directory {es : List (Text × Node)} (hnodup : (es.map Prod.fst).Nodup)
    (h : ∀ name n, es.lookup name = some n → n.Free) : (Node.directory false false es).Free := by
  intro l n hn
  cases l with
  | nil =>
    cases hn
    exact ⟨rfl, rfl, hnodup⟩
  | cons name l =>
    rw [lookup_cons] at hn
    obtain ⟨child, hchild, hn⟩ := Option.bind_eq_some_iff.mp hn
    exact h name child hchild l n hn

theorem free_emptyDirectory : emptyDirectory.Free :=
  free_directory List.nodup_nil fun _ _ h => nomatch h

theorem free_file (content : Bytes) : (Node.file false content).Free := by
  intro l n hn
  cases l with
  | nil =>
    cases hn
    rfl
  | cons name l => cases hn

/-- Putting a free node into a free tree, or taking one out, leaves the tree free. -/
theorem Free.set {new : Option Node} (hnew : ∀ n, new = some n → n.Free) :
    ∀ {t : Node} (_ : t.Free) (l : Location), (t.set new l).Free := by
  intro t h l
  induction l generalizing t with
  | nil =>
    cases new with
    | none => simpa [Node.set] using h
    | some n => simpa [Node.set] using hnew n rfl
  | cons name l ih =>
    cases t with
    | file kept content => cases l <;> exact h
    | link kept target => cases l <;> exact h
    | directory kept closed es =>
      obtain ⟨hkept, hclosed, hnodup⟩ := h [] _ (lookup_nil _)
      subst hkept hclosed
      cases l with
      | nil =>
        refine free_directory (setEntry_nodup hnodup new) fun y n hn => ?_
        cases new with
        | none =>
          rw [lookup_setEntry_none hnodup] at hn
          split at hn
          · cases hn
          · exact h.child hn
        | some new =>
          rw [lookup_setEntry_some] at hn
          split at hn
          · cases hn
            exact hnew _ rfl
          · exact h.child hn
      | cons name' l =>
        simp only [Node.set]
        split
        · rename_i child hchild
          refine free_directory (setEntry_nodup hnodup _) fun y n hn => ?_
          rw [lookup_setEntry_some] at hn
          split at hn
          · cases hn
            exact ih (h.child hchild)
          · exact h.child hn
        · exact h

/-! ### Putting nodes in and taking them out -/

theorem below_directory {kept closed kept' closed' : Bool} {es es' : List (Text × Node)}
    (h : ∀ y n, es.lookup y = some n → ∃ n', es'.lookup y = some n' ∧ n.Below n') :
    (Node.directory kept closed es).Below (.directory kept' closed' es') := by
  intro l n hn
  cases l with
  | nil =>
    cases hn
    exact ⟨_, lookup_nil _, trivial⟩
  | cons y l =>
    rw [lookup_cons] at hn
    obtain ⟨child, hchild, hn⟩ := Option.bind_eq_some_iff.mp hn
    obtain ⟨child', hchild', hbelow⟩ := h y child hchild
    obtain ⟨n', hn', hkind⟩ := hbelow l n hn
    refine ⟨n', ?_, hkind⟩
    rw [lookup_cons]
    exact Option.bind_eq_some_iff.mpr ⟨child', hchild', hn'⟩

/-- Where there was no node a new one does not change the others. -/
theorem below_set_some {new : Node} (h : t.lookup l = none) : t.Below (t.set (some new) l) := by
  induction l generalizing t with
  | nil => simp at h
  | cons name l ih =>
    cases t with
    | file kept content => cases l <;> exact .refl _
    | link kept target => cases l <;> exact .refl _
    | directory kept closed es =>
      have hname : (es.lookup name).bind (fun child => child.lookup l) = none := by
        rwa [lookup_cons] at h
      cases l with
      | nil =>
        have hnone : es.lookup name = none := by simpa using hname
        refine below_directory fun y n hn => ⟨n, ?_, .refl n⟩
        rw [lookup_setEntry_some, if_neg]
        · exact hn
        · rintro rfl
          rw [hnone] at hn
          cases hn
      | cons name' l =>
        simp only [Node.set]
        split
        · rename_i child hchild
          rw [hchild, Option.bind_some] at hname
          refine below_directory fun y n hn => ?_
          rw [lookup_setEntry_some]
          split
          · rename_i heq
            subst heq
            cases hchild.symm.trans hn
            exact ⟨_, rfl, ih hname⟩
          · exact ⟨n, hn, .refl n⟩
        · exact .refl _

/-- Taking a node out does not change the others. -/
theorem set_none_below (h : t.Distinct) : (t.set none l).Below t := by
  induction l generalizing t with
  | nil => cases t <;> exact .refl _
  | cons name l ih =>
    cases t with
    | file kept content => cases l <;> exact .refl _
    | link kept target => cases l <;> exact .refl _
    | directory kept closed es =>
      cases l with
      | nil =>
        refine below_directory fun y n hn => ?_
        rw [lookup_setEntry_none h.entries_nodup] at hn
        split at hn
        · cases hn
        · exact ⟨n, hn, .refl n⟩
      | cons name' l =>
        simp only [Node.set]
        split
        · rename_i child hchild
          refine below_directory fun y n hn => ?_
          rw [lookup_setEntry_some] at hn
          split at hn
          · rename_i heq
            subst heq
            cases hn
            exact ⟨child, hchild, ih (h.child hchild)⟩
          · exact ⟨n, hn, .refl n⟩
        · exact .refl _

/-- What is taken out is not found any more. -/
theorem lookup_set_none (h : t.Distinct) (hl : l ≠ []) : (t.set none l).lookup l = none := by
  induction l generalizing t with
  | nil => exact absurd rfl hl
  | cons name l ih =>
    cases t with
    | file kept content => cases l <;> rfl
    | link kept target => cases l <;> rfl
    | directory kept closed es =>
      cases l with
      | nil =>
        rw [lookup_cons]
        change (List.lookup name (setEntry name none es)).bind _ = none
        rw [lookup_setEntry_none h.entries_nodup, if_pos rfl, Option.bind_none]
      | cons name' l =>
        simp only [Node.set]
        split
        · rename_i child hchild
          rw [lookup_cons]
          change (List.lookup name (setEntry name _ es)).bind _ = none
          rw [lookup_setEntry_some, if_pos rfl, Option.bind_some]
          exact ih (h.child hchild) (by simp)
        · rename_i hnone
          rw [lookup_cons]
          change (es.lookup name).bind _ = none
          rw [hnone, Option.bind_none]

/-- What is put into a directory is found there. -/
theorem lookup_set_some {new : Node} {kept closed : Bool} {es : List (Text × Node)}
    (h : t.lookup l = some (.directory kept closed es)) :
    (t.set (some new) (l ++ [name])).lookup (l ++ [name]) = some new := by
  induction l generalizing t with
  | nil =>
    cases (lookup_nil t).symm.trans h
    rw [List.nil_append, lookup_cons]
    change (List.lookup name (setEntry name _ es)).bind _ = _
    rw [lookup_setEntry_some, if_pos rfl, Option.bind_some, lookup_nil]
  | cons y l ih =>
    rw [lookup_cons] at h
    obtain ⟨child, hchild, hl⟩ := Option.bind_eq_some_iff.mp h
    cases t with
    | file kept content => cases hchild
    | link kept target => cases hchild
    | directory kept' closed' es' =>
      obtain ⟨y', l', hl'⟩ : ∃ y' l', l ++ [name] = y' :: l' :=
        List.exists_cons_of_ne_nil (by simp)
      rw [List.cons_append, lookup_cons, hl']
      change List.lookup y es' = some child at hchild
      simp only [Node.set, hchild]
      change (List.lookup y (setEntry y _ es')).bind _ = _
      rw [lookup_setEntry_some, if_pos rfl, Option.bind_some, ← hl']
      exact ih hl

/-! ### Walks -/

section

variable {through : Bool} {links : Nat} {here loc : Location} {rest : List Text}
  {kept closed kept' closed' : Bool} {es es' : List (Text × Node)}

theorem lookup_child (h : t.lookup here = some (.directory kept closed es)) (name : Text) :
    t.lookup (here ++ [name]) = es.lookup name := by
  rw [lookup_append, h, Option.bind_some, lookup_cons]
  change (es.lookup name).bind _ = _
  cases es.lookup name <;> simp

theorem Below.directory (h : t.Below t') (hhere : t.lookup here = some (.directory kept closed es)) :
    ∃ kept' closed' es', t'.lookup here = some (.directory kept' closed' es') := by
  obtain ⟨n', hn', hkind⟩ := h here _ hhere
  cases n' with
  | file | link => exact absurd hkind id
  | directory kept' closed' es' => exact ⟨kept', closed', es', hn'⟩

theorem Below.entry (h : t.Below t') (hhere : t.lookup here = some (.directory kept closed es))
    (hhere' : t'.lookup here = some (.directory kept' closed' es')) {n : Node}
    (hn : es.lookup name = some n) : ∃ n', es'.lookup name = some n' ∧ n.SameKind n' := by
  rw [← lookup_child hhere']
  exact h _ n ((lookup_child hhere name).trans hn)

section

variable {follow follow' : List Text → Except Errno Location}

/-- A walk from a directory goes on with the first of the names. -/
theorem walkNames_directory (h : t.lookup here = some (.directory kept closed es)) :
    t.walkNames through follow here (name :: rest) =
      if name = [46, 46] then t.walkNames through follow here.dropLast rest
      else if maxNameSize < Utf8.size name then .error .nameTooLong
      else
        match es.lookup name with
        | none => if rest.isEmpty then .ok (here ++ [name]) else .error .noEntry
        | some (.link _ target) =>
          if rest.isEmpty && !through then .ok (here ++ [name]) else follow (target ++ rest)
        | some _ => t.walkNames through follow (here ++ [name]) rest := by
  rw [walkNames]
  split
  · rename_i hnone
    cases hnone.symm.trans h
  · rename_i hsome
    cases hsome.symm.trans h
    rfl
  · rename_i n hn hsome
    cases hsome.symm.trans h
    exact absurd rfl (hn kept closed es)

theorem walkNames_mono (h : t.Below t') {todo : List Text}
    (hfollow : ∀ todo, follow todo = .ok loc → follow' todo = .ok loc)
    (hwalk : t.walkNames through follow here todo = .ok loc)
    (hloc : t.lookup loc = none → ∀ kept target, t'.lookup loc ≠ some (.link kept target)) :
    t'.walkNames through follow' here todo = .ok loc := by
  fun_induction walkNames t through follow here todo with
  | case1 here => exact hwalk
  | case2 | case4 | case6 | case10 => cases hwalk
  | case3 here rest kept closed es hhere ih =>
    obtain ⟨kept', closed', es', hhere'⟩ := h.directory hhere
    rw [walkNames_directory hhere', if_pos rfl]
    exact ih hwalk
  | case5 here name rest kept closed es hhere hdots hlong hnone hrest =>
    obtain ⟨kept', closed', es', hhere'⟩ := h.directory hhere
    cases hwalk
    rw [lookup_child hhere, lookup_child hhere'] at hloc
    rw [walkNames_directory hhere', if_neg hdots, if_neg hlong]
    cases hn : es'.lookup name with
    | none => simp only [hrest, if_true]
    | some n =>
      cases n with
      | link kept target => exact absurd hn (hloc hnone kept target)
      | file | directory =>
        rw [List.isEmpty_iff.mp hrest]
        rfl
  | case7 here name rest kept closed es hhere hdots hlong keptLink target hlink hlast =>
    obtain ⟨kept', closed', es', hhere'⟩ := h.directory hhere
    obtain ⟨n', hn', hkind⟩ := h.entry hhere hhere' hlink
    rw [walkNames_directory hhere', if_neg hdots, if_neg hlong, hn']
    cases n' with
    | file | directory => exact absurd hkind id
    | link kept' target' =>
      simp only [hlast, if_true]
      exact hwalk
  | case8 here name rest kept closed es hhere hdots hlong keptLink target hlink hlast =>
    obtain ⟨kept', closed', es', hhere'⟩ := h.directory hhere
    obtain ⟨n', hn', hkind⟩ := h.entry hhere hhere' hlink
    rw [walkNames_directory hhere', if_neg hdots, if_neg hlong, hn']
    cases n' with
    | file | directory => exact absurd hkind id
    | link kept' target' =>
      cases hkind
      simp only [hlast, Bool.false_eq_true, if_false]
      exact hfollow _ hwalk
  | case9 here name rest kept closed es hhere hdots hlong n hn hentry ih =>
    obtain ⟨kept', closed', es', hhere'⟩ := h.directory hhere
    obtain ⟨n', hn', hkind⟩ := h.entry hhere hhere' hentry
    rw [walkNames_directory hhere', if_neg hdots, if_neg hlong, hn']
    cases n' with
    | link kept' target' =>
      cases n with
      | file | directory => exact absurd hkind id
      | link kept target => exact absurd rfl (hn kept target)
    | file | directory => exact ih hwalk

/-- The location is that of an entry of this name, or of one that could be made. -/
def EntryOf (t : Node) (name : Text) (loc : Location) : Prop :=
  ∃ parent kept closed es, loc = parent ++ [name] ∧
    t.lookup parent = some (.directory kept closed es)

theorem walkNames_last {xs : List Text} (hname : name ≠ [46, 46])
    (hfollow : ∀ xs, follow (xs ++ [name]) = .ok loc → t.EntryOf name loc)
    (hwalk : t.walkNames false follow here (xs ++ [name]) = .ok loc) : t.EntryOf name loc := by
  generalize htodo : xs ++ [name] = todo at hwalk
  generalize hthrough : false = through at hwalk
  fun_induction walkNames t through follow here todo generalizing xs with
  | case1 => simp at htodo
  | case2 | case4 | case6 | case10 => cases hwalk
  | case3 here rest kept closed es hhere ih =>
    cases xs with
    | nil => exact absurd (List.cons.inj htodo).1 hname
    | cons x xs => exact ih (List.cons.inj htodo).2 hwalk
  | case5 here y rest kept closed es hhere hdots hlong hnone hrest =>
    obtain rfl := List.isEmpty_iff.mp hrest
    obtain rfl : name = y := by simpa using congrArg List.getLast? htodo
    cases hwalk
    exact ⟨here, kept, closed, es, rfl, hhere⟩
  | case7 here y rest kept closed es hhere hdots hlong keptLink target hlink hlast =>
    obtain rfl := List.isEmpty_iff.mp (Bool.and_eq_true_iff.mp hlast).1
    obtain rfl : name = y := by simpa using congrArg List.getLast? htodo
    cases hwalk
    exact ⟨here, kept, closed, es, rfl, hhere⟩
  | case8 here y rest kept closed es hhere hdots hlong keptLink target hlink hlast =>
    subst hthrough
    cases xs with
    | nil =>
      obtain ⟨-, rfl⟩ := List.cons.inj htodo
      exact absurd rfl hlast
    | cons x xs =>
      obtain ⟨-, rfl⟩ := List.cons.inj htodo
      refine hfollow (target ++ xs) ?_
      rw [List.append_assoc]
      exact hwalk
  | case9 here y rest kept closed es hhere hdots hlong n hn hentry ih =>
    cases xs with
    | nil =>
      obtain ⟨rfl, rfl⟩ := List.cons.inj htodo
      cases hwalk
      exact ⟨here, kept, closed, es, rfl, hhere⟩
    | cons x xs => exact ih (List.cons.inj htodo).2 hwalk

theorem walkNames_through {todo : List Text}
    (hfollow : ∀ todo, follow todo = .ok loc → follow' todo = .ok loc)
    (hwalk : t.walkNames false follow here todo = .ok loc)
    (hloc : ∀ kept target, t.lookup loc ≠ some (.link kept target)) :
    t.walkNames true follow' here todo = .ok loc := by
  generalize hthrough : false = through at hwalk
  fun_induction walkNames t through follow here todo with
  | case1 here => exact hwalk
  | case2 | case4 | case6 | case10 => cases hwalk
  | case3 here rest kept closed es hhere ih =>
    rw [walkNames_directory hhere, if_pos rfl]
    exact ih hwalk
  | case5 here y rest kept closed es hhere hdots hlong hnone hrest =>
    rw [walkNames_directory hhere, if_neg hdots, if_neg hlong, hnone]
    simp only [hrest, if_true]
    exact hwalk
  | case7 here y rest kept closed es hhere hdots hlong keptLink target hlink hlast =>
    cases hwalk
    exact absurd ((lookup_child hhere y).trans hlink) (hloc keptLink target)
  | case8 here y rest kept closed es hhere hdots hlong keptLink target hlink hlast =>
    rw [walkNames_directory hhere, if_neg hdots, if_neg hlong, hlink]
    simp only [Bool.not_true, Bool.and_false, Bool.false_eq_true, if_false]
    exact hfollow _ hwalk
  | case9 here y rest kept closed es hhere hdots hlong n hn hentry ih =>
    rw [walkNames_directory hhere, if_neg hdots, if_neg hlong, hentry]
    cases n with
    | link kept target => exact absurd rfl (hn kept target)
    | file | directory => exact ih hwalk

end

/-- **A walk to a node leads to the same location in an upper tree**; so does a walk to nothing,
unless there is a link in the upper tree. -/
theorem walk_mono (h : t.Below t') {todo : List Text}
    (hwalk : t.walk through links here todo = .ok loc)
    (hloc : t.lookup loc = none → ∀ kept target, t'.lookup loc ≠ some (.link kept target)) :
    t'.walk through links here todo = .ok loc := by
  induction links generalizing here todo with
  | zero => exact walkNames_mono h (fun _ h => h) hwalk hloc
  | succ links ih => exact walkNames_mono h (fun _ hw => ih hw) hwalk hloc

/-- The last name of a walk that does not follow it is the last name of the location. -/
theorem walk_last {xs : List Text} (hname : name ≠ [46, 46])
    (hwalk : t.walk false links here (xs ++ [name]) = .ok loc) : t.EntryOf name loc := by
  induction links generalizing here xs with
  | zero => exact walkNames_last hname (fun _ h => by cases h) hwalk
  | succ links ih => exact walkNames_last hname (fun _ hw => ih hw) hwalk

/-- A walk to what is no link ends there also if the last link is followed. -/
theorem walk_through {todo : List Text} (hwalk : t.walk false links here todo = .ok loc)
    (hloc : ∀ kept target, t.lookup loc ≠ some (.link kept target)) :
    t.walk true links here todo = .ok loc := by
  induction links generalizing here todo with
  | zero => exact walkNames_through (fun _ h => h) hwalk hloc
  | succ links ih => exact walkNames_through (fun _ hw => ih hw) hwalk hloc

end

/-! ### What a location leads to -/

theorem find_eq_ok_iff {through : Bool} {n : Node} :
    t.find through l = .ok n ↔ ∃ real, t.resolve through l = .ok real ∧ t.lookup real = some n := by
  unfold find
  cases t.resolve through l with
  | error e => simp [bind, Except.bind]
  | ok real => cases h : t.lookup real <;> simp [bind, Except.bind, h]

theorem create_eq_ok {new : Node} (h : t.create l new = .ok t') :
    ∃ real, t.resolve false l = .ok real ∧ t.lookup real = none ∧ t' = t.set (some new) real := by
  unfold create at h
  cases hreal : t.resolve false l with
  | error e => simp [hreal, bind, Except.bind] at h
  | ok real =>
    cases hnone : t.lookup real with
    | some n => simp [hreal, hnone, bind, Except.bind] at h
    | none =>
      simp only [hreal, hnone, bind, Except.bind, Except.ok.injEq] at h
      exact ⟨real, rfl, hnone, h.symm⟩

theorem Below.find_directory (h : t.Below t') {n : Node} (hn : t.find false l = .ok n)
    (hdir : n.isDirectory) : ∃ n', t'.find false l = .ok n' ∧ n'.isDirectory := by
  obtain ⟨real, hreal, hn⟩ := find_eq_ok_iff.mp hn
  obtain ⟨n', hn', hkind⟩ := h real n hn
  refine ⟨n', find_eq_ok_iff.mpr ⟨real, ?_, hn'⟩, hkind.isDirectory.trans hdir⟩
  refine walk_mono h hreal fun hnone => ?_
  rw [hn] at hnone
  cases hnone

end ChatCommands.Host.Node

namespace ChatCommands.Host.FileSystem

/-! ### File systems -/

variable {fs fs' : FileSystem} {p : Path}

/-- There is a directory at the path. -/
def HasDirectory (fs : FileSystem) (p : Path) : Prop :=
  ∃ n, fs.tree.find false (fs.locate p) = .ok n ∧ n.isDirectory

/-- There is nothing at the path, not even a link. -/
def Absent (fs : FileSystem) (p : Path) : Prop := ∀ n, fs.tree.find false (fs.locate p) ≠ .ok n

/-- There is nothing but a directory at the path. -/
def AtMostDirectory (fs : FileSystem) (p : Path) : Prop :=
  ∀ n, fs.tree.find false (fs.locate p) = .ok n → n.isDirectory

theorem HasDirectory.atMostDirectory (h : fs.HasDirectory p) : fs.AtMostDirectory p := by
  obtain ⟨n, hn, hdir⟩ := h
  intro n' hn'
  cases hn.symm.trans hn'
  exact hdir

/-- Nodes were put in where there were none. -/
structure Grown (fs fs' : FileSystem) : Prop where
  below : fs.tree.Below fs'.tree
  free : fs.tree.Free → fs'.tree.Free
  workingDirectory : fs'.workingDirectory = fs.workingDirectory

theorem Grown.refl (fs : FileSystem) : fs.Grown fs := ⟨.refl _, id, rfl⟩

theorem Grown.trans {fs₁ fs₂ fs₃ : FileSystem} (h₁ : fs₁.Grown fs₂) (h₂ : fs₂.Grown fs₃) :
    fs₁.Grown fs₃ :=
  ⟨h₁.below.trans h₂.below, h₂.free ∘ h₁.free, h₂.workingDirectory.trans h₁.workingDirectory⟩

theorem Grown.locate (h : fs.Grown fs') (p : Path) : fs'.locate p = fs.locate p := by
  unfold FileSystem.locate
  rw [h.workingDirectory]

theorem Grown.hasDirectory (h : fs.Grown fs') (hp : fs.HasDirectory p) : fs'.HasDirectory p := by
  obtain ⟨n, hn, hdir⟩ := hp
  unfold HasDirectory
  rw [h.locate]
  exact h.below.find_directory hn hdir

theorem grown_create {l : Location} {new tree : Node} (hnew : new.Free)
    (h : fs.tree.create l new = .ok tree) : fs.Grown { fs with tree } := by
  obtain ⟨real, -, hnone, rfl⟩ := Node.create_eq_ok h
  exact ⟨Node.below_set_some hnone, fun hfree =>
    Node.Free.set (fun n hn => Option.some.inj hn ▸ hnew) hfree real, rfl⟩

theorem grown_makeDirectory {path : Path} (h : fs.makeDirectory path = .ok fs') :
    fs.Grown fs' := by
  unfold makeDirectory at h
  split at h
  · rename_i tree hcreated
    cases h
    exact grown_create Node.free_emptyDirectory hcreated
  · split at h
    · cases h
      exact .refl fs
    · cases h

theorem grown_makeDirectories {root : Text} {reversed : List Text}
    (h : fs.makeDirectories root reversed = .ok fs') : fs.Grown fs' := by
  induction reversed generalizing fs' with
  | nil =>
    cases h
    exact .refl fs
  | cons name above ih =>
    unfold makeDirectories at h
    simp only [] at h
    split at h
    · exact grown_makeDirectory h
    · split at h
      · split at h
        · exact grown_makeDirectory h
        · cases h
      · rename_i fs₂ hmade
        exact (ih hmade).trans (grown_makeDirectory h)

end ChatCommands.Host.FileSystem
