import ChatCommands.Host.Basic
import ChatCommands.Proofs.Host.FileTree
import ChatCommands.Sandbox.Scratch

/-!
Scratch directories come and go.

Making one, writing the script and what a process leaves behind put nodes in where there were none.
If the file system permits every removal, removing a scratch directory leaves nothing at its path.
-/

namespace ChatCommands.Sandbox

open Host FileSystem

/-! ### Removal takes nodes out -/

section

variable {id : Text} {path : Path} {base below l real : Location} {t t' : Node}

/-- Nodes were taken out. -/
structure Shrunk (t t' : Node) : Prop where
  below : t.Distinct → t'.Below t
  distinct : t.Distinct → t'.Distinct
  free : t.Free → t'.Free

theorem Shrunk.refl (t : Node) : Shrunk t t := ⟨fun _ => .refl t, id, id⟩

theorem Shrunk.trans {t₁ t₂ t₃ : Node} (h₁ : Shrunk t₁ t₂) (h₂ : Shrunk t₂ t₃) : Shrunk t₁ t₃ :=
  ⟨fun h => (h₂.below (h₁.distinct h)).trans (h₁.below h), h₂.distinct ∘ h₁.distinct,
    h₂.free ∘ h₁.free⟩

theorem shrunk_set_none (t : Node) (l : Location) : Shrunk t (t.set none l) :=
  ⟨Node.set_none_below, fun h => h.set (fun _ hn => by cases hn) l,
    fun h => h.set (fun _ hn => by cases hn) l⟩

theorem unlinkHere_eq_ok (h : t.unlinkHere real = .ok t') : t' = t.set none real := by
  unfold Node.unlinkHere at h
  split at h
  · cases h
  · cases h
  all_goals
    split at h
    · cases h
    · exact (Except.ok.inj h).symm

theorem removeDirectoryHere_eq_ok (h : t.removeDirectoryHere real = .ok t') :
    t' = t.set none real := by
  unfold Node.removeDirectoryHere at h
  split at h
  · cases h
  · split at h
    · cases h
    · split at h
      · cases h
      · exact (Except.ok.inj h).symm
  · cases h

theorem shrunk_fileRemoval (t : Node) (description : Text) (path : Path) :
    Shrunk t (fileRemoval t (unlinkBelow t base below) id description path).left := by
  unfold fileRemoval
  split
  · rename_i t' hunlinked
    unfold unlinkBelow at hunlinked
    cases hreal : resolveBelow t false base below with
    | error e =>
      rw [hreal] at hunlinked
      cases hunlinked
    | ok real =>
      rw [hreal] at hunlinked
      rw [unlinkHere_eq_ok hunlinked]
      exact shrunk_set_none t real
  · exact .refl t
  · exact .refl t

theorem shrunk_directoryRemoval (inner : Removal Node) (path : Path) :
    Shrunk inner.left
      (directoryRemoval inner (removeDirectoryBelow inner.left base below) id path).left := by
  unfold directoryRemoval
  split
  · rename_i t' hremoved
    unfold removeDirectoryBelow at hremoved
    cases hreal : resolveBelow inner.left false base below with
    | error e =>
      rw [hreal] at hremoved
      cases hremoved
    | ok real =>
      rw [hreal] at hremoved
      rw [removeDirectoryHere_eq_ok hremoved]
      exact shrunk_set_none inner.left real
  · exact .refl _
  · exact .refl _

mutual

theorem shrunk_removeDirectory (id : Text) (base : Location) (t : Node) (below : Location)
    (path : Path) (n : Node) :
    Shrunk t (removeDirectory id base t below path n).left := by
  cases n with
  | file | link => exact .refl t
  | directory kept closed es =>
    unfold removeDirectory
    split
    · exact (shrunk_removeEntries id base t below path es).trans (shrunk_directoryRemoval _ path)
    · exact .refl t
    · exact .refl t

theorem shrunk_removeEntries (id : Text) (base : Location) (t : Node) (below : Location)
    (path : Path) (es : List (Text × Node)) :
    Shrunk t (removeEntries id base t below path es).left := by
  match es with
  | [] => exact .refl t
  | (name, n) :: rest =>
    unfold removeEntries
    refine Shrunk.trans ?_ (shrunk_removeEntries id base _ below path rest)
    split
    · exact shrunk_removeDirectory id base t (below ++ [name]) (path.child name) n
    · exact shrunk_fileRemoval t (text "scratch file") (path.child name)

end

theorem shrunk_removeAt (t : Node) (l : Location) (id : Text) (path : Path) :
    Shrunk t (removeAt t l id path).left := by
  unfold removeAt
  split
  · exact shrunk_removeDirectory id l t [] path _
  · exact .refl t
  · exact .refl t

/-! ### The way to the directory -/

/-- The location leads to the directory at `real`. -/
structure At (t : Node) (base real : Location) : Prop where
  resolved : t.resolve false base = .ok real
  directory : ∃ kept closed es, t.lookup real = some (.directory kept closed es)

theorem At.mono (hat : At t base real) (h : t.Below t') : At t' base real := by
  obtain ⟨kept, closed, es, hdir⟩ := hat.directory
  refine ⟨Node.walk_mono h hat.resolved fun hnone => ?_, h.directory hdir⟩
  rw [hdir] at hnone
  cases hnone

theorem At.resolve (hat : At t base real) (through : Bool) : t.resolve through base = .ok real := by
  cases through with
  | false => exact hat.resolved
  | true =>
    obtain ⟨kept, closed, es, hdir⟩ := hat.directory
    refine Node.walk_through hat.resolved fun kept target hlink => ?_
    rw [hdir] at hlink
    cases hlink

theorem At.resolveBelow (hat : At t base real) (through : Bool) (below : Location) :
    resolveBelow t through base below = .ok (real ++ below) := by
  unfold Sandbox.resolveBelow
  rw [hat.resolve]
  rfl

theorem At.findBelow (hat : At t base real) (through : Bool) {n : Node}
    (hn : t.lookup (real ++ below) = some n) : findBelow t through base below = .ok n := by
  unfold Sandbox.findBelow
  rw [hat.resolveBelow]
  simp only [bind, Except.bind, hn]

theorem At.listBelow (hat : At t base real) {kept : Bool} {es : List (Text × Node)}
    (hn : t.lookup (real ++ below) = some (.directory kept false es)) :
    listBelow t base below = .ok (es.map (·.1)) := by
  unfold Sandbox.listBelow
  rw [hat.findBelow true hn]
  rfl

theorem At.unlinkBelow (hat : At t base real) (below : Location) :
    unlinkBelow t base below = t.unlinkHere (real ++ below) := by
  unfold Sandbox.unlinkBelow
  rw [hat.resolveBelow]
  rfl

theorem At.removeDirectoryBelow (hat : At t base real) (below : Location) :
    removeDirectoryBelow t base below = t.removeDirectoryHere (real ++ below) := by
  unfold Sandbox.removeDirectoryBelow
  rw [hat.resolveBelow]
  rfl

theorem At.hasDirectoryBelow (hat : At t base real) {n : Node}
    (hn : t.lookup (real ++ below) = some n) : hasDirectoryBelow t base below = n.isDirectory := by
  unfold Sandbox.hasDirectoryBelow
  rw [hat.findBelow false hn]

/-! ### Removal where everything can be removed -/

theorem lookup_below_child {kept closed : Bool} {es : List (Text × Node)} {below : Location}
    (h : t.lookup (real ++ below) = some (.directory kept closed es)) (name : Text) :
    t.lookup (real ++ (below ++ [name])) = es.lookup name := by
  rw [← List.append_assoc]
  exact Node.lookup_child h name

theorem unlinkHere_of_mild {n : Node} (hn : t.lookup real = some n) (hmild : n.Mild)
    (hdir : n.isDirectory = false) : t.unlinkHere real = .ok (t.set none real) := by
  unfold Node.unlinkHere
  rw [hn]
  cases n with
  | directory => cases hdir
  | file kept content =>
    obtain rfl : kept = false := hmild
    rfl
  | link kept target =>
    obtain rfl : kept = false := hmild
    rfl

/-- A directory is gone if it was empty and free. -/
theorem directoryRemoval_gone {inner : Removal Node} (hfree : inner.left.Free)
    (hat : At inner.left base real) (hne : real ++ below ≠ [])
    (hempty : ∀ n, inner.left.lookup (real ++ below) = some n → n.isDirectory ∧ n.entries = []) :
    (directoryRemoval inner (removeDirectoryBelow inner.left base below) id path).left.lookup
      (real ++ below) = none := by
  rw [hat.removeDirectoryBelow, Node.removeDirectoryHere]
  cases hn : inner.left.lookup (real ++ below) with
  | none => exact hn
  | some n =>
    obtain ⟨hdir, hentries⟩ := hempty n hn
    cases n with
    | file | link => cases hdir
    | directory kept closed es =>
      obtain ⟨rfl, -, -⟩ := hfree _ _ hn
      obtain rfl : es = [] := hentries
      exact Node.lookup_set_none hfree.distinct hne

mutual

/-- A directory is gone afterwards, if its location leads there still. -/
theorem removeDirectory_gone {t₀ : Node} (hdistinct : t₀.Distinct) (hreal : real ≠ []) {t : Node}
    (hfree : t.Free) (hle : t.Below t₀) (below : Location) (path : Path) (n : Node)
    (hn : t₀.lookup (real ++ below) = some n) (hdir : n.isDirectory)
    (hat : At (removeDirectory id base t below path n).left base real) :
    (removeDirectory id base t below path n).left.lookup (real ++ below) = none := by
  have hshrunk := shrunk_removeDirectory id base t below path n
  cases hlookup : t.lookup (real ++ below) with
  | none => exact (hshrunk.below hfree.distinct).lookup_eq_none hlookup
  | some n₁ =>
    obtain ⟨n', hn', hkind⟩ := hle _ n₁ hlookup
    obtain rfl := Option.some.inj (hn.symm.trans hn')
    cases n with
    | file | link => cases hdir
    | directory kept closed es =>
      cases n₁ with
      | file | link => exact hkind.elim
      | directory kept₁ closed₁ es₁ =>
        obtain ⟨-, rfl, -⟩ := hfree _ _ hlookup
        have hlist := (hat.mono (hshrunk.below hfree.distinct)).listBelow hlookup
        rw [removeDirectory] at hat ⊢
        simp only [hlist] at hat ⊢
        have hinner := shrunk_removeEntries id base t below path es
        have hat₁ := hat.mono ((shrunk_directoryRemoval _ path).below (hinner.distinct hfree.distinct))
        have hgone := removeEntries_gone hdistinct hreal hfree hle below path es
          (fun e he => (lookup_below_child hn e.1).trans
            (Node.lookup_of_mem (hdistinct _ _ hn) he)) hat₁
        generalize removeEntries id base t below path es = inner at *
        exact directoryRemoval_gone (hinner.free hfree) hat₁ (by simp [hreal]) fun n₂ hn₂ => by
          have hle' := (hinner.below hfree.distinct).trans hle
          obtain ⟨n', hn', hkind⟩ := hle' _ n₂ hn₂
          obtain rfl := Option.some.inj (hn.symm.trans hn')
          cases n₂ with
          | file | link => exact hkind.elim
          | directory kept₂ closed₂ es₂ =>
            refine ⟨rfl, List.eq_nil_iff_forall_not_mem.mpr fun e he => ?_⟩
            -- an entry that is left was there before, and so it was removed
            have hleft := (lookup_below_child hn₂ e.1).trans
              (Node.lookup_of_mem (hinner.distinct hfree.distinct _ _ hn₂) he)
            obtain ⟨m, hm, -⟩ := hle' _ _ hleft
            rw [lookup_below_child hn] at hm
            rw [hgone (e.1, m) (Node.mem_of_lookup hm)] at hleft
            cases hleft

theorem removeEntries_gone {t₀ : Node} (hdistinct : t₀.Distinct) (hreal : real ≠ []) {t : Node}
    (hfree : t.Free) (hle : t.Below t₀) (below : Location) (path : Path) (es : List (Text × Node))
    (hes : ∀ e ∈ es, t₀.lookup (real ++ (below ++ [e.1])) = some e.2)
    (hat : At (removeEntries id base t below path es).left base real) :
    ∀ e ∈ es, (removeEntries id base t below path es).left.lookup (real ++ (below ++ [e.1])) =
      none := by
  match es with
  | [] => exact fun _ he => nomatch he
  | (name, n) :: rest =>
    have hn := hes (name, n) List.mem_cons_self
    rw [removeEntries] at hat ⊢
    generalize hone : (if hasDirectoryBelow t base (below ++ [name]) = true then
      removeDirectory id base t (below ++ [name]) (path.child name) n
      else fileRemoval t (unlinkBelow t base (below ++ [name])) id (text "scratch file")
        (path.child name)) = one at hat ⊢
    have hothers := shrunk_removeEntries id base one.left below path rest
    have hshrunk : Shrunk t one.left := by
      rw [← hone]
      split
      · exact shrunk_removeDirectory id base t (below ++ [name]) (path.child name) n
      · exact shrunk_fileRemoval t _ (path.child name)
    have hat₁ : At one.left base real := hat.mono (hothers.below (hshrunk.distinct hfree.distinct))
    have hat₀ : At t base real := hat₁.mono (hshrunk.below hfree.distinct)
    have hgone : one.left.lookup (real ++ (below ++ [name])) = none := by
      cases hlookup : t.lookup (real ++ (below ++ [name])) with
      | none => exact (hshrunk.below hfree.distinct).lookup_eq_none hlookup
      | some n₁ =>
        obtain ⟨n', hn', hkind⟩ := hle _ n₁ hlookup
        obtain rfl := Option.some.inj (hn.symm.trans hn')
        rw [hat₀.hasDirectoryBelow hlookup] at hone
        by_cases hdir : n₁.isDirectory
        · rw [if_pos hdir] at hone
          rw [← hone] at hat₁ ⊢
          exact removeDirectory_gone hdistinct hreal hfree hle (below ++ [name]) (path.child name) n hn
            (hkind.isDirectory.trans hdir) hat₁
        · rw [if_neg hdir, hat₀.unlinkBelow, unlinkHere_of_mild hlookup (hfree _ _ hlookup)
            (by simpa using hdir)] at hone
          rw [← hone]
          exact Node.lookup_set_none hfree.distinct (by simp)
    intro e he
    rcases List.mem_cons.mp he with rfl | he
    · exact (hothers.below (hshrunk.distinct hfree.distinct)).lookup_eq_none hgone
    · exact removeEntries_gone hdistinct hreal (hshrunk.free hfree)
        ((hshrunk.below hfree.distinct).trans hle) below path rest
        (fun e he => hes e (List.mem_cons_of_mem _ he)) hat e he

end

end

theorem locate_child (fs : FileSystem) (root : Path) (name : Text) :
    ∃ xs, fs.locate (root.child name) = xs ++ [name] := by
  unfold FileSystem.locate Path.child
  split
  · exact ⟨root.names, rfl⟩
  · exact ⟨fs.workingDirectory ++ root.names, (List.append_assoc _ _ _).symm⟩

/-- **If the file system permits every removal**, nothing is left at the path of a scratch directory
once it is removed. -/
theorem removeScratch_absent {fs : FileSystem} {id : Text} {root : Path} {name : Text}
    (hfree : fs.tree.Free) (hname : name ≠ [46, 46])
    (hdir : fs.AtMostDirectory (root.child name)) :
    (removeScratch fs id (root.child name)).left.Absent (root.child name) := by
  intro n hn
  change (removeAt fs.tree (fs.locate (root.child name)) id (root.child name)).left.find false
    (fs.locate (root.child name)) = .ok n at hn
  obtain ⟨real, hwalk, hn⟩ := Node.find_eq_ok_iff.mp hn
  have hle := (shrunk_removeAt fs.tree (fs.locate (root.child name)) id (root.child name)).below
    hfree.distinct
  obtain ⟨n₀, hn₀, hkind⟩ := hle real n hn
  have hwalk₀ : fs.tree.resolve false (fs.locate (root.child name)) = .ok real :=
    Node.walk_mono hle hwalk fun hnone => by rw [hn] at hnone; cases hnone
  have hdir₀ := hdir n₀ (Node.find_eq_ok_iff.mpr ⟨real, hwalk₀, hn₀⟩)
  have hdirectory : n.isDirectory := hkind.isDirectory.symm.trans hdir₀
  have hat : At (removeAt fs.tree (fs.locate (root.child name)) id (root.child name)).left
      (fs.locate (root.child name)) real := by
    cases n with
    | file | link => cases hdirectory
    | directory kept closed es => exact ⟨hwalk, kept, closed, es, hn⟩
  have hne : real ≠ [] := by
    obtain ⟨xs, hxs⟩ := locate_child fs root name
    have hlast : fs.tree.walk false maxLinks [] (xs ++ [name]) = .ok real := hxs ▸ hwalk₀
    obtain ⟨parent, -, -, -, rfl, -⟩ := Node.walk_last hname hlast
    simp
  have hremoved : removeAt fs.tree (fs.locate (root.child name)) id (root.child name) =
      removeDirectory id (fs.locate (root.child name)) fs.tree [] (root.child name) n₀ := by
    unfold removeAt
    rw [Node.find_eq_ok_iff.mpr ⟨real, (hat.mono hle).resolve true, hn₀⟩]
  rw [hremoved] at hat hn
  have hgone := removeDirectory_gone hfree.distinct hne hfree (.refl fs.tree) [] (root.child name) n₀
    (by rwa [List.append_nil]) hdir₀ hat
  rw [List.append_nil, hn] at hgone
  cases hgone

/-! ### Making and filling -/

theorem scratchName_ne_dots (n : Nat) : scratchName n ≠ [46, 46] := by
  intro h
  have hhead := congrArg List.head? h
  simp [scratchName, scratchMark, text] at hhead

section

variable {fs fs' : FileSystem}

/-- A sequence of computations ends well only if its parts do. -/
theorem bind_eq_ok {ε α β : Type} {x : Except ε α} {f : α → Except ε β} {b : β}
    (h : x >>= f = .ok b) : ∃ a, x = .ok a ∧ f a = .ok b := by
  cases x with
  | error e => cases h
  | ok a => exact ⟨a, rfl, h⟩

/-- A directory that was put in is found where it was put. -/
theorem create_way {tree tree' new : Node} {xs : List Text} {name : Text}
    (hname : name ≠ [46, 46]) (hnew : new.isDirectory)
    (h : tree.create (xs ++ [name]) new = .ok tree') :
    ∃ real, real ≠ [] ∧ tree'.resolve false (xs ++ [name]) = .ok real ∧
      tree'.lookup real = some new := by
  obtain ⟨real, hreal, hnone, rfl⟩ := Node.create_eq_ok h
  have hwalk : tree.walk false maxLinks [] (xs ++ [name]) = .ok real := hreal
  obtain ⟨parent, kept, closed, es, rfl, hparent⟩ := Node.walk_last hname hwalk
  have hlookup : (tree.set (some new) (parent ++ [name])).lookup (parent ++ [name]) = some new :=
    Node.lookup_set_some hparent
  refine ⟨parent ++ [name], by simp, ?_, hlookup⟩
  refine Node.walk_mono (Node.below_set_some hnone) hreal fun _ kept target hlink => ?_
  cases hlookup.symm.trans hlink
  cases hnew

theorem create_find {tree tree' new : Node} {xs : List Text} {name : Text}
    (hname : name ≠ [46, 46]) (hnew : new.isDirectory)
    (h : tree.create (xs ++ [name]) new = .ok tree') :
    ∃ n, tree'.find false (xs ++ [name]) = .ok n ∧ n.isDirectory := by
  obtain ⟨real, -, hway, hlookup⟩ := create_way hname hnew h
  exact ⟨new, Node.find_eq_ok_iff.mpr ⟨real, hway, hlookup⟩, hnew⟩

/-- **Making a scratch directory** puts a directory where there was nothing. -/
theorem createScratch_ok {root path : Path} {count count' : Nat}
    (h : createScratch fs root count = .ok (path, count', fs')) :
    ∃ n, path = root.child (scratchName n) ∧ fs.Absent path ∧ fs.Grown fs' ∧
      fs'.HasDirectory path := by
  unfold createScratch at h
  obtain ⟨fs₁, hmade, h⟩ := bind_eq_ok h
  obtain ⟨fs₂, hupdate, h⟩ := bind_eq_ok h
  cases h
  have hgrown := grown_makeDirectories hmade
  generalize freeNumber _ _ = n at hupdate ⊢
  obtain ⟨xs, hxs⟩ := locate_child fs₁ root (scratchName n)
  cases hcreated : fs₁.tree.create (fs₁.locate (root.child (scratchName n))) .emptyDirectory with
  | error e =>
    rw [hcreated] at hupdate
    cases hupdate
  | ok tree =>
    rw [hcreated] at hupdate
    cases hupdate
    refine ⟨n, rfl, ?_, hgrown.trans (grown_create Node.free_emptyDirectory hcreated), ?_⟩
    · intro m hm
      obtain ⟨real, hreal, hnone, -⟩ := Node.create_eq_ok hcreated
      obtain ⟨here, hhere, hm⟩ := Node.find_eq_ok_iff.mp hm
      have hhere' := Node.walk_mono hgrown.below hhere fun hnone => by rw [hm] at hnone; cases hnone
      rw [← hgrown.locate] at hhere'
      cases hreal.symm.trans hhere'
      obtain ⟨m', hm', -⟩ := hgrown.below _ m hm
      rw [hnone] at hm'
      cases hm'
    · unfold FileSystem.HasDirectory
      have hfound := create_find (scratchName_ne_dots n) rfl (hxs ▸ hcreated)
      rwa [← hxs] at hfound

theorem grown_writeScript (path : Path) (code : Text) : fs.Grown (writeScript fs path code).2 := by
  unfold writeScript
  split
  · rename_i tree hcreated
    exact grown_create (Node.free_file _) hcreated
  · exact .refl fs

theorem grown_leaveFiles (directory : Path) (files : List Location) :
    fs.Grown (leaveFiles fs directory files) := by
  induction files generalizing fs with
  | nil => exact .refl fs
  | cons names files ih =>
    refine Grown.trans ?_ ih
    simp only []
    split
    · rename_i fs₁ hmade
      have hgrown := grown_makeDirectories hmade
      split
      · rename_i tree hcreated
        exact hgrown.trans (grown_create (Node.free_file _) hcreated)
      · exact hgrown
    · exact .refl fs

end

end ChatCommands.Sandbox
