import ChatCommands.Proofs.Concurrency.AtOnce
import ChatCommands.Proofs.Host.Remains
import ChatCommands.Proofs.Sandbox.Scratch
import ChatCommands.Sandbox.Supervision

/-!
What is left of a scratch directory.

The removal goes through a directory call by call.  Whatever refuses to be listed or to be removed
stays, with all that is above it in the directory, and with all that is under it if it cannot be
listed; everything else goes, and nothing outside the directory is touched.
-/

namespace ChatCommands.Sandbox

open Concurrency Host FileSystem

/-! ### A removal, call by call -/

/-- A removal has left a tree behind; it was told to be complete, and nothing was logged, just if
`gone` is true. -/
structure Removal.Left (r : Removal Node) (tree : Node) (gone : Bool) : Prop where
  left : r.left = tree
  ok : r.ok = gone
  records : r.records.isEmpty = gone

section

variable {id : Text} {path : Path} {base here below : Location} {t : Node}

/-- Whatever directory stands at the place, the location leads to the directory above it. -/
def Steady (t : Node) (base here below : Location) : Prop :=
  ∀ d : Node, d.isDirectory → At (t.set (some d) (here ++ below)) base here

theorem Steady.at {n : Node} (h : Steady t base here below)
    (hn : t.lookup (here ++ below) = some n) (hdir : n.isDirectory) : At t base here := by
  have hat := h n hdir
  rwa [Node.set_self hn] at hat

theorem Steady.set {n d : Node} (h : Steady t base here below)
    (hn : t.lookup (here ++ below) = some n) (hne : here ++ below ≠ []) :
    Steady (t.set (some d) (here ++ below)) base here below := by
  intro d' hdir
  rw [Node.set_set hn hne]
  exact h d' hdir

theorem Steady.child {kept closed : Bool} {es : List (Text × Node)}
    (h : Steady t base here below)
    (hn : t.lookup (here ++ below) = some (.directory kept closed es)) (name : Text) :
    Steady t base here (below ++ [name]) := by
  intro d' _
  rw [← List.append_assoc, Node.set_append hn (List.cons_ne_nil _ _)]
  exact h _ rfl

/-- Unlinking a file or a link takes it out unless it is kept. -/
theorem unlinkHere_left {n : Node} {real : Location} (hn : t.lookup real = some n)
    (hdir : n.isDirectory = false) (description : Text) :
    (fileRemoval t (t.unlinkHere real) id description path).Left (t.set n.remains real)
      n.remains.isNone := by
  cases n with
  | directory => cases hdir
  | file kept content =>
    rw [Node.unlinkHere, hn, Node.remains]
    cases kept with
    | false => exact ⟨rfl, rfl, rfl⟩
    | true => exact ⟨(Node.set_self hn).symm, rfl, rfl⟩
  | link kept target =>
    rw [Node.unlinkHere, hn, Node.remains]
    cases kept with
    | false => exact ⟨rfl, rfl, rfl⟩
    | true => exact ⟨(Node.set_self hn).symm, rfl, rfl⟩

/-- Removing a directory takes it out if it is empty and not kept. -/
theorem directoryRemoval_left {inner : Removal Node} {kept : Bool} {es : List (Text × Node)}
    (hat : At inner.left base here)
    (hn : inner.left.lookup (here ++ below) = some (.directory kept false es))
    (hok : inner.ok = es.isEmpty) (hrecords : inner.records.isEmpty = es.isEmpty) :
    (directoryRemoval inner (removeDirectoryBelow inner.left base below) id path).Left
      (inner.left.set (if kept || !es.isEmpty then some (.directory kept false es) else none)
        (here ++ below))
      (if kept || !es.isEmpty then some (Node.directory kept false es) else none).isNone := by
  rw [hat.removeDirectoryBelow, Node.removeDirectoryHere, hn]
  cases es with
  | cons e es =>
    have hleft : (kept || !(e :: es).isEmpty) = true := Bool.or_true kept
    rw [hleft, if_pos rfl, Node.set_self hn]
    exact ⟨rfl, rfl, by simp [directoryRemoval]⟩
  | nil =>
    cases kept with
    | true =>
      rw [Bool.true_or, if_pos rfl, Node.set_self hn]
      exact ⟨rfl, rfl, by simp [directoryRemoval]⟩
    | false => exact ⟨rfl, hok, hrecords⟩

mutual

/-- **A directory is removed but for what remains of it**, and the answer tells whether anything
does. -/
theorem removeDirectory_left (id : Text) {t : Node} {below : Location} (path : Path) {n : Node}
    (hsteady : Steady t base here below) (hne : here ++ below ≠ [])
    (hn : t.lookup (here ++ below) = some n) (hdir : n.isDirectory) (hdistinct : n.Distinct) :
    (removeDirectory id base t below path n).Left (t.set n.remains (here ++ below))
      n.remains.isNone := by
  cases n with
  | file | link => cases hdir
  | directory kept closed es =>
    have hat := hsteady.at hn rfl
    cases closed with
    | true =>
      have hlist : listBelow t base below = .error .refused := by
        unfold listBelow
        rw [hat.findBelow true hn]
        rfl
      rw [removeDirectory, hlist, Node.remains, if_pos rfl, Node.set_self hn]
      exact ⟨rfl, rfl, rfl⟩
    | false =>
      have hinner := removeEntries_left id path hsteady hne [] es hn hdistinct.entries_nodup
        fun e he => hdistinct.child (Node.lookup_of_mem hdistinct.entries_nodup he)
      rw [removeDirectory, hat.listBelow hn]
      dsimp only
      generalize removeEntries id base t below path es = inner at hinner ⊢
      have hn' : inner.left.lookup (here ++ below) =
          some (.directory kept false (Node.remainingEntries es)) := by
        rw [hinner.left]
        exact Node.lookup_set_present hn _
      have hat' : At inner.left base here := by
        rw [hinner.left]
        exact hsteady _ rfl
      have hend := @directoryRemoval_left id path _ _ _ _ _ _ hat' hn' hinner.ok hinner.records
      have hset (new : Option Node) :
          inner.left.set new (here ++ below) = t.set new (here ++ below) := by
        rw [hinner.left, Node.set_set hn hne]
      rw [hset] at hend
      rw [Node.remains, if_neg Bool.false_ne_true]
      exact hend

/-- **The entries of a directory are removed but for what remains of them.** -/
theorem removeEntries_left (id : Text) {t : Node} {below : Location} (path : Path) {kept : Bool}
    (hsteady : Steady t base here below) (hne : here ++ below ≠ [])
    (seen es : List (Text × Node))
    (hn : t.lookup (here ++ below) = some (.directory kept false (seen ++ es)))
    (hnames : ((seen ++ es).map Prod.fst).Nodup) (hdistinct : ∀ e ∈ es, e.2.Distinct) :
    (removeEntries id base t below path es).Left
      (t.set (some (.directory kept false (seen ++ Node.remainingEntries es))) (here ++ below))
      (Node.remainingEntries es).isEmpty := by
  match es with
  | [] =>
    rw [Node.remainingEntries, Node.set_self hn]
    exact ⟨rfl, rfl, rfl⟩
  | (name, n) :: rest =>
    have hfresh : name ∉ seen.map Prod.fst := by
      rw [List.map_append, List.map_cons, List.nodup_append] at hnames
      exact fun hmem => hnames.2.2 name hmem name List.mem_cons_self rfl
    have hentry : t.lookup (here ++ (below ++ [name])) = some n := by
      rw [lookup_below_child hn, List.lookup_append, Node.lookup_eq_none_of_not_mem hfresh,
        Option.none_or, Node.lookup_entry, if_pos rfl]
    rw [removeEntries]
    generalize hone : (if hasDirectoryBelow t base (below ++ [name]) = true then
      removeDirectory id base t (below ++ [name]) (path.child name) n
      else fileRemoval t (unlinkBelow t base (below ++ [name])) id (text "scratch file")
        (path.child name)) = one
    have hat := hsteady.at hn rfl
    have hleft : one.Left (t.set n.remains (here ++ (below ++ [name]))) n.remains.isNone := by
      rw [← hone, hat.hasDirectoryBelow hentry]
      by_cases hdir : n.isDirectory
      · rw [if_pos hdir]
        exact removeDirectory_left id (path.child name) (hsteady.child hn name) (by simp) hentry hdir
          (hdistinct (name, n) List.mem_cons_self)
      · rw [if_neg hdir, hat.unlinkBelow]
        exact unlinkHere_left hentry (Bool.eq_false_iff.mpr hdir) _
    have hset : one.left = t.set (some (.directory kept false
        ((seen ++ (n.remains.map fun m => (name, m)).toList) ++ rest))) (here ++ below) := by
      rw [hleft.left, ← List.append_assoc, Node.set_append hn (List.cons_ne_nil _ _)]
      change t.set (some (.directory kept false (Node.setEntry name n.remains _))) _ = _
      rw [Node.setEntry_append hfresh]
    have hn' : one.left.lookup (here ++ below) = some (.directory kept false
        ((seen ++ (n.remains.map fun m => (name, m)).toList) ++ rest)) := by
      rw [hset]
      exact Node.lookup_set_present hn _
    have hsteady' : Steady one.left base here below := by
      rw [hset]
      exact hsteady.set hn hne
    have hnames' : (((seen ++ (n.remains.map fun m => (name, m)).toList) ++ rest).map
        Prod.fst).Nodup := by
      refine hnames.sublist ?_
      simp only [List.map_append, List.append_assoc, List.map_cons]
      apply (List.Sublist.refl _).append
      cases n.remains with
      | none => exact (List.Sublist.refl _).cons name
      | some m => exact List.Sublist.refl _
    have hothers := removeEntries_left id path hsteady' hne _ rest hn' hnames' fun e he =>
      hdistinct e (List.mem_cons_of_mem _ he)
    constructor
    · rw [hothers.left, hset, Node.set_set hn hne, Node.remainingEntries, List.append_assoc]
    · change (one.ok && _) = _
      rw [hleft.ok, hothers.ok, Node.remainingEntries]
      cases n.remains <;> rfl
    · have happend (rs rs' : List LogRecord) :
          (rs ++ rs').isEmpty = (rs.isEmpty && rs'.isEmpty) := by
        cases rs <;> rfl
      rw [happend, hleft.records, hothers.records, Node.remainingEntries]
      cases n.remains <;> rfl

end

end

/-! ### What is left of a scratch directory -/

section

variable {fs : FileSystem} {path : Path} {id : Text} {here : Location} {d : Node}

/-- The path leads to the directory `d` at a location, and not through anything in it: it would lead
there also if the directory were empty. -/
structure LeadsTo (fs : FileSystem) (path : Path) (here : Location) (d : Node) : Prop where
  stands : fs.tree.lookup here = some d
  directory : d.isDirectory
  notRoot : here ≠ []
  way : (fs.tree.set (some .emptyDirectory) here).resolve false (fs.locate path) = .ok here

theorem LeadsTo.steady (h : LeadsTo fs path here d) : Steady fs.tree (fs.locate path) here [] := by
  intro d' hdir
  rw [List.append_nil]
  have hempty : At (fs.tree.set (some .emptyDirectory) here) (fs.locate path) here :=
    ⟨h.way, _, _, _, Node.lookup_set_present h.stands _⟩
  exact hempty.mono (Node.set_below_set h.stands (Node.emptyDirectory_below hdir))

theorem LeadsTo.at (h : LeadsTo fs path here d) : At fs.tree (fs.locate path) here :=
  h.steady.at (by rw [List.append_nil]; exact h.stands) h.directory

/-- **A scratch directory is removed but for what remains of it.** -/
theorem removeScratch_left (h : LeadsTo fs path here d) (hdistinct : fs.tree.Distinct) (id : Text) :
    (removeScratch fs id path).left = { fs with tree := fs.tree.set d.remains here } ∧
      (removeScratch fs id path).ok = d.remains.isNone ∧
      (removeScratch fs id path).records.isEmpty = d.remains.isNone := by
  have hstands : fs.tree.lookup (here ++ []) = some d := by
    rw [List.append_nil]
    exact h.stands
  have hfound : fs.tree.find true (fs.locate path) = .ok d :=
    Node.find_eq_ok_iff.mpr ⟨here, h.at.resolve true, h.stands⟩
  have hleft := removeDirectory_left id path h.steady (by simpa using h.notRoot) hstands h.directory
    (hdistinct.lookup h.stands)
  rw [List.append_nil] at hleft
  unfold removeScratch removeAt
  rw [hfound]
  dsimp only
  rw [hleft.left]
  exact ⟨rfl, hleft.ok, hleft.records⟩

/-- What is left of the directory `d` at a location, and of everything else: the answer is whether
the directory is gone, nothing outside it has changed, and of what was in it that is left, as it
was, which stays. -/
structure Cleared (before after : FileSystem) (path : Path) (here : Location) (d : Node)
    (gone : Bool) : Prop where
  honest : gone = true ↔ after.Absent path
  outside : ∀ l, ¬ here <+: l →
    (after.tree.lookup l).map Node.shell = (before.tree.lookup l).map Node.shell
  stays : ∀ l, d.Stays l →
    (after.tree.lookup (here ++ l)).map Node.shell = (before.tree.lookup (here ++ l)).map Node.shell
  goes : ∀ l, ¬ d.Stays l → after.tree.lookup (here ++ l) = none
  workingDirectory : after.workingDirectory = before.workingDirectory

/-- The directory is gone from its path just if nothing remains of it. -/
theorem absent_iff (h : LeadsTo fs path here d) (hdistinct : fs.tree.Distinct) (new : Option Node)
    (hnew : ∀ d' ∈ new, d'.isDirectory) :
    FileSystem.Absent { fs with tree := fs.tree.set new here } path ↔ new = none := by
  cases new with
  | some d' =>
    have hat := h.steady d' (hnew d' rfl)
    rw [List.append_nil] at hat
    have hfound := Node.find_eq_ok_iff.mpr
      ⟨here, hat.resolved, Node.lookup_set_present h.stands d'⟩
    constructor
    · intro habsent
      exact absurd hfound (habsent d')
    · intro heq
      cases heq
  | none =>
    apply iff_of_true _ rfl
    intro n hn
    obtain ⟨real, hwalk, hn⟩ := Node.find_eq_ok_iff.mp hn
    have hwalk' : fs.tree.resolve false (fs.locate path) = .ok real :=
      Node.walk_mono (Node.set_none_below hdistinct) hwalk fun hnone => by
        rw [hn] at hnone
        cases hnone
    obtain rfl : here = real := Except.ok.inj (h.at.resolved.symm.trans hwalk')
    rw [Node.lookup_set_none hdistinct h.notRoot] at hn
    cases hn

theorem cleared_set_remains (h : LeadsTo fs path here d) (hdistinct : fs.tree.Distinct) :
    Cleared fs { fs with tree := fs.tree.set d.remains here } path here d d.remains.isNone where
  honest := by
    rw [absent_iff h hdistinct, Option.isNone_iff_eq_none]
    intro d' hd'
    rw [← Node.isDirectory_shell, Node.shell_remains hd', Node.isDirectory_shell]
    exact h.directory
  outside := fun l hapart => Node.lookup_set_apart h.stands hdistinct _ hapart
  stays := by
    intro l hstays
    rw [Node.lookup_set_append h.stands h.notRoot hdistinct, Node.lookup_append, h.stands]
    exact (Node.lookup_remains (hdistinct.lookup h.stands) l).1 hstays
  goes := by
    intro l hgoes
    rw [Node.lookup_set_append h.stands h.notRoot hdistinct]
    exact (Node.lookup_remains (hdistinct.lookup h.stands) l).2 hgoes
  workingDirectory := rfl

/-- A scratch directory with a file, with links to a directory outside and to the directory above,
and with a directory that refuses to be listed. -/
def clutter : Node :=
  .directory false false [
    (text "notes", .file false []),
    (text "out", .link false [text "data"]),
    (text "up", .link false [text "tmp"]),
    (text "shut", .directory false true [(text "inner", .file false [])])]

/-- The directory `clutter` in the place of a scratch directory, and a directory outside. -/
def cluttered : FileSystem where
  tree := .directory false false [
    (text "tmp", .directory false false [(text "cmdexec-0", clutter)]),
    (text "data", .directory false false [(text "precious", .file false [1])])]

/-- The path of a scratch directory leads to it, whatever is put in the file system afterwards. -/
theorem leadsTo_of_createScratch {root : Path} {count count' : Nat} {fs' : FileSystem}
    (h : createScratch fs root count = .ok (path, count', fs')) {fs₂ : FileSystem}
    (hgrown : fs'.Grown fs₂) (hdistinct : fs₂.tree.Distinct) : ∃ here d, LeadsTo fs₂ path here d := by
  unfold createScratch at h
  obtain ⟨fs₁, hmade, h⟩ := bind_eq_ok h
  obtain ⟨fs₂', hupdate, h⟩ := bind_eq_ok h
  cases h
  generalize freeNumber _ _ = n at hupdate ⊢
  obtain ⟨xs, hxs⟩ := locate_child fs₁ root (scratchName n)
  cases hcreated : fs₁.tree.create (fs₁.locate (root.child (scratchName n))) .emptyDirectory with
  | error e =>
    rw [hcreated] at hupdate
    cases hupdate
  | ok tree =>
    rw [hcreated] at hupdate
    cases hupdate
    obtain ⟨here, hne, hway, hempty⟩ := create_way (scratchName_ne_dots n) rfl (hxs ▸ hcreated)
    obtain ⟨d, hd, hkind⟩ := hgrown.below here _ hempty
    refine ⟨here, d, hd, hkind.isDirectory.trans rfl, hne, ?_⟩
    rw [hgrown.locate]
    change Node.resolve _ _ (fs₁.locate _) = _
    rw [hxs]
    refine Node.walk_mono (hgrown.below.set_empty hdistinct hempty) hway fun hnone => ?_
    rw [hempty] at hnone
    cases hnone

end

end ChatCommands.Sandbox
