import ChatCommands.Proofs.Registry.Edits
import ChatCommands.Proofs.Text.Order
import ChatCommands.Registry.File

/-!
What a command file describes, and what it lists for a tenant.

`Describes` says which bytes are a command file, in either layout.  For a tenant the file lists the
last command under each of the identifiers, in the order in which the identifiers appear; a store
that was filled from the file tells just that.
-/

namespace ChatCommands

/-! ### Checks that accept -/

namespace Schema.Checked

variable {α β : Type} {x : Checked α} {a : α} {b : β}

theorem map_eq_ok_iff {f : α → β} : x.map f = .ok b ↔ ∃ a, x = .ok a ∧ f a = b := by
  cases x <;> simp [map]

theorem seq_eq_ok_iff {f : Checked (α → β)} :
    f.seq x = .ok b ↔ ∃ g a, f = .ok g ∧ x = .ok a ∧ g a = b := by
  cases f <;> cases x <;> simp [seq]

theorem orFault_eq_ok_iff : x.orFault = .ok a ↔ x = .ok a := by
  cases x <;> simp [orFault]

end Schema.Checked

namespace Registry

open Schema

/-! ### What the bytes of a file describe -/

/-- The bytes describe the file: they are UTF-8 for a JSON document, which is the list of the
commands or an object with prefixes and commands. -/
inductive Describes (content : Bytes) (f : CommandFile) : Prop
  | list {t items} (hutf8 : Utf8.decode content = .ok t)
    (hjson : Json.parse (Text.unifyLineEnds t) = .ok (.arr items))
    (hcommands : Schema.list Command.check (.arr items) = .ok f.commands) (hsigils : f.sigils = [])
  | object {t members} (hutf8 : Utf8.decode content = .ok t)
    (hjson : Json.parse (Text.unifyLineEnds t) = .ok (.obj members))
    (hcommands : defaulted members "commands" [] (Schema.list Command.check) = .ok f.commands)
    (hsigils : defaulted members "prefixes" [] CommandFile.sigils? = .ok f.sigils)

variable {content : Bytes} {f : CommandFile}

namespace CommandFile

theorem ofMembers_eq_ok_iff {members : List (Text × Json)} : ofMembers members = .ok f ↔
    defaulted members "commands" [] (Schema.list Command.check) = .ok f.commands ∧
      defaulted members "prefixes" [] sigils? = .ok f.sigils := by
  change Checked.seq (Checked.map CommandFile.mk _) _ = _ ↔ _
  simp only [Checked.seq_eq_ok_iff, Checked.map_eq_ok_iff]
  constructor
  · rintro ⟨_, cs, ⟨sigils, hsigils, rfl⟩, hcommands, rfl⟩
    exact ⟨hcommands, hsigils⟩
  · rintro ⟨hcommands, hsigils⟩
    exact ⟨_, _, ⟨_, hsigils, rfl⟩, hcommands, rfl⟩

theorem check_arr_eq_ok_iff {items : List Json} : check (.arr items) = .ok f ↔
    Schema.list Command.check (.arr items) = .ok f.commands ∧ f.sigils = [] := by
  rw [check, Checked.map_eq_ok_iff]
  constructor
  · rintro ⟨cs, hcommands, rfl⟩
    exact ⟨hcommands, rfl⟩
  · rintro ⟨hcommands, hsigils⟩
    obtain ⟨sigils, cs⟩ := f
    cases hsigils
    exact ⟨cs, hcommands, rfl⟩

theorem parse_eq_ok_iff {t : Text} :
    parse t = .ok f ↔ ∃ v, Json.parse t = .ok v ∧ check v = .ok f := by
  unfold parse
  cases Json.parse t with
  | error fault => simp [Except.bind]
  | ok v => simp [Except.bind, Checked.orFault_eq_ok_iff]

end CommandFile

/-- **What is read of a file is what its bytes describe.** -/
theorem readContent_eq_ok_iff : readContent content = .ok f ↔ Describes content f := by
  have hread : readContent content = .ok f ↔ ∃ t, Utf8.decode content = .ok t ∧
      CommandFile.parse (Text.unifyLineEnds t) = .ok f := by
    unfold readContent
    cases Utf8.decode content <;> simp
  rw [hread]
  constructor
  · rintro ⟨t, hutf8, hparse⟩
    obtain ⟨v, hjson, hcheck⟩ := CommandFile.parse_eq_ok_iff.mp hparse
    cases v with
    | arr items =>
      obtain ⟨hcommands, hsigils⟩ := CommandFile.check_arr_eq_ok_iff.mp hcheck
      exact .list hutf8 hjson hcommands hsigils
    | obj members =>
      obtain ⟨hcommands, hsigils⟩ := CommandFile.ofMembers_eq_ok_iff.mp hcheck
      exact .object hutf8 hjson hcommands hsigils
    | null | bool _ | int _ | real _ | str _ => cases hcheck
  · intro hdescribes
    cases hdescribes with
    | list hutf8 hjson hcommands hsigils =>
      exact ⟨_, hutf8, CommandFile.parse_eq_ok_iff.mpr
        ⟨_, hjson, CommandFile.check_arr_eq_ok_iff.mpr ⟨hcommands, hsigils⟩⟩⟩
    | object hutf8 hjson hcommands hsigils =>
      exact ⟨_, hutf8, CommandFile.parse_eq_ok_iff.mpr
        ⟨_, hjson, CommandFile.ofMembers_eq_ok_iff.mpr ⟨hcommands, hsigils⟩⟩⟩

/-! ### What a file lists for a tenant -/

/-- The last command under each identifier, in the order in which the identifiers appear. -/
def lastOfEach (cs : List Command) : List Command :=
  (cs.map (·.id)).eraseDups.filterMap fun id => cs.findRev? fun c => c.id == id

/-- What a file tells of a tenant. -/
def CommandFile.tell (f : CommandFile) (tenant : Text) : Matter → Told
  | .commands => .commands (lastOfEach (f.commands.filter fun c => c.tenant == tenant))
  | .sigil => .sigil (f.sigils.lookup tenant)

/-- A command is put into a list that has a command for each of some identifiers. -/
theorem place_filterMap {ids : List Text} {version version' : Text → Option Command} {c : Command}
    (hversion : ∀ id ∈ ids, ∃ d, version id = some d ∧ d.id = id) (hnodup : ids.Nodup)
    (hnew : version' c.id = some c) (hold : ∀ id, c.id ≠ id → version' id = version id) :
    place c (ids.filterMap version) =
      (if c.id ∈ ids then ids else ids ++ [c.id]).filterMap version' := by
  induction ids with
  | nil => simp [place, hnew]
  | cons id ids ih =>
    obtain ⟨d, hd, hid⟩ := hversion id List.mem_cons_self
    rw [List.nodup_cons] at hnodup
    rw [List.filterMap_cons_some hd, place]
    by_cases hc : c.id = id
    · -- the others stay, since the identifier does not come again
      have hrest : ids.filterMap version' = ids.filterMap version := by
        refine List.filterMap_congr fun id' hid' => hold id' ?_
        rintro rfl
        exact hnodup.1 (hc ▸ hid')
      subst hc
      rw [if_pos hid, if_pos List.mem_cons_self, List.filterMap_cons_some hnew, hrest]
    · have hhead : version' id = some d := (hold id hc).trans hd
      rw [if_neg (hid ▸ Ne.symm hc),
        ih (fun id' hid' => hversion id' (List.mem_cons_of_mem _ hid')) hnodup.2]
      by_cases hmem : c.id ∈ ids
      · rw [if_pos hmem, if_pos (List.mem_cons_of_mem _ hmem), List.filterMap_cons_some hhead]
      · rw [if_neg hmem, if_neg (by simp [hc, hmem]), List.cons_append,
          List.filterMap_cons_some hhead]

theorem findRev?_concat (cs : List Command) (c : Command) (p : Command → Bool) :
    (cs ++ [c]).findRev? p = if p c then some c else cs.findRev? p := by
  rw [List.findRev?_eq_find?_reverse, List.findRev?_eq_find?_reverse, List.reverse_append,
    List.reverse_singleton, List.singleton_append, List.find?_cons]
  cases p c <;> rfl

theorem eraseDups_concat (ids : List Text) (id : Text) : (ids ++ [id]).eraseDups =
    if id ∈ ids.eraseDups then ids.eraseDups else ids.eraseDups ++ [id] := by
  rw [List.eraseDups_append]
  by_cases hmem : id ∈ ids
  · rw [if_pos (List.mem_eraseDups.mpr hmem)]
    simp [List.removeAll, hmem]
  · rw [if_neg (mt List.mem_eraseDups.mp hmem)]
    simp [List.removeAll, hmem, List.eraseDups_cons]

theorem lastOfEach_concat (cs : List Command) (c : Command) :
    lastOfEach (cs ++ [c]) = place c (lastOfEach cs) := by
  have hversion : ∀ id ∈ (cs.map (·.id)).eraseDups,
      ∃ d, (cs.findRev? fun d => d.id == id) = some d ∧ d.id = id := by
    intro id hid
    rw [List.mem_eraseDups, List.mem_map] at hid
    obtain ⟨d, hd, rfl⟩ := hid
    rw [List.findRev?_eq_find?_reverse]
    cases hfind : cs.reverse.find? fun e => e.id == d.id with
    | none => exact absurd (List.find?_eq_none.mp hfind d (List.mem_reverse.mpr hd)) (by simp)
    | some e => exact ⟨e, rfl, by simpa using List.find?_some hfind⟩
  unfold lastOfEach
  rw [List.map_append, List.map_singleton, eraseDups_concat]
  refine (place_filterMap hversion (Text.nodup_eraseDups _) ?_ fun id hid => ?_).symm
  · rw [findRev?_concat, if_pos (by simp)]
  · rw [findRev?_concat, if_neg (by simpa using hid)]

theorem commandsOf_ofCommands (cs : List Command) (sigils : List (Text × Text)) (t : Text) :
    (Store.ofCommands cs sigils).commandsOf t = lastOfEach (cs.filter fun c => c.tenant == t) := by
  induction cs using List.reverseRecOn with
  | nil => rfl
  | append_singleton cs c ih =>
    have hconcat : Store.ofCommands (cs ++ [c]) sigils = (Store.ofCommands cs sigils).add c := by
      simp [Store.ofCommands]
    rw [hconcat, Store.commandsOf_add, ih]
    by_cases ht : c.tenant = t
    · rw [if_pos ht, List.filter_append, List.filter_cons_of_pos (by simpa using ht),
        List.filter_nil, lastOfEach_concat]
    · rw [if_neg ht, List.filter_append, List.filter_cons_of_neg (by simpa using ht),
        List.filter_nil, List.append_nil]

theorem sigilOf_ofCommands (cs : List Command) (sigils : List (Text × Text)) (t : Text) :
    (Store.ofCommands cs sigils).sigilOf t = sigils.lookup t := by
  rw [Store.ofCommands_eq_after, Store.sigilOf_after]
  unfold sigilAfter
  rw [List.find?_eq_none.mpr]
  simp [Call.sets]

/-- **A store that was filled from a file tells what the file lists.** -/
theorem CommandFile.tell_toStore (f : CommandFile) (tenant : Text) (matter : Matter) :
    f.toStore.tell tenant matter = f.tell tenant matter := by
  cases matter with
  | commands => exact congrArg Told.commands (commandsOf_ofCommands f.commands f.sigils tenant)
  | sigil => exact congrArg Told.sigil (sigilOf_ofCommands f.commands f.sigils tenant)

end Registry

end ChatCommands
