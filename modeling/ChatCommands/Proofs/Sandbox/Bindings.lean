import ChatCommands.Message
import ChatCommands.Proofs.Json.RoundTrip
import ChatCommands.Proofs.Text.Order
import ChatCommands.Sandbox.Script

/-!
What a script is told is what the request says.

The bindings of a request are written as JSON into the input of the script's process, read there
again and frozen.  For a request whose texts are made of characters, the way there and back loses
nothing and adds nothing.
-/

namespace ChatCommands.Sandbox.Script

/-! ### The types of what a script is told -/

/-- The type of a frozen value. -/
def Frozen.type : Frozen → String
  | .nothing => "NoneType"
  | .flag _ => "bool"
  | .whole _ => "int"
  | .real _ => "float"
  | .text _ => "str"
  | .tuple _ => "tuple"
  | .view _ => "mappingproxy"

theorem Frozen.tagged_eq (v : Frozen) : ∃ shown, v.tagged = .record [(v.type, shown)] := by
  cases v <;> exact ⟨_, by rw [Frozen.tagged]; rfl⟩

/-- One value is another one or stands somewhere inside it. -/
inductive Frozen.Part : Frozen → Frozen → Prop
  | self (v : Frozen) : Part v v
  | item {v w : Frozen} {items : List Frozen} : w ∈ items → Part v w → Part v (.tuple items)
  | member {v w : Frozen} {n : Text} {members : List (Text × Frozen)} :
      (n, w) ∈ members → Part v w → Part v (.view members)

theorem Frozen.part_tuple {p : Frozen} {items : List Frozen} :
    Part p (.tuple items) ↔ p = .tuple items ∨ ∃ w ∈ items, Part p w := by
  constructor
  · intro h
    cases h with
    | self => exact .inl rfl
    | item hmem hpart => exact .inr ⟨_, hmem, hpart⟩
  · rintro (rfl | ⟨w, hmem, hpart⟩)
    · exact .self _
    · exact .item hmem hpart

theorem Frozen.part_view {p : Frozen} {members : List (Text × Frozen)} :
    Part p (.view members) ↔ p = .view members ∨ ∃ m ∈ members, Part p m.2 := by
  constructor
  · intro h
    cases h with
    | self => exact .inl rfl
    | member hmem hpart => exact .inr ⟨_, hmem, hpart⟩
  · rintro (rfl | ⟨m, hmem, hpart⟩)
    · exact .self _
    · exact .member hmem hpart

/-- Each part of the value is of a type in the list. -/
def Frozen.Within (types : List String) (v : Frozen) : Prop :=
  ∀ p, Frozen.Part p v → p.type ∈ types

section Within

variable {types : List String}

theorem Frozen.within_nothing (h : "NoneType" ∈ types) : Within types .nothing := by
  intro p hp
  cases hp
  exact h

theorem Frozen.within_text {t : Text} (h : "str" ∈ types) : Within types (.text t) := by
  intro p hp
  cases hp
  exact h

theorem Frozen.within_tuple {items : List Frozen} (h : "tuple" ∈ types)
    (hitems : ∀ w ∈ items, Within types w) : Within types (.tuple items) := by
  intro p hp
  rcases part_tuple.mp hp with rfl | ⟨w, hw, hp⟩
  · exact h
  · exact hitems w hw p hp

theorem Frozen.within_view {members : List (Text × Frozen)} (h : "mappingproxy" ∈ types)
    (hmembers : ∀ m ∈ members, Within types m.2) : Within types (.view members) := by
  intro p hp
  rcases part_view.mp hp with rfl | ⟨m, hm, hp⟩
  · exact h
  · exact hmembers m hm p hp

end Within

/-! ### Freezing -/

open Json (record texts)

theorem freezeItems_eq_map (items : List Json) : freezeItems items = items.map freeze := by
  induction items with
  | nil => rfl
  | cons v rest ih => rw [freezeItems, ih, List.map_cons]

theorem freezeMembers_eq_map (members : List (Text × Json)) :
    freezeMembers members = members.map fun m => (m.1, freeze m.2) := by
  induction members with
  | nil => rfl
  | cons m rest ih => rw [freezeMembers, ih, List.map_cons]

theorem freeze_record (members : List (String × Json)) :
    freeze (.record members) = .view (members.map fun m => (text m.1, freeze m.2)) := by
  rw [record, freeze, freezeMembers_eq_map, List.map_map]
  rfl

theorem freeze_texts (ts : List Text) : freeze (.texts ts) = .tuple (ts.map .text) := by
  rw [texts, freeze, freezeItems_eq_map, List.map_map]
  rfl

theorem freeze_orNull (t : Option Text) :
    freeze (.orNull (t.map .str)) = (t.map .text).getD .nothing := by
  cases t <;> rfl

end ChatCommands.Sandbox.Script

namespace ChatCommands.Request

open Sandbox.Script Json
open Text (Scalars)

/-- All texts of the request that a script is told are made of characters. -/
structure Characters (r : Request) : Prop where
  content : Scalars r.content
  messageId : ∀ t ∈ r.messageId, Scalars t
  author : Scalars r.author
  roles : ∀ t ∈ r.roles, Scalars t
  channel : Scalars r.channel
  tenant : Scalars r.command.tenant
  id : Scalars r.command.id
  trigger : Scalars r.command.trigger

/-- What the request says, under the names that a script knows. -/
def facts (r : Request) : List (String × Frozen) :=
  [("message", .view [(text "id", (r.messageId.map .text).getD .nothing),
      (text "content", .text r.content)]),
    ("author", .view [(text "id", .text r.author),
      (text "roles", .tuple ((Text.sortedSet r.roles).map .text))]),
    ("channel", .view [(text "id", .text r.channel)]),
    ("guild", .view [(text "id", .text r.command.tenant)]),
    ("command", .view [(text "id", .text r.command.id), (text "trigger", .text r.command.trigger)])]

/-! ### The way there and back -/

theorem portable_bindings {r : Request} (h : r.Characters) : Portable r.bindings := by
  have hroles : ∀ t ∈ Text.sortedSet r.roles, Scalars t := fun t ht =>
    h.roles t (Text.mem_sortedSet.mp ht)
  have hone (n : String) {v : Json} (hv : Portable v) : Portable (.record [(n, v)]) :=
    portable_record (List.nodup_singleton n) (List.forall_mem_singleton.mpr hv)
  have htwo (n n' : String) {v v' : Json} (hn : n ≠ n') (hv : Portable v) (hv' : Portable v') :
      Portable (.record [(n, v), (n', v')]) :=
    portable_record (List.nodup_cons.mpr ⟨by simpa using hn, List.nodup_singleton n'⟩)
      (List.forall_mem_cons.mpr ⟨hv, List.forall_mem_singleton.mpr hv'⟩)
  have hmessage := htwo "id" "content" (by decide) (portable_orNull h.messageId)
    (show Portable (.str r.content) from h.content)
  have hauthor := htwo "id" "roles" (by decide)
    (show Portable (.str r.author) from h.author) (portable_texts hroles)
  have hchannel := hone "id" (show Portable (.str r.channel) from h.channel)
  have hguild := hone "id" (show Portable (.str r.command.tenant) from h.tenant)
  have hcommand := htwo "id" "trigger" (by decide)
    (show Portable (.str r.command.id) from h.id)
    (show Portable (.str r.command.trigger) from h.trigger)
  apply portable_record
  · change topics.Nodup
    decide
  · simp only [List.forall_mem_cons]
    exact ⟨hmessage, hauthor, hchannel, hguild, hcommand, fun _ hm => nomatch hm⟩

theorem write_bindings_eq_cons (r : Request) : ∃ t, r.bindings.write .spaced = 123 :: t :=
  ⟨_, rfl⟩

theorem parse_bindings {r : Request} (h : r.Characters) :
    Json.parse (r.bindings.write .spaced) = .ok r.bindings := by
  rw [Json.parse, read_write lawful_spaced (portable_bindings h)]
  rfl

theorem freeze_bindings (r : Request) :
    (topics.map fun name => (name, freeze (r.bindings.get name))) = r.facts := by
  have hmessage : r.bindings.get "message" = .record [("id", .orNull (r.messageId.map .str)),
    ("content", .str r.content)] := rfl
  have hauthor : r.bindings.get "author" = .record [("id", .str r.author),
    ("roles", .texts (Text.sortedSet r.roles))] := rfl
  have hchannel : r.bindings.get "channel" = .record [("id", .str r.channel)] := rfl
  have hguild : r.bindings.get "guild" = .record [("id", .str r.command.tenant)] := rfl
  have hcommand : r.bindings.get "command" = .record [("id", .str r.command.id),
    ("trigger", .str r.command.trigger)] := rfl
  simp only [topics, List.map_cons, List.map_nil, hmessage, hauthor, hchannel, hguild, hcommand,
    freeze_record, freeze_texts, freeze_orNull, freeze]
  rfl

theorem told_bindings {r : Request} (h : r.Characters) :
    told (r.bindings.write .spaced) = .ok r.facts := by
  obtain ⟨t, hopens⟩ := write_bindings_eq_cons r
  have hblank : Text.isBlankText (r.bindings.write .spaced) = false := by
    rw [hopens]
    rfl
  rw [told, hblank, parse_bindings h, ← freeze_bindings]
  rfl

/-- The types of what a script is told; nothing of these types can be changed. -/
def readOnly : List String := ["NoneType", "str", "tuple", "mappingproxy"]

theorem within_facts (r : Request) : ∀ m ∈ r.facts, m.2.Within readOnly := by
  have htext (t : Text) : (Frozen.text t).Within readOnly := Frozen.within_text (by decide)
  have hmessageId : ((r.messageId.map Frozen.text).getD .nothing).Within readOnly := by
    cases r.messageId with
    | none => exact Frozen.within_nothing (by decide)
    | some t => exact htext t
  have hroles : (Frozen.tuple ((Text.sortedSet r.roles).map .text)).Within readOnly := by
    apply Frozen.within_tuple (by decide)
    intro v hv
    obtain ⟨t, -, rfl⟩ := List.mem_map.mp hv
    exact htext t
  have hview {members : List (Text × Frozen)} (h : ∀ m ∈ members, m.2.Within readOnly) :
      (Frozen.view members).Within readOnly :=
    Frozen.within_view (by decide) h
  have hnone : ∀ m ∈ ([] : List (Text × Frozen)), m.2.Within readOnly := fun _ hm => nomatch hm
  simp only [facts, List.forall_mem_cons]
  refine ⟨?_, ?_, ?_, ?_, ?_, fun _ hm => nomatch hm⟩
  · exact hview (List.forall_mem_cons.mpr ⟨hmessageId, List.forall_mem_cons.mpr ⟨htext _, hnone⟩⟩)
  · exact hview (List.forall_mem_cons.mpr ⟨htext _, List.forall_mem_cons.mpr ⟨hroles, hnone⟩⟩)
  · exact hview (List.forall_mem_cons.mpr ⟨htext _, hnone⟩)
  · exact hview (List.forall_mem_cons.mpr ⟨htext _, hnone⟩)
  · exact hview (List.forall_mem_cons.mpr ⟨htext _, List.forall_mem_cons.mpr ⟨htext _, hnone⟩⟩)

theorem bindings_congr_roles {r : Request} {roles : List Text} (h : ∀ t, t ∈ roles ↔ t ∈ r.roles) :
    { r with roles }.bindings = r.bindings := by
  have hsets : Text.sortedSet roles = Text.sortedSet r.roles := Text.sortedSet_eq_iff.mpr h
  simp only [bindings, hsets]

/-- **What a script is told is what the request says.**  What is written into its input is printable
ASCII on one line and depends on the set of roles only.  Read and frozen, it gives each name what the
request says under it, with the roles in ascending order; no part of that can be changed. -/
theorem bindings_arrive {r : Request} (h : r.Characters) :
    (∀ c ∈ r.bindings.write .spaced, Plain c) ∧
    (∀ roles : List Text, (∀ t, t ∈ roles ↔ t ∈ r.roles) →
      { r with roles }.bindings.write .spaced = r.bindings.write .spaced) ∧
    told (r.bindings.write .spaced) = .ok r.facts ∧
    ((Text.sortedSet r.roles).Pairwise Text.Before ∧
      ∀ t, t ∈ Text.sortedSet r.roles ↔ t ∈ r.roles) ∧
    ∀ m ∈ r.facts, m.2.Within readOnly := by
  constructor
  · exact plain_of_mem_writeAt oneLine_spaced r.bindings 0
  constructor
  · intro roles hroles
    rw [bindings_congr_roles hroles]
  constructor
  · exact told_bindings h
  constructor
  · exact ⟨Text.pairwise_sortedSet r.roles, fun t => Text.mem_sortedSet⟩
  · exact within_facts r

/-- A request whose text holds a quote, a line feed and a character above U+FFFF; one of the roles is
given twice. -/
def cheer : Request where
  command := {
    id := text "c1"
    tenant := text "g1"
    trigger := text "hip"
    language := text "python"
    code := text "reply(1)" }
  author := text "u1"
  roles := [text "mod", text "admin", text "mod"]
  channel := text "lobby"
  content := text "!hip \"hurray\"" ++ [10, 0x1F389]

theorem bindings_arrive_cheer : cheer.Characters ∧
    told (cheer.bindings.write .spaced) = .ok cheer.facts ∧
    { cheer with roles := [text "admin", text "mod"] }.bindings.write .spaced =
      cheer.bindings.write .spaced := by
  have hcharacters : cheer.Characters := by
    constructor <;> decide
  obtain ⟨-, hroles, htold, -⟩ := bindings_arrive hcharacters
  refine ⟨hcharacters, htold, hroles _ ?_⟩
  intro t
  simp only [cheer, List.mem_cons, List.not_mem_nil, or_false]
  tauto

end ChatCommands.Request
