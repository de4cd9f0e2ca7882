import ChatCommands.Proofs.Json.Embedding
import ChatCommands.Proofs.Registry.Contents

/-!
The two layouts of a command file agree.

The list of the commands may be the whole file or the member `commands` of an object.  Either way each
command is checked once by the same check, and what a check has accepted it accepts again as it is: no
default, no other spelling and no order of a set is left to be settled.
-/

namespace ChatCommands

/-! ### Settled values -/

namespace Schema

variable {α β : Type}

/-- What the check accepts it accepts again as it is, if it is written in this way. -/
def Settles (check : Check α) (write : α → Json) : Prop :=
  ∀ v a, check v = .ok a → check (write a) = .ok a

theorem Checked.under_eq_ok_iff {x : Checked α} {step : Step} {a : α} :
    x.under step = .ok a ↔ x = .ok a := by
  cases x <;> simp [under]

theorem Checked.andThen_eq_ok_iff {x : Checked α} {f : α → Checked β} {b : β} :
    x.andThen f = .ok b ↔ ∃ a, x = .ok a ∧ f a = .ok b := by
  cases x <;> simp [andThen]

theorem Checked.fmap_eq_ok_iff {f : α → β} {x : Checked α} {b : β} :
    f <$> x = .ok b ↔ ∃ a, x = .ok a ∧ f a = b := Checked.map_eq_ok_iff

theorem Checked.ap_eq_ok_iff {f : Checked (α → β)} {x : Checked α} {b : β} :
    f <*> x = .ok b ↔ ∃ g a, f = .ok g ∧ x = .ok a ∧ g a = b := Checked.seq_eq_ok_iff

/-- **The items of a list** are accepted one by one. -/
theorem itemsFrom_eq_ok_iff {check : Check α} {n : Nat} {items : List Json} {as : List α} :
    itemsFrom check n items = .ok as ↔ List.Forall₂ (fun v a => check v = .ok a) items as := by
  induction items generalizing n as with
  | nil => simp [itemsFrom, eq_comm]
  | cons v items ih =>
    simp only [itemsFrom, Checked.seq_eq_ok_iff, Checked.map_eq_ok_iff, Checked.under_eq_ok_iff, ih,
      List.forall₂_cons_left_iff]
    constructor
    · rintro ⟨_, as, ⟨a, ha, rfl⟩, has, rfl⟩
      exact ⟨a, as, ha, has, rfl⟩
    · rintro ⟨a, as, ha, has, rfl⟩
      exact ⟨_, as, ⟨a, ha, rfl⟩, has, rfl⟩

theorem itemsFrom_map {check : Check α} {write : α → Json} {as : List α}
    (h : ∀ a ∈ as, check (write a) = .ok a) (n : Nat) : itemsFrom check n (as.map write) = .ok as := by
  rw [itemsFrom_eq_ok_iff, List.forall₂_map_left_iff, List.forall₂_same]
  exact h

theorem string_eq_ok_iff {v : Json} {t : Text} : string v = .ok t ↔ v = .str t := by
  cases v <;> simp [string, Checked.fail]

theorem settles_string : Settles string .str := fun _ _ _ => rfl

theorem lookInto_eq_ok {t : Text} {check : Text → Checked α} {a : α} (h : lookInto t check = .ok a) :
    check t = .ok a := by
  rw [lookInto] at h
  split at h
  · cases h
  · exact h

theorem eq_str_of_stringOf {least : Nat} {most : Option Nat} {v : Json} {t : Text}
    (h : stringOf least most v = .ok t) : v = .str t := by
  obtain ⟨u, hu, hlook⟩ := Checked.andThen_eq_ok_iff.mp h
  rw [string_eq_ok_iff] at hu
  have hlength := lookInto_eq_ok hlook
  split at hlength
  · cases hlength
  · split at hlength
    · split at hlength
      · cases hlength
      · cases hlength
        exact hu
    · cases hlength
      exact hu

theorem settles_stringOf (least : Nat) (most : Option Nat) : Settles (stringOf least most) .str := by
  intro v t h
  rw [← eq_str_of_stringOf h]
  exact h

theorem ne_nil_of_stringOf {most : Option Nat} {v : Json} {t : Text}
    (h : stringOf 1 most v = .ok t) : t ≠ [] := by
  rintro rfl
  rw [eq_str_of_stringOf h] at h
  cases h

theorem settles_optional {check : Check α} {write : α → Json} (h : Settles check write)
    (hnull : ∀ a, write a ≠ .null) : Settles (optional check) fun a => .orNull (a.map write) := by
  intro v a ha
  cases a with
  | none => rfl
  | some a =>
    have hsome : (check v).map some = .ok (some a) := by
      cases v <;> first | exact ha | cases ha
    obtain ⟨a', ha', hsome⟩ := Checked.map_eq_ok_iff.mp hsome
    cases hsome
    have hwritten := h v a ha'
    change optional check (write a) = .ok (some a)
    cases hw : write a with
    | null => exact absurd hw (hnull a)
    | bool _ | int _ | real _ | str _ | arr _ | obj _ =>
      rw [hw] at hwritten
      exact Checked.map_eq_ok_iff.mpr ⟨a, hwritten, rfl⟩

theorem settles_oneOf {names : List String} {find : Text → Option α} {write : α → Text}
    (h : ∀ a, find (write a) = some a) : Settles (oneOf names find) fun a => .str (write a) := by
  intro v a _
  rw [oneOf, h]

theorem settles_integerIn (least most : Option Int) : Settles (integerIn least most) .int := by
  intro v i h
  obtain ⟨j, -, hbounds⟩ := Checked.andThen_eq_ok_iff.mp h
  have hj : j = i := by
    split at hbounds
    · cases hbounds
    · split at hbounds
      · cases hbounds
      · cases hbounds
        rfl
  subst hj
  exact hbounds

theorem bounds_of_integerIn {least most : Int} {v : Json} {i : Int}
    (h : integerIn (some least) (some most) v = .ok i) : least ≤ i ∧ i ≤ most := by
  obtain ⟨j, -, hbounds⟩ := Checked.andThen_eq_ok_iff.mp h
  split at hbounds
  · cases hbounds
  · split at hbounds
    · cases hbounds
    · rename_i hmost hleast
      cases hbounds
      simpa using And.intro hleast hmost

theorem settles_textSet : Settles textSet .texts := by
  intro v ts h
  cases v with
  | arr items =>
    obtain ⟨us, -, rfl⟩ := Checked.map_eq_ok_iff.mp h
    have hsettled : Text.sortedSet (Text.sortedSet us) = Text.sortedSet us :=
      Text.sortedSet_eq_iff.mpr fun t => Text.mem_sortedSet
    have hitems : itemsFrom string 0 ((Text.sortedSet us).map .str) = .ok (Text.sortedSet us) :=
      itemsFrom_map (fun t _ => settles_string (.str t) t rfl) 0
    exact Checked.map_eq_ok_iff.mpr ⟨_, hitems, hsettled⟩
  | null | bool _ | int _ | real _ | str _ | obj _ => cases h

theorem settles_list {check : Check α} {write : α → Json} (h : Settles check write) :
    Settles (list check) fun as => .arr (as.map write) := by
  intro v as has
  cases v with
  | arr items =>
    have hitems := itemsFrom_eq_ok_iff.mp has
    have hsettled : ∀ a ∈ as, check (write a) = .ok a := by
      clear has
      induction hitems with
      | nil => exact nofun
      | cons hv _ ih => exact List.forall_mem_cons.mpr ⟨h _ _ hv, ih⟩
    exact itemsFrom_map hsettled 0
  | null | bool _ | int _ | real _ | str _ | obj _ => cases has

theorem textSet_nil : textSet (.texts []) = .ok [] := by
  simp [textSet, Json.texts, itemsFrom, Checked.map, Text.sortedSet]

section Fields

variable {members written : List (Text × Json)} {name : String} {check : Check α} {write : α → Json}
  {a default : α}

theorem exists_of_required (h : required members name check = .ok a) : ∃ v, check v = .ok a := by
  unfold required at h
  split at h
  · exact ⟨_, Checked.under_eq_ok_iff.mp h⟩
  · cases h

theorem exists_of_defaulted (h : defaulted members name default check = .ok a) :
    a = default ∨ ∃ v, check v = .ok a := by
  unfold defaulted at h
  split at h
  · exact .inr ⟨_, Checked.under_eq_ok_iff.mp h⟩
  · cases h
    exact .inl rfl

/-- A field that was accepted is accepted again once it is written. -/
theorem required_of_settles (h : required members name check = .ok a) (hsettles : Settles check write)
    (hmember : Json.member? (text name) written = some (write a)) :
    required written name check = .ok a := by
  unfold required at h
  split at h
  · rw [required, hmember]
    exact Checked.under_eq_ok_iff.mpr (hsettles _ _ (Checked.under_eq_ok_iff.mp h))
  · cases h

theorem defaulted_of_settles (h : defaulted members name default check = .ok a)
    (hsettles : Settles check write) (hdefault : check (write default) = .ok default)
    (hmember : Json.member? (text name) written = some (write a)) :
    defaulted written name default check = .ok a := by
  unfold defaulted at h ⊢
  rw [hmember]
  split at h
  · exact Checked.under_eq_ok_iff.mpr (hsettles _ _ (Checked.under_eq_ok_iff.mp h))
  · cases h
    exact Checked.under_eq_ok_iff.mpr hdefault

end Fields

end Schema

/-! ### Commands -/

namespace Command

open Schema

theorem settles_trigger? : Settles trigger? .str := by
  intro v t h
  obtain ⟨u, hu, hblank⟩ := Checked.andThen_eq_ok_iff.mp h
  have hut : u = t := by
    split at hblank
    · cases hblank
    · cases hblank
      rfl
  subst hut
  exact Checked.andThen_eq_ok_iff.mpr ⟨u, settles_stringOf 1 none v u hu, hblank⟩

theorem not_blank_of_trigger? {v : Json} {t : Text} (h : trigger? v = .ok t) :
    Text.isBlankText t = false := by
  obtain ⟨u, -, hblank⟩ := Checked.andThen_eq_ok_iff.mp h
  split at hblank
  · cases hblank
  · rename_i hsolid
    cases hblank
    rwa [List.isEmpty_iff, Text.strip_eq_nil_iff, Bool.not_eq_true] at hsolid

theorem ofLabel?_name (m : MatchMode) : MatchMode.ofLabel? (text m.name) = some m := by
  cases m <;> rfl

/-- The checks of the fields. -/
theorem ofMembers_eq_ok_iff {ms : List (Text × Json)} {c : Command} : ofMembers ms = .ok c ↔
    required ms "id" (stringOf 1 none) = .ok c.id ∧
    required ms "tenant_id" (stringOf 1 none) = .ok c.tenant ∧
    required ms "trigger" trigger? = .ok c.trigger ∧
    defaulted ms "match_mode" .prefixed (oneOf MatchMode.names MatchMode.ofLabel?) = .ok c.mode ∧
    defaulted ms "prefix" none (optional string) = .ok c.sigil ∧
    required ms "language" string = .ok c.language ∧
    required ms "code" string = .ok c.code ∧
    defaulted ms "cooldown_ms" 0 (integerIn (some 0) (some maxCooldownMs)) = .ok c.cooldownMs ∧
    defaulted ms "role_restriction" [] textSet = .ok c.roles ∧
    defaulted ms "channel_restriction" [] textSet = .ok c.channels := by
  obtain ⟨id, tenant, trigger, mode, sigil, language, code, cooldownMs, roles, channels⟩ := c
  simp only [ofMembers, Checked.ap_eq_ok_iff, Checked.fmap_eq_ok_iff]
  constructor
  · rintro ⟨_, _, ⟨_, _, ⟨_, _, ⟨_, _, ⟨_, _, ⟨_, _, ⟨_, _, ⟨_, _, ⟨_, _, ⟨_, hid, rfl⟩, htenant, rfl⟩,
      htrigger, rfl⟩, hmode, rfl⟩, hsigil, rfl⟩, hlanguage, rfl⟩, hcode, rfl⟩, hcooldown, rfl⟩, hroles,
      rfl⟩, hchannels, hc⟩
    cases hc
    exact ⟨hid, htenant, htrigger, hmode, hsigil, hlanguage, hcode, hcooldown, hroles, hchannels⟩
  · rintro ⟨hid, htenant, htrigger, hmode, hsigil, hlanguage, hcode, hcooldown, hroles, hchannels⟩
    exact ⟨_, _, ⟨_, _, ⟨_, _, ⟨_, _, ⟨_, _, ⟨_, _, ⟨_, _, ⟨_, _, ⟨_, _, ⟨_, hid, rfl⟩, htenant, rfl⟩,
      htrigger, rfl⟩, hmode, rfl⟩, hsigil, rfl⟩, hlanguage, rfl⟩, hcode, rfl⟩, hcooldown, rfl⟩, hroles,
      rfl⟩, hchannels, rfl⟩

/-- **An accepted command is accepted again as it is.** -/
theorem settles_check : Settles check toJson := by
  intro v c h
  cases v with
  | obj members =>
    obtain ⟨hid, htenant, htrigger, hmode, hsigil, hlanguage, hcode, hcooldown, hroles, hchannels⟩ :=
      ofMembers_eq_ok_iff.mp h
    have hmodes : Settles (oneOf MatchMode.names MatchMode.ofLabel?) fun m => .str (text m.name) :=
      settles_oneOf ofLabel?_name
    have hsigils : Settles (optional string) fun t => .orNull (t.map .str) :=
      settles_optional settles_string nofun
    exact ofMembers_eq_ok_iff.mpr ⟨
      required_of_settles hid (settles_stringOf 1 none) rfl,
      required_of_settles htenant (settles_stringOf 1 none) rfl,
      required_of_settles htrigger settles_trigger? rfl,
      defaulted_of_settles hmode hmodes rfl rfl,
      defaulted_of_settles hsigil hsigils rfl rfl,
      required_of_settles hlanguage settles_string rfl,
      required_of_settles hcode settles_string rfl,
      defaulted_of_settles hcooldown (settles_integerIn _ _) rfl rfl,
      defaulted_of_settles hroles settles_textSet textSet_nil rfl,
      defaulted_of_settles hchannels settles_textSet textSet_nil rfl⟩
  | null | bool _ | int _ | real _ | str _ | arr _ => cases h

/-- **What the checks of a command guarantee.** -/
theorem valid_of_check {v : Json} {c : Command} (h : check v = .ok c) : c.Valid := by
  cases v with
  | obj members =>
    obtain ⟨hid, htenant, htrigger, -, -, -, -, hcooldown, -, -⟩ := ofMembers_eq_ok_iff.mp h
    obtain ⟨vid, hid⟩ := exists_of_required hid
    obtain ⟨vtenant, htenant⟩ := exists_of_required htenant
    obtain ⟨vtrigger, htrigger⟩ := exists_of_required htrigger
    have hbounds : 0 ≤ c.cooldownMs ∧ c.cooldownMs ≤ maxCooldownMs := by
      rcases exists_of_defaulted hcooldown with hdefault | ⟨vcooldown, hcooldown⟩
      · rw [hdefault]
        decide
      · exact bounds_of_integerIn hcooldown
    exact {
      id_ne := ne_nil_of_stringOf hid
      tenant_ne := ne_nil_of_stringOf htenant
      trigger_not_blank := not_blank_of_trigger? htrigger
      cooldown_nonneg := hbounds.1
      cooldown_le := hbounds.2 }
  | null | bool _ | int _ | real _ | str _ | arr _ => cases h

end Command

/-! ### Both layouts -/

namespace Registry

open Schema

/-- The fault of a part as that of the whole, which has the part at `step`. -/
def beneath (step : Step) (f : Fault) : Fault :=
  { f with issues := f.issues.map fun i => { i with path := step :: i.path } }

theorem orFault_under {α : Type} (x : Checked α) (step : Step) :
    (x.under step).orFault = x.orFault.mapError (beneath step) := by
  cases x <;> rfl

namespace CommandFile

/-- The step from a file to its commands. -/
def toCommands : Step := .name (text "commands")

/-- The text of a list of commands as the file that has nothing but these commands. -/
def wrapped (t : Text) : Text := Json.asMember (text "commands") t

/-- The text holds a list.  A numeral in it may be too long, which the reader of the text reports before
anything is checked. -/
def HoldsList (t : Text) : Prop :=
  (∃ items, Json.parse t = .ok (.arr items)) ∨
    ∃ digits place, Json.read t = .error ⟨.longNumeral digits, place⟩

/-- What is made of the list `t` and of the file `u` that has the list as its commands. -/
structure Agree (t u : Text) : Prop where
  /-- Both are accepted with the same contents, or neither is. -/
  accepted : ∀ f, parse t = .ok f ↔ parse u = .ok f
  /-- There is one command for each item, in order, and no prefix. -/
  contents : ∀ f, parse t = .ok f → f.sigils = [] ∧
    ∀ items, Json.parse t = .ok (.arr items) →
      List.Forall₂ (fun v c => Command.check v = .ok c) items f.commands
  /-- Another check of the commands changes nothing. -/
  settled : ∀ f, parse t = .ok f →
    check (.obj [(text "commands", .arr (f.commands.map Command.toJson))]) = .ok f
  /-- The same issues are reported in the same order, for the file beneath its commands. -/
  rejected : ∀ fault, parse t = .error fault → parse u = .error (beneath toCommands fault)
  /-- They are the issues of the check, unless the reader gave up on a numeral. -/
  reported : ∀ fault, parse t = .error fault →
    fault = .invalid fault.issues ∨ fault.kind = .value ∧ fault.issues = []

variable {t u : Text} {items : List Json}

theorem check_commands (items : List Json) :
    check (.obj [(text "commands", .arr items)]) = (check (.arr items)).under toCommands := by
  change Checked.seq (.ok _) ((list Command.check (.arr items)).under toCommands) =
    ((list Command.check (.arr items)).map _).under toCommands
  cases list Command.check (.arr items) <;> rfl

theorem parse_eq_ok_iff_read {v : Json} : Json.parse t = .ok v ↔ Json.read t = .ok v := by
  unfold Json.parse
  cases Json.read t <;> simp [Except.mapError]

theorem parse_of_parse {v : Json} (h : Json.parse t = .ok v) : parse t = (check v).orFault := by
  rw [parse, h]
  rfl

theorem parse_of_longNumeral {digits place : Nat}
    (h : Json.read t = .error ⟨.longNumeral digits, place⟩) :
    parse t = .error (.of .value (Json.Problem.longNumeral digits).message) := by
  rw [parse, Json.parse, h]
  rfl

theorem parse_wrapped (h : HoldsList t) :
    parse (wrapped t) = (parse t).mapError (beneath toCommands) := by
  have hname : Text.Scalars (text "commands") := Text.scalars_text _
  obtain ⟨items, hitems⟩ | ⟨digits, place, hlong⟩ := h
  · have hread : Json.parse (wrapped t) = .ok (.obj [(text "commands", .arr items)]) :=
      parse_eq_ok_iff_read.mpr (Json.read_asMember_of_ok hname (parse_eq_ok_iff_read.mp hitems))
    rw [parse_of_parse hitems, parse_of_parse hread, check_commands, orFault_under]
  · obtain ⟨place', hlong'⟩ := Json.read_asMember_of_longNumeral hname hlong
    rw [parse_of_longNumeral hlong, wrapped, parse_of_longNumeral hlong']
    rfl

/-- The fault of a list that is not accepted. -/
theorem reported_of_holdsList {fault : Fault} (h : HoldsList t) (hparse : parse t = .error fault) :
    fault = .invalid fault.issues ∨ fault.kind = .value ∧ fault.issues = [] := by
  obtain ⟨items, hitems⟩ | ⟨digits, place, hlong⟩ := h
  · rw [parse_of_parse hitems] at hparse
    cases hcheck : check (.arr items) with
    | ok f =>
      rw [hcheck] at hparse
      cases hparse
    | issues is =>
      rw [hcheck] at hparse
      cases hparse
      exact .inl rfl
  · rw [parse_of_longNumeral hlong] at hparse
    cases hparse
    exact .inr ⟨rfl, rfl⟩

theorem list_of_holdsList {f : CommandFile} (h : HoldsList t) (hparse : parse t = .ok f) :
    ∃ items, Json.parse t = .ok (.arr items) := by
  obtain hitems | ⟨digits, place, hlong⟩ := h
  · exact hitems
  · rw [parse_of_longNumeral hlong] at hparse
    cases hparse

theorem contents_of_list {f : CommandFile} (hitems : Json.parse t = .ok (.arr items))
    (hparse : parse t = .ok f) :
    list Command.check (.arr items) = .ok f.commands ∧ f.sigils = [] := by
  rwa [parse_of_parse hitems, Checked.orFault_eq_ok_iff, check_arr_eq_ok_iff] at hparse

end CommandFile

end Registry

end ChatCommands
