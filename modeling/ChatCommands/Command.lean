import ChatCommands.Language
import ChatCommands.Schema.Field

/-!
Commands: what a tenant defines to be run when a chat message triggers it.
-/

namespace ChatCommands

open Schema

/-- How a trigger is compared with the text of a message. -/
inductive MatchMode
  | prefixed
  | exact
  | startsWith
  deriving DecidableEq, Repr, Inhabited

namespace MatchMode

/-- Every mode. -/
def all : List MatchMode := [prefixed, exact, startsWith]

/-- The name of a mode. -/
def name : MatchMode → String
  | prefixed => "prefix"
  | exact => "exact"
  | startsWith => "starts_with"

/-- The names of all modes. -/
def names : List String := all.map name

/-- Further labels of modes, in lower case. -/
def labels : List (String × MatchMode) :=
  [("command (prefix)", prefixed), ("prefixcommand", prefixed), ("exact match", exact),
    ("exactmatch", exact), ("starts with", startsWith), ("startswith", startsWith)]

/-- The mode of a name, or of a label in any case and with blanks around it. -/
def ofLabel? (t : Text) : Option MatchMode :=
  match all.find? fun m => text m.name == t with
  | some m => some m
  | none =>
    let key := Text.lowerAscii (Text.strip t)
    (labels.find? fun (l, _) => text l == key).map (·.2)

end MatchMode

/-- A command.  `sigil` is the prefix that a message must show before the trigger in the mode
`prefixed`; without one the tenant's prefix counts. -/
structure Command where
  id : Text
  tenant : Text
  trigger : Text
  mode : MatchMode := .prefixed
  sigil : Option Text := none
  language : Text
  code : Text
  cooldownMs : Int := 0
  roles : List Text := []
  channels : List Text := []
  deriving DecidableEq, Repr, Inhabited

namespace Command

/-- The longest cooldown of a command. -/
def maxCooldownMs : Int := 60000

/-- A trigger must not be blank. -/
def trigger? : Check Text := fun v =>
  (stringOf 1 none v).andThen fun t =>
    if (Text.strip t).isEmpty then .fail (.rule (text "Trigger cannot be blank")) else .ok t

/-- The fields of a command. -/
def ofMembers (ms : List (Text × Json)) : Checked Command :=
  Command.mk <$> required ms "id" (stringOf 1 none)
    <*> required ms "tenant_id" (stringOf 1 none)
    <*> required ms "trigger" trigger?
    <*> defaulted ms "match_mode" .prefixed (oneOf MatchMode.names MatchMode.ofLabel?)
    <*> defaulted ms "prefix" none (optional string)
    <*> required ms "language" string
    <*> required ms "code" string
    <*> defaulted ms "cooldown_ms" 0 (integerIn (some 0) (some maxCooldownMs))
    <*> defaulted ms "role_restriction" [] textSet
    <*> defaulted ms "channel_restriction" [] textSet

/-- Checks a JSON value as a command. -/
def check : Check Command := object "Command" ofMembers

/-- A command as a JSON value. -/
def toJson (c : Command) : Json :=
  .record [("id", .str c.id), ("tenant_id", .str c.tenant), ("trigger", .str c.trigger),
    ("match_mode", .str (text c.mode.name)), ("prefix", .orNull (c.sigil.map .str)),
    ("language", .str c.language), ("code", .str c.code), ("cooldown_ms", .int c.cooldownMs),
    ("role_restriction", .texts c.roles), ("channel_restriction", .texts c.channels)]

/-- What the checks of a command guarantee. -/
structure Valid (c : Command) : Prop where
  id_ne : c.id ≠ []
  tenant_ne : c.tenant ≠ []
  trigger_not_blank : Text.isBlankText c.trigger = false
  cooldown_nonneg : 0 ≤ c.cooldownMs
  cooldown_le : c.cooldownMs ≤ maxCooldownMs

end Command

end ChatCommands
