import ChatCommands.Command

/-!
Chat messages as the gateway delivers them, and the requests that they become once a command has
matched.
-/

namespace ChatCommands

open Schema

/-- A message. -/
structure Message where
  tenant : Text
  author : Text
  roles : List Text := []
  channel : Text
  content : Text
  fromBot : Bool := false
  id : Option Text := none
  deriving DecidableEq, Repr, Inhabited

namespace Message

/-- The fields of a message. -/
def ofMembers (ms : List (Text × Json)) : Checked Message :=
  Message.mk <$> required ms "tenant_id" string
    <*> required ms "author_id" string
    <*> defaulted ms "author_roles" [] textSet
    <*> required ms "channel_id" string
    <*> required ms "text" string
    <*> defaulted ms "author_is_bot" false flag
    <*> defaulted ms "message_id" none (optional string)

/-- Checks a JSON value as a message. -/
def check : Check Message := object "InboundMessage" ofMembers

/-- A message as a JSON value. -/
def toJson (m : Message) : Json :=
  .record [("tenant_id", .str m.tenant), ("author_id", .str m.author),
    ("author_roles", .texts m.roles), ("channel_id", .str m.channel), ("text", .str m.content),
    ("author_is_bot", .bool m.fromBot), ("message_id", .orNull (m.id.map .str))]

end Message

/-- A matched message with its command. -/
structure Request where
  command : Command
  author : Text
  roles : List Text := []
  channel : Text
  content : Text
  messageId : Option Text := none
  deriving DecidableEq, Repr, Inhabited

namespace Request

/-- The fields of a request. -/
def ofMembers (ms : List (Text × Json)) : Checked Request :=
  Request.mk <$> required ms "command" Command.check
    <*> required ms "author_id" string
    <*> defaulted ms "author_roles" [] textSet
    <*> required ms "channel_id" string
    <*> required ms "message_text" string
    <*> defaulted ms "message_id" none (optional string)

/-- Checks a JSON value as a request. -/
def check : Check Request := object "ExecutionRequest" ofMembers

/-- A request as a JSON value. -/
def toJson (r : Request) : Json :=
  .record [("command", r.command.toJson), ("author_id", .str r.author),
    ("author_roles", .texts r.roles), ("channel_id", .str r.channel),
    ("message_text", .str r.content), ("message_id", .orNull (r.messageId.map .str))]

/-- The request of a message that triggered a command. -/
def of (m : Message) (c : Command) : Request :=
  ⟨c, m.author, m.roles, m.channel, m.content, m.id⟩

/-- What a script may know of the request; the roles are in ascending order. -/
def bindings (r : Request) : Json :=
  .record [
    ("message", .record [("id", .orNull (r.messageId.map .str)), ("content", .str r.content)]),
    ("author", .record [("id", .str r.author), ("roles", .texts (Text.sortedSet r.roles))]),
    ("channel", .record [("id", .str r.channel)]),
    ("guild", .record [("id", .str r.command.tenant)]),
    ("command", .record [("id", .str r.command.id), ("trigger", .str r.command.trigger)])]

end Request

end ChatCommands
