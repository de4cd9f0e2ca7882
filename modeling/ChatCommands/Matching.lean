import ChatCommands.Command
import ChatCommands.Text.Folding

/-!
Which command a message triggers.

Commands are tried in the order of the registry.  The first one whose trigger matches and whose
restrictions admit the author and the channel is the one that runs; a command that matches but does
not admit the message is passed over.
-/

namespace ChatCommands.Matching

/-- How texts are compared, and the prefixes for commands without one of their own. -/
structure Convention where
  tenantSigil : Option Text := none
  defaultSigil : Text := [33]
  caseInsensitive : Bool := true

/-- A text in the form in which it is compared. -/
def normalize (caseInsensitive : Bool) (t : Text) : Text :=
  if caseInsensitive then Text.fold t else t

/-- The first of two texts that is present and not empty. -/
def orElse (t : Option Text) (other : Text) : Text :=
  match t with
  | some (c :: t) => c :: t
  | _ => other

/-- The prefix that counts for a command. -/
def sigilOf (cv : Convention) (c : Command) : Text :=
  orElse c.sigil (orElse cv.tenantSigil cv.defaultSigil)

/-- The trigger of the command matches the text. -/
def triggers (cv : Convention) (c : Command) (content : Text) : Bool :=
  let norm := normalize cv.caseInsensitive
  match c.mode with
  | .prefixed => (norm (sigilOf cv c) ++ norm c.trigger).isPrefixOf (norm content)
  | .exact => norm content == norm c.trigger
  | .startsWith => (norm c.trigger).isPrefixOf (norm content)

/-- The restrictions of the command admit an author with these roles in this channel; an empty list
restricts nothing. -/
def admits (c : Command) (roles : List Text) (channel : Text) : Bool :=
  (c.roles.isEmpty || roles.any c.roles.contains) &&
    (c.channels.isEmpty || c.channels.contains channel)

/-- The command fires for the message. -/
def fires (cv : Convention) (roles : List Text) (channel content : Text) (c : Command) : Bool :=
  triggers cv c content && admits c roles channel

/-- The first command that fires. -/
def first? (cv : Convention) (roles : List Text) (channel content : Text) (cs : List Command) :
    Option Command :=
  cs.find? (fires cv roles channel content)

end ChatCommands.Matching
