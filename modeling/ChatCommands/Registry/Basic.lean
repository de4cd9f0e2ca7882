import ChatCommands.World

/-!
Registries: where an engine reads the commands and the prefix of a tenant.
-/

namespace ChatCommands.Registry

/-- A registry; not every registry knows prefixes. -/
structure Source (ω : Type) where
  commands : (tenant : Text) → Action ω (List Command)
  sigil : Option ((tenant : Text) → Action ω (Option Text))

end ChatCommands.Registry
