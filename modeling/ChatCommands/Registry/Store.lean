import ChatCommands.Command

/-!
A store of commands and prefixes, tenant by tenant.

Each tenant has its commands in the order in which their identifiers were added; a command added
again under a known identifier takes the place of the older one.
-/

namespace ChatCommands.Registry

/-- Commands by tenant, and the prefixes of tenants. -/
structure Store where
  commands : List (Text × List Command) := []
  sigils : List (Text × Text) := []
  deriving Inhabited

/-- Puts a command in the place of the one with its identifier, or at the end. -/
def place (c : Command) : List Command → List Command
  | [] => [c]
  | d :: rest => if d.id = c.id then c :: rest else d :: place c rest

namespace Store

/-- The commands of a tenant. -/
def commandsOf (s : Store) (tenant : Text) : List Command := (s.commands.lookup tenant).getD []

/-- The prefix of a tenant. -/
def sigilOf (s : Store) (tenant : Text) : Option Text := s.sigils.lookup tenant

/-- Sets the value under a key. -/
def assign {α : Type} (key : Text) (value : α) : List (Text × α) → List (Text × α)
  | [] => [(key, value)]
  | (k, v) :: rest => if k = key then (k, value) :: rest else (k, v) :: assign key value rest

/-- Adds or replaces a command. -/
def add (s : Store) (c : Command) : Store :=
  { s with commands := assign c.tenant (place c (s.commandsOf c.tenant)) s.commands }

/-- Removes a command of a tenant. -/
def remove (s : Store) (tenant id : Text) : Store :=
  { s with commands := s.commands.map fun (t, cs) =>
      (t, if t = tenant then cs.filter fun c => c.id ≠ id else cs) }

/-- A tenant has a command with this identifier. -/
def has (s : Store) (tenant id : Text) : Bool := (s.commandsOf tenant).any fun c => c.id == id

/-- Sets the prefix of a tenant, or takes it away. -/
def setSigil (s : Store) (tenant : Text) : Option Text → Store
  | some p => { s with sigils := assign tenant p s.sigils }
  | none => { s with sigils := s.sigils.filter fun x => x.1 ≠ tenant }

/-- A store filled with commands in order. -/
def ofCommands (cs : List Command) (sigils : List (Text × Text)) : Store :=
  cs.foldl add { sigils }

end Store

end ChatCommands.Registry
