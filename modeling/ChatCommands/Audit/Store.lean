import ChatCommands.Fault.Basic
import ChatCommands.Run

/-!
A store of audit entries that keeps the newest entries of each tenant.
-/

namespace ChatCommands.Audit

/-- Entries by tenant, oldest first; tenants in the order of their first entry. -/
structure Store where
  retention : Option Nat := none
  tenants : List (Text × List AuditEntry) := []
  deriving Inhabited

namespace Store

/-- The newest `keep` entries. -/
def newest (keep : Nat) (es : List AuditEntry) : List AuditEntry := es.drop (es.length - keep)

/-- The entries of a tenant. -/
def entriesOf (s : Store) (tenant : Text) : List AuditEntry := (s.tenants.lookup tenant).getD []

/-- All entries, tenant by tenant. -/
def entries (s : Store) : List AuditEntry := s.tenants.flatMap (·.2)

/-- Appends an entry; the oldest entries give way where the store has a bound of its own. -/
def append (s : Store) (e : AuditEntry) : Store :=
  let bounded (es : List AuditEntry) : List AuditEntry := s.retention.elim es fun n => newest n es
  { s with tenants :=
      if s.tenants.any fun t => t.1 == e.tenant then
        s.tenants.map fun (t, es) => (t, if t = e.tenant then bounded (es ++ [e]) else es)
      else s.tenants ++ [(e.tenant, bounded [e])] }

/-- Keeps the newest `keep` entries of a tenant. -/
def trim (s : Store) (tenant : Text) (keep : Nat) : Store :=
  { s with tenants := s.tenants.map fun (t, es) => (t, if t = tenant then newest keep es else es) }

/-- Trims the entries of a tenant and tells how many went.  A negative bound is a fault once there
is nothing left to remove. -/
def trim? (s : Store) (tenant : Text) (keep : Int) : Except Fault Nat × Store :=
  let n := (s.entriesOf tenant).length
  let kept := s.trim tenant keep.toNat
  if keep < 0 && s.tenants.any fun t => t.1 == tenant then
    (.error (.of .index (text "pop from an empty deque")), kept)
  else (.ok (n - keep.toNat), kept)

end Store

end ChatCommands.Audit
