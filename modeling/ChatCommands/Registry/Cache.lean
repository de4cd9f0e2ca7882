import ChatCommands.Number.Shortest
import ChatCommands.Registry.Basic
import ChatCommands.Registry.Store

/-!
A registry that remembers what another one has answered.

An answer counts for a limited time.  After that the other registry is asked again; if it fails, the
old answer is given once more, and only where there is none the failure is passed on.
-/

namespace ChatCommands.Registry

open Concurrency

variable {ω α : Type}

/-- How long answers count, and the clock by which they age, both in seconds. -/
structure CacheSettings (ω : Type) where
  ttl : Rat
  clock : Action ω Rat

/-- Times in seconds are subtracted as floating-point numbers. -/
def age (now before : Rat) : Rat := Binary64.snap (now - before)

/-- A cached answer counts still. -/
def isFresh (ttl now : Rat) (c : Cached α) : Bool := age now c.readAt < ttl

/-- A place in the shared state that holds answers by tenant. -/
structure CachePlace (ω α : Type) where
  get : World ω → List (Text × Cached α)
  set : List (Text × Cached α) → World ω → World ω

/-- The cached commands. -/
def commandPlace : CachePlace ω (List Command) :=
  ⟨(·.cachedCommands), fun c w => { w with cachedCommands := c }⟩

/-- The cached prefixes. -/
def sigilPlace : CachePlace ω (Option Text) :=
  ⟨(·.cachedSigils), fun c w => { w with cachedSigils := c }⟩

/-- Answers from the cache or by asking; `stale` logs that an old answer is given. -/
def lookUp (s : CacheSettings ω) (p : CachePlace ω α) (tenant : Text) (ask : Action ω α)
    (stale : (age : Rat) → Fault → Action ω Unit) : Action ω α := do
  let now ← s.clock
  let cached ← Act.gets fun w => (p.get w).lookup tenant
  match cached with
  | none =>
    let v ← ask
    Act.modify fun w => p.set (Store.assign tenant ⟨now, v⟩ (p.get w)) w
    pure v
  | some c =>
    if isFresh s.ttl now c then pure c.value
    else
      match ← Act.attempt ask with
      | .ok v =>
        Act.modify fun w => p.set (Store.assign tenant ⟨now, v⟩ (p.get w)) w
        pure v
      | .error (.fault f) =>
        stale (age now c.readAt) f
        pure c.value
      | .error .interrupted => Act.fail .interrupted

/-- Commands by way of the cache. -/
def cachedCommands (s : CacheSettings ω) (inner : Source ω) (tenant : Text) :
    Action ω (List Command) :=
  lookUp s commandPlace tenant (inner.commands tenant) fun age f =>
    Action.log .warning .store (text "Registry refresh failed, serving stale commands")
      [("tenant_id", .str tenant), ("age_seconds", .real (Binary64.roundToTenths age)),
        ("error", .str f.wording)]

/-- A prefix by way of the cache; a registry without prefixes has none. -/
def cachedSigil (s : CacheSettings ω) (inner : Source ω) (tenant : Text) : Action ω (Option Text) :=
  match inner.sigil with
  | none => pure none
  | some ask =>
    lookUp s sigilPlace tenant (ask tenant) fun _ f =>
      Action.log .warning .store (text "Prefix refresh failed, serving stale prefix")
        [("tenant_id", .str tenant), ("error", .str f.wording)]

/-- The registry with a cache in front. -/
def cached (s : CacheSettings ω) (inner : Source ω) : Source ω :=
  ⟨cachedCommands s inner, some (cachedSigil s inner)⟩

/-- Drops what is cached for a tenant, or everything. -/
def invalidate (tenant : Option Text) : Action ω Unit :=
  Act.modify fun w =>
    match tenant with
    | none => { w with cachedCommands := [], cachedSigils := [] }
    | some t =>
      { w with
        cachedCommands := w.cachedCommands.filter fun c => c.1 ≠ t
        cachedSigils := w.cachedSigils.filter fun c => c.1 ≠ t }

end ChatCommands.Registry
