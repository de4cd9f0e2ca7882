import ChatCommands.Proofs.Engine.Refusals
import ChatCommands.Registry.Store

/-!
Whose runs a cooldown counts.

A cooldown counts for an author and the identifier of a command.  So a message is refused by the
limiter only for an earlier run by the same author of a command with the same identifier; that run
is one of the same tenant as long as the registry lists no identifier for two tenants.
-/

namespace ChatCommands.Engine

open Concurrency Cooldown

variable {ω : Type} {e : Setup ω} {n : Nat} {m : Message} {c : Command} {r : Reservation}
  {l : Language} {ds : List Deed}

/-- The registry has listed no identifier for two tenants. -/
def IdsApart (ds : List Deed) : Prop :=
  ∀ n tenant commands sigil n' tenant' commands' sigil',
    .listed n tenant commands sigil ∈ ds → .listed n' tenant' commands' sigil' ∈ ds →
    ∀ c ∈ commands, ∀ c' ∈ commands', c.id = c'.id → tenant = tenant'

/-- The command of a message that has fired it was listed for its tenant. -/
theorem Matched.mem {commands : List Command} {sigil : Option Text}
    (h : Matched e n m commands sigil c ds) : c ∈ commands :=
  List.mem_of_find?_eq_some h.first

theorem Launched.listed (h : Launched e n m c r l ds) :
    ∃ commands sigil, .listed n m.tenant commands sigil ∈ ds ∧ c ∈ commands := by
  cases h with
  | @intro later earlier commands sigil now h _ _ => exact ⟨commands, sigil, by simp, h.mem⟩

/-- **A message is refused by the limiter for an earlier run by its author** of a command with the
same identifier, less than the cooldown before; and where identifiers are not shared between tenants,
that was a run of the same tenant. -/
theorem rate_limited_for_author (he : e.Sealed) (hgenuine : e.Genuine Documented)
    {k : Scheduler (World ω) Product} (hk : e.Run k) (jobs : Nat) {later earlier : List Deed}
    {result : RunResult} {retryAfterMs : Int}
    (hdeeds : (k.amid jobs).shared.docket.deeds =
      later ++ .concluded n m c result retryAfterMs :: earlier)
    (hlimited : result.status = .rateLimited) :
    ∃ now n' m' c' r l, .asked m c now none ∈ earlier ∧ n' ≠ n ∧
      Launched e n' m' c' r l earlier ∧ m'.author = m.author ∧ c'.id = c.id ∧
      elapsed now r.issued < c.cooldownMs ∧ (IdsApart earlier → m'.tenant = m.tenant) := by
  obtain ⟨-, hchronicle⟩ := hk.chronicle he hgenuine jobs
  rw [hdeeds] at hchronicle
  obtain ⟨before, now, commands, sigil, r, hbefore, rfl, hmatched, hdue⟩ :=
    hchronicle.rateLimited hlimited
  obtain ⟨n', m', c', l, hlaunched⟩ := hbefore.launched hdue.committed
  have hkey : cooldownKey m' c' = cooldownKey m c := hlaunched.key.symm.trans hdue.key
  obtain ⟨commands', sigil', hlisted, hmem⟩ := hlaunched.listed
  refine ⟨now, n', m', c', r, l, by simp, ?_, hlaunched.append [_, _, _], congrArg Key.author hkey,
    congrArg Key.command hkey, hdue.recent, fun hapart => ?_⟩
  · rintro rfl
    have hown := mem_ownDeeds.mpr
      ⟨hlisted, (rfl : Deed.number? (.listed n' m'.tenant commands' sigil') = some n')⟩
    simp [hmatched.own] at hown
  · exact hapart n' m'.tenant commands' sigil' n m.tenant commands sigil (by simp [hlisted])
      (by simp) c' hmem c hmatched.mem (congrArg Key.command hkey)

/-- The deed lists for another tenant than this one. -/
def listsElsewhere (tenant : Text) : Deed → Bool
  | .listed _ t _ _ => t != tenant
  | _ => false

theorem idsApart_of_tenant {tenant : Text} (h : ds.any (listsElsewhere tenant) = false) :
    IdsApart ds := by
  intro n t commands sigil n' t' commands' sigil' hmem hmem' _ _ _ _ _
  have hone : ∀ {n t commands sigil}, .listed n t commands sigil ∈ ds → t = tenant := fun hmem => by
    simpa [listsElsewhere] using List.any_eq_false.mp h _ hmem
  rw [hone hmem, hone hmem']

theorem rate_limited_for_author_inHaste :
    ∃ later earlier n m result retryAfterMs n' m' c' r l,
      (greetedInHaste.amid 0).shared.docket.deeds =
        later ++ .concluded n m hello result retryAfterMs :: earlier ∧
      result.status = .rateLimited ∧ Launched greeter n' m' c' r l earlier ∧ n' ≠ n ∧
      m'.author = m.author ∧ c'.id = hello.id ∧ m'.tenant = m.tenant := by
  have hany : (greetedInHaste.amid 0).shared.docket.deeds.any (concludes hello .rateLimited) =
      true := by decide +kernel
  have htenant : (greetedInHaste.amid 0).shared.docket.deeds.any (listsElsewhere (text "tenant")) =
      false := by decide +kernel
  obtain ⟨later, earlier, n, m, result, retryAfterMs, hdeeds, hresult⟩ := concludes_of_any hany
  obtain ⟨now, n', m', c', r, l, -, hne, hlaunched, hauthor, hid, -, hsame⟩ :=
    rate_limited_for_author greeter_sealed greeter_documented greetedInHaste_run 0 hdeeds hresult
  rw [hdeeds, List.any_append, List.any_cons] at htenant
  simp only [Bool.or_eq_false_iff] at htenant
  exact ⟨later, earlier, n, m, result, retryAfterMs, n', m', c', r, l, hdeeds, hresult, hlaunched,
    hne, hauthor, hid, hsame (idsApart_of_tenant htenant.2.2)⟩

/-! ### One identifier in two tenants -/

/-- A command of another tenant with the same identifier. -/
def helloElsewhere : Command := { hello with tenant := text "elsewhere" }

/-- An engine with both commands. -/
def twoTenants : Setup Rat :=
  let store := Registry.Store.ofCommands [hello, helloElsewhere] []
  { greeter with
    registry :=
      { commands := fun tenant => pure (store.commandsOf tenant)
        sigil := some fun tenant => pure (store.sigilOf tenant) } }

theorem twoTenants_sealed : twoTenants.Sealed where
  commands _ := Act.avoids_closed.pure _
  sigil ask hask tenant := by
    cases hask
    exact Act.avoids_closed.pure _
  runtimes l run hrun code bindings timeout := by
    obtain ⟨-, rfl⟩ := Prod.mk.inj (List.mem_singleton.mp hrun)
    exact Act.avoids_closed.pure _
  reply := nofun
  audit := nofun

/-- The same greeting in the other tenant. -/
def greetingElsewhere : Message := { greeting with tenant := text "elsewhere" }

/-- The engine after one author has sent a greeting in each tenant. -/
def greetedElsewhere : Scheduler (World Rat) Product :=
  let new : Scheduler (World Rat) Product := { shared := { env := 0 } }
  let first := (new.addTask false (Act.toTask .outcome (handle twoTenants greeting))).2
  (first.addTask false (Act.toTask .outcome (handle twoTenants greetingElsewhere))).2.rounds 4

theorem greetedElsewhere_run : twoTenants.Run greetedElsewhere := by
  have hnew : twoTenants.Run { shared := { env := 0 } } := .start ⟨rfl, rfl, rfl⟩
  exact ((hnew.arrive (.handle .outcome greeting)).arrive
    (.handle .outcome greetingElsewhere)).rounds 4

/-- The message of the other tenant has the number one, and only it is refused. -/
def numbersElsewhere : Deed → Bool
  | .received i m _ => (m.tenant == text "elsewhere") == (i == 1)
  | .concluded i _ _ result _ => result.status != .rateLimited || i == 1
  | _ => true

theorem twoTenants_documented : twoTenants.Genuine Documented where
  runtimes := greeter_documented.runtimes
  some := greeter_documented.some

/-- **A message that is refused for a run of another tenant.**  The author has had no run in the
tenant of the message, but in another tenant, of a command with the same identifier. -/
theorem refused_for_other_tenant :
    ∃ later earlier n m result retryAfterMs, twoTenants.Run greetedElsewhere ∧
      (greetedElsewhere.amid 0).shared.docket.deeds =
        later ++ .concluded n m helloElsewhere result retryAfterMs :: earlier ∧
      result.status = .rateLimited ∧
      ∀ n' m' c' r l, Launched twoTenants n' m' c' r l earlier → m'.tenant ≠ m.tenant := by
  obtain ⟨-, hchronicle⟩ :=
    greetedElsewhere_run.chronicle twoTenants_sealed twoTenants_documented 0
  have hany : (greetedElsewhere.amid 0).shared.docket.deeds.any
      (concludes helloElsewhere .rateLimited) = true := by decide +kernel
  have hnumbers : (greetedElsewhere.amid 0).shared.docket.deeds.all numbersElsewhere = true := by
    decide +kernel
  obtain ⟨later, earlier, n, m, result, retryAfterMs, hdeeds, hlimited⟩ := concludes_of_any hany
  rw [hdeeds] at hchronicle hnumbers
  refine ⟨later, earlier, n, m, result, retryAfterMs, greetedElsewhere_run, hdeeds, hlimited, ?_⟩
  intro n' m' c' r l hlaunched htenant
  obtain ⟨before, -, hfresh, hturn, -⟩ := hchronicle.turnedAway (.rateLimited hlimited)
  have hnumber : ∀ d ∈ later ++ .concluded n m helloElsewhere result retryAfterMs :: earlier,
      numbersElsewhere d = true := List.all_eq_true.mp hnumbers
  obtain rfl : n = 1 := by
    simpa [numbersElsewhere, hlimited] using
      hnumber _ (List.mem_append_right later List.mem_cons_self)
  have hall := (hlaunched.append [.concluded 1 m helloElsewhere result retryAfterMs]).append later
  have hm : m.tenant = text "elsewhere" := by
    simpa [numbersElsewhere] using hnumber _ (hturn.received hfresh later)
  obtain rfl : n' = 1 := by
    simpa [numbersElsewhere, htenant, hm] using hnumber _ hall.received
  exact hturn.not_launched hfresh hall

end ChatCommands.Engine
