import ChatCommands.Proofs.Engine.Admission
import ChatCommands.Proofs.Engine.Handling

/-!
An engine leaves a chronicle, whatever comes to it.

Messages are handled at the same time, the limiter is pruned now and then, the engine is switched on
and off and stopped.  Between any two turns of tasks the history is a chronicle.
-/

namespace ChatCommands.Engine

open Concurrency Cooldown Act

variable {ω α β : Type} {e : Setup ω} {genuine : RunResult → Prop}

/-! ### The life of an engine -/

section

variable {ρ₀ : Role}

/-- Keeps the charter, as a task without a number. -/
abbrev Upholds (e : Setup ω) (genuine : RunResult → Prop) (x : Action ω α) : Prop :=
  Fulfils (workCharter e genuine) (fun ρ w => ρ = .newcomer ∧ (workCharter e genuine).holds w) x
    fun _ ρ w => ρ = .newcomer ∧ (workCharter e genuine).holds w

theorem upholds_bind {x : Action ω α} {f : α → Action ω β} (hx : Upholds e genuine x)
    (hf : ∀ a, Upholds e genuine (f a)) : Upholds e genuine (x >>= f) :=
  fulfils_bind hx hf fun _ _ _ h => h

theorem upholds_prune : Upholds e genuine (prune e) := by
  refine upholds_bind (fulfils_change ?_) fun counts => ?_
  · rintro ρ w ⟨rfl, hkept, hchronicle⟩
    let now := e.clock w.env
    have hdocket : World.docket { w with
        limiter := w.limiter.prune e.cooldowns now, deeds := .pruned now :: w.deeds } =
          ⟨w.messages, w.limiter.prune e.cooldowns now, .pruned now :: w.docket.deeds⟩ := rfl
    have hlimiter : w.limiter = limiterAfter e.cooldowns w.docket.deeds := hkept.limiter
    refine ⟨.newcomer, .same ⟨Nat.le_refl _, [.pruned now], rfl, ?_⟩, rfl, ⟨hkept.messages, ?_⟩, ?_⟩
    · intro d hd i hi
      obtain rfl := List.mem_singleton.mp hd
      cases hi
    · rw [hdocket, limiterAfter_cons, ← hlimiter]
      rfl
    · exact .more (b := [_]) hchronicle (.pruned now)
  · exact fulfils_holds (avoids_closed.ite
      (avoids_closed.bind (avoids_closed.log rfl) fun _ => avoids_closed.pure _) (avoids_closed.pure _))

theorem upholds_sweep : Upholds e genuine (sweep e) :=
  upholds_bind (fulfils_holds (avoids_closed.sleep _)) fun _ =>
    upholds_bind upholds_prune fun _ => fulfils_holds (avoids_closed.pure ())

theorem upholds_startSweeper : Upholds e genuine (startSweeper e) := by
  refine fulfils_gets_bind fun sweeper => ?_
  split
  · exact upholds_bind (fulfils_spawnForever (upholds_sweep.of_post fun _ _ _ h => h.2)
      fun _ _ h => ⟨by rw [h.1]; rfl, fun _ => h⟩) fun t => fulfils_holds (avoids_closed.afterStart t)
  · exact fulfils_holds (avoids_closed.pure ())

theorem upholds_dispatch (he : e.Sealed) (hgenuine : e.Genuine genuine)
    (m : Message) : Upholds e genuine (dispatch e m) :=
  upholds_bind (fulfils_spawn (fulfils_handle he hgenuine m) fun _ _ h => ⟨by rw [h.1]; rfl, fun _ => h⟩)
    fun t => fulfils_holds (avoids_closed.afterDispatch t)

/-- A task that comes to an engine: one that has the engine do something, or any other that leaves
the work alone. -/
inductive Setup.Errand (e : Setup ω) : Task (World ω) Product → Prop
  | handle (toValue : Option Outcome → Product) (m : Message) :
    e.Errand (toTask toValue (Engine.handle e m))
  | dispatch (toValue : Unit → Product) (m : Message) :
    e.Errand (toTask toValue (Engine.dispatch e m))
  | prune (toValue : Nat → Product) : e.Errand (toTask toValue (Engine.prune e))
  | startSweeper (toValue : Unit → Product) : e.Errand (toTask toValue (Engine.startSweeper e))
  | stop (toValue : Unit → Product) : e.Errand (toTask toValue Engine.stop)
  | enable (toValue : Unit → Product) : e.Errand (toTask toValue Engine.enable)
  | disable (toValue : Unit → Product) : e.Errand (toTask toValue Engine.disable)
  | other {α : Type} (toValue : α → Product) {x : Action ω α} (hx : x.Avoids World.docket) :
    e.Errand (toTask toValue x)

theorem Setup.Errand.heeds (he : e.Sealed)
    (hgenuine : e.Genuine genuine) {body : Task (World ω) Product} (h : e.Errand body)
    (w : World ω) (hw : (workCharter e genuine).holds w) :
    body.Heeds (workCharter e genuine) .newcomer (fun _ => (workCharter e genuine).holds) w := by
  have hheeds : ∀ {α : Type} {toValue : α → Product} {x : Action ω α}, Upholds e genuine x →
      (toTask toValue x).Heeds (workCharter e genuine) .newcomer
        (fun _ => (workCharter e genuine).holds) w := fun hx =>
    heeds_toTask (hx.of_post fun _ _ _ h => h.2) ⟨rfl, hw⟩
  cases h with
  | handle toValue m => exact heeds_toTask (fulfils_handle he hgenuine m) ⟨rfl, hw⟩
  | dispatch toValue m => exact hheeds (upholds_dispatch he hgenuine m)
  | prune toValue => exact hheeds upholds_prune
  | startSweeper toValue => exact hheeds upholds_startSweeper
  | stop toValue => exact hheeds (fulfils_holds avoids_closed.stop)
  | enable toValue => exact hheeds (fulfils_holds avoids_closed.enable)
  | disable toValue => exact hheeds (fulfils_holds avoids_closed.disable)
  | other toValue hx => exact hheeds (fulfils_holds hx)

end

/-! ### Runs of an engine -/

/-- The states that a new engine comes to, whatever tasks come to it. -/
abbrev Setup.Run (e : Setup ω) : Scheduler (World ω) Product → Prop :=
  Scheduler.Reachable (fun w => w.messages = 0 ∧ w.limiter = {} ∧ w.deeds = []) e.Errand

/-- **An engine leaves a chronicle.**  Between any two turns of tasks, the deeds about messages
are a chronicle, and the limiter is as they say. -/
theorem Setup.Run.chronicle (he : e.Sealed)
    (hgenuine : e.Genuine genuine) {k : Scheduler (World ω) Product} (hk : e.Run k) (jobs : Nat) :
    Kept e (k.amid jobs).shared.docket ∧ Chronicle e genuine (k.amid jobs).shared.docket.deeds := by
  have hstart : ∀ w : World ω, w.messages = 0 ∧ w.limiter = {} ∧ w.deeds = [] →
      (workCharter e genuine).holds w := by
    rintro w ⟨hmessages, hlimiter, hdeeds⟩
    change Kept e w.docket ∧ Chronicle e genuine w.docket.deeds
    rw [World.docket, hmessages, hlimiter, hdeeds]
    exact ⟨⟨rfl, rfl⟩, .nil⟩
  have hsettled := hk.settled workCharter_lawful (ρ := .newcomer) rfl hstart
    fun body hbody w hw => hbody.heeds he hgenuine w hw
  exact (hsettled.amid workCharter_lawful jobs).settled.holds

/-! ### An engine with one command -/

/-- The deed calls a runtime for the message with the number. -/
def entersFor (n : Nat) : Deed → Bool
  | .entered i _ => i == n
  | _ => false

theorem greeter_sealed : greeter.Sealed where
  commands _ := avoids_closed.pure _
  sigil := nofun
  runtimes l run hrun code bindings timeout := by
    obtain ⟨-, rfl⟩ := Prod.mk.inj (List.mem_singleton.mp hrun)
    exact avoids_closed.pure _
  reply := nofun
  audit := nofun

theorem greetedTwice_run : greeter.Run greetedTwice := by
  have hstart : greeter.Run { shared := { env := 0 } } := .start ⟨rfl, rfl, rfl⟩
  have hclock : greeter.Errand
      (toTask (fun _ => .nothing) (Action.onEnv fun _ => ((), 1000))) :=
    .other _ (avoids_closed.change fun _ => rfl)
  have hfirst := hstart.after (.handle .outcome greeting) (by decide +kernel)
  have hlater := Scheduler.Reachable.after hfirst hclock (by decide +kernel)
  exact Scheduler.Reachable.after hlater (.handle .outcome greeting) (by decide +kernel)

end ChatCommands.Engine
