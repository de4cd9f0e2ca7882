import ChatCommands.Proofs.Cooldown.Clock
import ChatCommands.Proofs.Engine.Fires
import ChatCommands.Proofs.Engine.History

/-!
Admission leaves nothing half-done.

At no wait is a reservation in flight.  A message that is turned away, be it by the limiter, by the
review, or for its language, has asked the limiter and been concluded within one turn, and no key
has another last fire after that turn than before it.  So whoever is refused a run is refused it for
a fire of a run that was launched.
-/

namespace ChatCommands.Engine

open Concurrency Cooldown

variable {ω : Type} {e : Setup ω} {genuine : RunResult → Prop} {n : Nat} {m : Message} {c : Command}
  {ds later earlier : List Deed} {result : RunResult} {retryAfterMs : Int}

/-- A result as runtimes return them. -/
def Documented (result : RunResult) : Prop :=
  result.status ∈ [Status.success, .scriptError, .timeout, .runtimeUnavailable]

/-- The message was turned away with this result. -/
inductive TurnedAway (e : Setup ω) (c : Command) (result : RunResult) : Prop
  | rateLimited (h : result.status = .rateLimited)
  | rejected (h : result.status = .securityRejected)
  | unsupported (h : runtimeLanguage? e c = none)
  | failed {f : Fault} (h : e.review c.language c.code = .error f)

theorem failureResult_status (e : Setup ω) (f : Fault) :
    (failureResult e f).status = .timeout ∨ (failureResult e f).status = .runtimeUnavailable := by
  unfold failureResult
  split
  · exact .inl rfl
  · exact .inr rfl

theorem failureResult_documented (e : Setup ω) (f : Fault) : Documented (failureResult e f) := by
  rcases failureResult_status e f with h | h <;> simp [Documented, h]

theorem Landing.documented {call : Option RuntimeCall} (h : Landing e Documented call result) :
    Documented result := by
  cases h with
  | ran h => exact h
  | failed call f => exact failureResult_documented e f

theorem Refusal.status (h : Refusal e c result) : result.status ≠ .rateLimited := by
  cases h with
  | @failed f _ => rcases failureResult_status e f with h | h <;> simp [h]
  | rejected | unsupported => nofun

/-- A run that was launched is not one of a message that is turned away. -/
theorem Launched.not_turnedAway {r : Reservation} {l : Language} (h : Launched e n m c r l ds)
    (hdocumented : Documented result) : ¬ TurnedAway e c result := by
  obtain ⟨-, -, ⟨⟨records, v, hreview, -⟩, hlanguage⟩⟩ := h
  rintro (h | h | h | h)
  · simp [Documented, h] at hdocumented
  · simp [Documented, h] at hdocumented
  · cases hlanguage.symm.trans h
  · cases hreview.symm.trans h

/-- The turn in which a message is refused, latest deed first; `before` is the history until then. -/
inductive RefusedIn (e : Setup ω) (n : Nat) (m : Message) (c : Command) :
    (before earlier : List Deed) → Prop
  | denied {before : List Deed} {commands : List Command} {sigil : Option Text} (now : Rat) :
    RefusedIn e n m c before
      (.asked m c now none :: .matched m c :: .listed n m.tenant commands sigil :: before)
  | released {before : List Deed} {commands : List Command} {sigil : Option Text} (now : Rat)
    (r : Reservation) :
    RefusedIn e n m c before
      (.released r :: .asked m c now (some r) :: .matched m c ::
        .listed n m.tenant commands sigil :: before)

theorem RefusedIn.listed {before : List Deed} (h : RefusedIn e n m c before earlier) :
    ∃ own commands sigil, earlier = own ++ .listed n m.tenant commands sigil :: before := by
  cases h with
  | @denied commands sigil now => exact ⟨[.asked m c now none, .matched m c], commands, sigil, rfl⟩
  | @released commands sigil now r =>
    exact ⟨[.released r, .asked m c now (some r), .matched m c], commands, sigil, rfl⟩

/-- **A message that is turned away** is refused within one turn, which records no fire. -/
theorem Chronicle.turnedAway
    (h : Chronicle e Documented (later ++ .concluded n m c result retryAfterMs :: earlier))
    (hturned : TurnedAway e c result) :
    ∃ before, Chronicle e Documented before ∧ ownDeeds n before = [.received n m true] ∧
      RefusedIn e n m c before earlier ∧
      Limiter.Unfired e.cooldowns.maxEntries (limiterAfter e.cooldowns before)
        (limiterAfter e.cooldowns earlier) := by
  cases h.conclusion with
  | @denied before commands sigil now hbefore hmatched hr =>
    refine ⟨before, hbefore, hmatched.own, .denied now, ?_⟩
    rw [limiterAfter_asked, (hbefore.calm.denied (answerTo_eq hr)).1]
    exact .refl _ _
  | @refused before commands sigil now r _ hbefore hmatched hr hres =>
    exact ⟨before, hbefore, hmatched.own, .released now r,
      (hbefore.calm.reserve_release (answerTo_eq hr)).2⟩
  | landed hbefore hlaunched _ hlanding =>
    exact absurd hturned (hlaunched.not_turnedAway hlanding.documented)

theorem RefusedIn.received {before : List Deed} (h : RefusedIn e n m c before earlier)
    (hown : ownDeeds n before = [.received n m true]) (later : List Deed) {d : Deed} :
    .received n m true ∈ later ++ d :: earlier := by
  have hmem : .received n m true ∈ before := (mem_ownDeeds.mp (hown ▸ List.mem_singleton_self _)).1
  obtain ⟨own, commands, sigil, rfl⟩ := h.listed
  simp [hmem]

/-- No run is launched for a message that is refused. -/
theorem RefusedIn.not_launched {before : List Deed} (h : RefusedIn e n m c before earlier)
    (hown : ownDeeds n before = [.received n m true]) {m' : Message} {c' : Command}
    {r : Reservation} {l : Language} :
    ¬ Launched e n m' c' r l (later ++ .concluded n m c result retryAfterMs :: earlier) := by
  intro hlaunched
  -- the turn of the refusal and the turn of the launch would be the same
  cases h with
  | @denied commands sigil now =>
    have hturn : Launched e n m' c' r l
        ((later ++ [.concluded n m c result retryAfterMs, .asked m c now none, .matched m c]) ++
          .listed n m.tenant commands sigil :: before) := by simpa using hlaunched
    obtain ⟨later', now', heq⟩ := hturn.turn hown
    simpa using congrArg List.reverse heq
  | @released commands sigil now r' =>
    have hturn : Launched e n m' c' r l
        ((later ++ [.concluded n m c result retryAfterMs, .released r', .asked m c now (some r'),
          .matched m c]) ++ .listed n m.tenant commands sigil :: before) := by
      simpa using hlaunched
    obtain ⟨later', now', heq⟩ := hturn.turn hown
    simpa using congrArg List.reverse heq

/-! ### Refusals by the limiter -/

/-- **A message is refused by the limiter only for a fire**, and that at once. -/
theorem Chronicle.rateLimited
    (h : Chronicle e Documented (later ++ .concluded n m c result retryAfterMs :: earlier))
    (hresult : result.status = .rateLimited) :
    ∃ before now commands sigil r, Chronicle e Documented before ∧
      earlier = .asked m c now none :: .matched m c :: .listed n m.tenant commands sigil :: before ∧
      Matched e n m commands sigil c before ∧ DueTo before m c now retryAfterMs r := by
  cases h.conclusion with
  | @denied before commands sigil now hbefore hmatched hr =>
    obtain ⟨r, hdue⟩ := hbefore.refused_for hr
    exact ⟨before, now, commands, sigil, r, hbefore, rfl, hmatched, hdue⟩
  | refused _ _ _ hres => exact absurd hresult hres.status
  | landed hbefore hlaunched _ hlanding =>
    exact absurd (.rateLimited hresult) (hlaunched.not_turnedAway hlanding.documented)

/-- The limiter was asked for a run that was launched, at the time at which it was issued. -/
theorem Launched.read {r : Reservation} {l : Language} (h : Launched e n m c r l ds) :
    r.issued ∈ ds.filterMap readAt? := by
  cases h with
  | @intro later earlier commands sigil now _ hr _ =>
    obtain ⟨-, rfl, -⟩ := Limiter.reserve_granted (answerTo_eq hr)
    simp [readAt?]

/-- A fire that is the reason of a refusal was issued before. -/
theorem DueTo.issued_le {before : List Deed} {now : Rat} {r : Reservation}
    (h : DueTo before m c now retryAfterMs r) (hbefore : Chronicle e genuine before)
    (hclock : ((.asked m c now none :: before).filterMap readAt?).Pairwise (· ≥ ·)) :
    r.issued ≤ now := by
  obtain ⟨n', m', c', l, hlaunched⟩ := hbefore.launched h.committed
  have hnow : (Deed.asked m c now none :: before).filterMap readAt? =
      now :: before.filterMap readAt? := List.filterMap_cons_some rfl
  rw [hnow, List.pairwise_cons] at hclock
  exact hclock.1 _ hlaunched.read

/-- **Nobody has to wait longer than the cooldown**, if the clock does not run backwards. -/
theorem DueTo.retry_le {before : List Deed} {now : Rat} {r : Reservation}
    (h : DueTo before m c now retryAfterMs r) (hc : c.Valid) (hissued : r.issued ≤ now) :
    retryAfterMs ≤ c.cooldownMs := by
  have hmax : c.cooldownMs ≤ 60000 := hc.cooldown_le
  rw [h.retry]
  exact truncate_elapsed_le hc.cooldown_nonneg (by omega) hissued

/-! ### Runs of an engine -/

/-- What a message that is turned away leaves: it asks for its run and is concluded within one turn,
in which no fire comes or goes, and every fire there is is that of a run for another message. -/
structure Traceless (e : Setup ω) (n : Nat) (m : Message) (c : Command) (later earlier ds before :
    List Deed) : Prop where
  fresh : ownDeeds n before = [.received n m true]
  turn : RefusedIn e n m c before earlier
  last : ownDeeds n later = []
  unfired : Limiter.Unfired e.cooldowns.maxEntries (limiterAfter e.cooldowns before)
    (limiterAfter e.cooldowns earlier)
  others : ∀ r, .committed r ∈ ds → ∃ n' m' c' l, n' ≠ n ∧ Launched e n' m' c' r l ds

/-- **Admission leaves nothing half-done.**  Between any two turns of tasks no reservation is in
flight, and a message that was turned away has left no trace in the cooldowns; if it was refused by
the limiter, then because of a fire. -/
theorem admission_leaves_nothing_half_done (he : e.Sealed) (hgenuine : e.Genuine Documented)
    {k : Scheduler (World ω) Product} (hk : e.Run k) (jobs : Nat) :
    (∀ p ∈ (k.amid jobs).shared.limiter.table, p.2.pending = none) ∧
      (k.amid jobs).shared.limiter =
        limiterAfter e.cooldowns (k.amid jobs).shared.docket.deeds ∧
      ∀ later earlier n m c result retryAfterMs,
        (k.amid jobs).shared.docket.deeds =
          later ++ .concluded n m c result retryAfterMs :: earlier →
        TurnedAway e c result →
        ∃ before, Traceless e n m c later earlier (k.amid jobs).shared.docket.deeds before ∧
          (result.status = .rateLimited → ∃ now r, .asked m c now none ∈ earlier ∧
            DueTo before m c now retryAfterMs r ∧
            (c.Valid → ((k.amid jobs).shared.docket.deeds.filterMap readAt?).Pairwise (· ≥ ·) →
              retryAfterMs ≤ c.cooldownMs)) := by
  obtain ⟨hkept, hchronicle⟩ := hk.chronicle he hgenuine jobs
  have hlimiter : (k.amid jobs).shared.limiter =
    limiterAfter e.cooldowns (k.amid jobs).shared.docket.deeds := hkept.limiter
  refine ⟨?_, hlimiter, ?_⟩
  · rw [hlimiter]
    exact fun p hp => hchronicle.calm.idle p.1 p.2
      ((Table.get?_eq_some_iff hchronicle.calm.nodup).mpr hp)
  generalize (k.amid jobs).shared.docket.deeds = ds at hchronicle
  rintro later earlier n m c result retryAfterMs rfl hturned
  obtain ⟨before, hbefore, hfresh, hturn, hunfired⟩ := hchronicle.turnedAway hturned
  refine ⟨before, ⟨hfresh, hturn, hchronicle.concluded_last.1, hunfired, fun r hr => ?_⟩,
    fun hresult => ?_⟩
  · obtain ⟨n', m', c', l, hlaunched⟩ := hchronicle.launched hr
    refine ⟨n', m', c', l, ?_, hlaunched⟩
    rintro rfl
    exact hturn.not_launched hfresh hlaunched
  · obtain ⟨before', now, commands, sigil, r, hbefore', rfl, hmatched, hdue⟩ :=
      hchronicle.rateLimited hresult
    obtain ⟨own, commands', sigil', hlisted⟩ := hturn.listed
    have hsplit : [.asked m c now none, .matched m c] ++
        .listed n m.tenant commands sigil :: before' =
          own ++ .listed n m.tenant commands' sigil' :: before := hlisted
    obtain ⟨-, -, rfl⟩ := listed_once hmatched.own hfresh hsplit
    refine ⟨now, r, by simp, hdue, fun hc hclock => hdue.retry_le hc (hdue.issued_le hbefore ?_)⟩
    refine hclock.sublist (List.Sublist.filterMap _ ?_)
    refine List.Sublist.trans ?_ (List.sublist_append_right later _)
    exact (((List.sublist_cons_self _ _).trans (List.sublist_cons_self _ _)).cons_cons _).cons _

/-- The deed concludes a message that has fired the command, with this status. -/
def concludes (c : Command) (status : Status) : Deed → Bool
  | .concluded _ _ c' result _ => c' == c && result.status == status
  | _ => false

theorem concludes_of_any {status : Status} (h : ds.any (concludes c status) = true) :
    ∃ later earlier n m result retryAfterMs,
      ds = later ++ .concluded n m c result retryAfterMs :: earlier ∧ result.status = status := by
  obtain ⟨d, hmem, hd⟩ := List.any_eq_true.mp h
  cases d with
  | concluded n m c' result retryAfterMs =>
    obtain ⟨rfl, hstatus⟩ : c' = c ∧ result.status = status := by simpa [concludes] using hd
    obtain ⟨later, earlier, hdeeds⟩ := List.append_of_mem hmem
    exact ⟨later, earlier, n, m, result, retryAfterMs, hdeeds, hstatus⟩
  | received | listed | matched | asked | committed | released | started | entered | pruned
  | recorded | answered => cases hd

theorem greeter_documented : greeter.Genuine Documented where
  runtimes l run hrun code bindings timeout := by
    obtain ⟨-, rfl⟩ := Prod.mk.inj (List.mem_singleton.mp hrun)
    exact Act.yields_ofEnding fun result heq => by cases heq; simp [Documented]
  some := ⟨{ status := .success }, by simp [Documented]⟩

theorem hello_valid : hello.Valid :=
  ⟨by decide +kernel, by decide +kernel, by decide +kernel, by decide, by decide⟩

/-- The engine after two greetings at once. -/
def greetedInHaste : Scheduler (World Rat) Product :=
  greeted (greeted { shared := { env := 0 } })

theorem greetedInHaste_run : greeter.Run greetedInHaste :=
  have hstart : greeter.Run { shared := { env := 0 } } := .start ⟨rfl, rfl, rfl⟩
  have hfirst := hstart.after (.handle .outcome greeting) (by decide +kernel)
  Scheduler.Reachable.after hfirst (.handle .outcome greeting) (by decide +kernel)

theorem greetedInHaste_traceless :
    ∃ later earlier n m result retryAfterMs before,
      (greetedInHaste.amid 0).shared.docket.deeds =
        later ++ .concluded n m hello result retryAfterMs :: earlier ∧
      Traceless greeter n m hello later earlier (greetedInHaste.amid 0).shared.docket.deeds before ∧
      retryAfterMs ≤ 1000 := by
  have hany : (greetedInHaste.amid 0).shared.docket.deeds.any (concludes hello .rateLimited) =
      true := by decide +kernel
  have hclock : ((greetedInHaste.amid 0).shared.docket.deeds.filterMap readAt?).Pairwise (· ≥ ·) := by
    decide +kernel
  obtain ⟨later, earlier, n, m, result, retryAfterMs, hdeeds, hresult⟩ := concludes_of_any hany
  obtain ⟨-, -, hall⟩ :=
    admission_leaves_nothing_half_done greeter_sealed greeter_documented greetedInHaste_run 0
  obtain ⟨before, htraceless, hlimited⟩ := hall _ _ _ _ _ _ _ hdeeds (.rateLimited hresult)
  obtain ⟨now, r, -, -, hretry⟩ := hlimited hresult
  exact ⟨later, earlier, n, m, result, retryAfterMs, before, hdeeds, htraceless,
    hretry hello_valid hclock⟩

end ChatCommands.Engine
