import ChatCommands.Proofs.Cooldown.Histories
import ChatCommands.Proofs.Engine.Refusals
import ChatCommands.Proofs.Reply.Wait

/-!
Coming back after the advertised wait.

Whoever is refused by the limiter is told how long to wait, in tenths of a second, and the reply
rounds what is left of the cooldown to the nearest tenth.  Between the two messages the last fire of
the key stays what it was.  So the wait is long enough just if it was not rounded down.  Main
statement: `advertised_wait_honoured_iff`.
-/

namespace ChatCommands.Engine

open Concurrency Cooldown

variable {ω : Type} {e : Setup ω} {genuine : RunResult → Prop} {s : Cooldown.Settings} {l : Limiter}
  {ds new later earlier : List Deed} {k : Key} {n : Nat} {m : Message} {c : Command} {now t : Rat}

/-! ### The last fire of a key -/

/-- The last fire of a key, if the limiter knows of one. -/
def lastFire? (l : Limiter) (k : Key) : Option Rat := (l.table.get? k).bind (·.lastFire)

theorem lastFire?_eq_some :
    lastFire? l k = some t ↔ ∃ entry, l.table.get? k = some entry ∧ entry.lastFire = some t :=
  Option.bind_eq_some_iff

/-- The operation of a limiter that a deed is, if any, and the reservation it settles. -/
def operation? : Deed → Option (List Reservation × Operation)
  | .asked m c now _ => some ([], .reserve (cooldownKey m c) c.cooldownMs now)
  | .committed r => some ([r], .settle 0)
  | .released r => some ([r], .release 0)
  | .pruned now => some ([], .prune now)
  | _ => none

theorem effect_of_none {d : Deed} (h : operation? d = none) : effect s d l = l := by
  cases d with
  | asked | committed | released | pruned => cases h
  | received | listed | matched | started | entered | concluded | recorded | answered => rfl

theorem effect_of_some {d : Deed} {tickets : List Reservation} {op : Operation}
    (h : operation? d = some (tickets, op)) :
    effect s d l = ((⟨l, tickets⟩ : Desk).perform s op).limiter := by
  cases d with
  | asked | committed | released | pruned =>
    cases h
    rfl
  | received | listed | matched | started | entered | concluded | recorded | answered => cases h

theorem nodup_effect (hnd : l.table.keys.Nodup) (d : Deed) : (effect s d l).table.keys.Nodup := by
  cases hop : operation? d with
  | none => rwa [effect_of_none hop]
  | some p =>
    rw [effect_of_some hop]
    exact nodup_perform hnd p.2

theorem nodup_limiterAfter (ds : List Deed) : (limiterAfter s ds).table.keys.Nodup := by
  induction ds with
  | nil => exact List.nodup_nil
  | cons d ds ih => exact nodup_effect ih d

/-- **A deed that is no fire of a key** keeps its last fire or has it forgotten. -/
theorem lastFire?_effect (hnd : l.table.keys.Nodup) {d : Deed} (hd : fire? k d = none)
    (h : lastFire? (effect s d l) k = some t) : lastFire? l k = some t := by
  cases hop : operation? d with
  | none => rwa [effect_of_none hop] at h
  | some p =>
    obtain ⟨tickets, op⟩ := p
    obtain ⟨entry, hentry, hfire⟩ := lastFire?_eq_some.mp h
    rw [effect_of_some hop] at hentry
    have horigin : Cooldown.Origin s ⟨l, tickets⟩ k op entry := origin_of_perform hnd hentry
    rw [lastFire?_eq_some]
    cases horigin with
    | kept hkept => exact ⟨entry, hkept, hfire⟩
    | fired => cases d <;> cases hop
    | reserved =>
      change ((l.table.get? k).getD {}).lastFire = some t at hfire
      cases hknown : l.table.get? k with
      | none => simp [hknown] at hfire
      | some entry => exact ⟨entry, rfl, by simpa [hknown] using hfire⟩
    | settled hr hk =>
      cases d with
      | committed r =>
        cases hop
        obtain rfl := Option.some.inj hr
        simp [fire?, hk] at hd
      | received | listed | matched | started | entered | concluded | recorded | answered | asked
      | released | pruned => cases hop
    | released hr hk hbefore => exact ⟨_, hbefore, hfire⟩

theorem lastFire?_limiterAfter (hnew : ∀ d ∈ new, fire? k d = none)
    (h : lastFire? (limiterAfter s (new ++ ds)) k = some t) :
    lastFire? (limiterAfter s ds) k = some t := by
  induction new with
  | nil => exact h
  | cons d new ih =>
    rw [List.forall_mem_cons] at hnew
    exact ih hnew.2 (lastFire?_effect (nodup_limiterAfter _) hnew.1 h)

theorem limiterAfter_of_others (hnew : ∀ d ∈ new, operation? d = none) :
    limiterAfter s (new ++ ds) = limiterAfter s ds := by
  induction new with
  | nil => rfl
  | cons d new ih =>
    rw [List.forall_mem_cons] at hnew
    exact (effect_of_none hnew.1).trans (ih hnew.2)

/-! ### Refusals and grants -/

/-- **A run is refused** while the last fire of its key is less than the cooldown ago. -/
theorem Chronicle.refused_iff (h : Chronicle e genuine ds) :
    (answerTo e ds m c now).2.2 = none ↔ 0 < c.cooldownMs ∧
      ∃ last, lastFire? (limiterAfter e.cooldowns ds) (cooldownKey m c) = some last ∧
        elapsed now last < c.cooldownMs := by
  constructor
  · intro hr
    obtain ⟨-, entry, last, hentry, hlast, hgap, -⟩ := h.calm.denied (answerTo_eq hr)
    refine ⟨?_, last, lastFire?_eq_some.mpr ⟨entry, hentry, hlast⟩, hgap⟩
    by_contra hfree
    have hgranted : answerTo e ds m c now = _ := Limiter.reserve_of_nonpos (not_lt.mp hfree)
    rw [hgranted] at hr
    cases hr
  · rintro ⟨hC, last, hlast, hgap⟩
    obtain ⟨entry, hentry, hfire⟩ := lastFire?_eq_some.mp hlast
    cases hr : (answerTo e ds m c now).2.2 with
    | none => rfl
    | some r =>
      have hallowed := Limiter.allowed_of_reserve (answerTo_eq hr)
      have hlong := (Limiter.idle_of_allowed hC hentry hallowed).2 last hfire
      exact absurd hgap (not_lt.mpr hlong)

theorem Chronicle.refused_wait (h : Chronicle e genuine ds)
    (hr : (answerTo e ds m c now).2.2 = none) {last : Rat}
    (hlast : lastFire? (limiterAfter e.cooldowns ds) (cooldownKey m c) = some last) :
    (answerTo e ds m c now).2.1.retryAfterMs =
      Limiter.truncate (elapsed c.cooldownMs (elapsed now last)) := by
  obtain ⟨-, entry, last', hentry, hlast', -, hretry⟩ := h.calm.denied (answerTo_eq hr)
  have hsame := hlast.symm.trans (lastFire?_eq_some.mpr ⟨entry, hentry, hlast'⟩)
  obtain rfl : last = last' := Option.some.inj hsame
  exact hretry

theorem Chronicle.lastFire_read (h : Chronicle e genuine ds) {last : Rat}
    (hlast : lastFire? (limiterAfter e.cooldowns ds) k = some last) :
    last ∈ ds.filterMap readAt? := by
  obtain ⟨entry, hentry, hfire⟩ := lastFire?_eq_some.mp hlast
  obtain ⟨r, hmem, -, hissued⟩ := h.fired hentry
  obtain ⟨n, m, c, l, hlaunched⟩ := h.launched hmem
  cases hfire.symm.trans hissued
  exact hlaunched.read

section

variable {commands : List Command} {sigil : Option Text} {answer : Option Reservation}

/-- **The turn in which a message asks for its run**: a refusal is concluded in the same turn. -/
theorem Chronicle.asked (h : Chronicle e genuine (later ++ .asked m c now answer :: .matched m c ::
      .listed n m.tenant commands sigil :: ds)) :
    Chronicle e genuine ds ∧ Matched e n m commands sigil c ds ∧
      (answerTo e ds m c now).2.2 = answer ∧
      (answer = none → ∃ more, later = more ++
        [.concluded n m c (Engine.rateLimited (answerTo e ds m c now).2.1)
          (answerTo e ds m c now).2.1.retryAfterMs]) := by
  obtain ⟨before, after, now₁, now₂, hbefore, hblock, hearlier, rfl⟩ := h.block rfl
  generalize hown : now₁ ++ .asked m c now answer :: now₂ = block at hblock
  cases hblock with
  | received | unmatched | entered | returned | landed | pruned =>
    simp [List.append_eq_cons_iff] at hown
  | denied hmatched hr =>
    obtain ⟨rfl, ⟨rfl, rfl, rfl, rfl⟩, rfl⟩ : _ ∧ (_ ∧ _ ∧ _ ∧ _) ∧ _ := by
      simpa [List.append_eq_cons_iff, List.cons_eq_append_iff] using hown
    cases hearlier
    exact ⟨hbefore, hmatched, hr, fun _ => ⟨after, rfl⟩⟩
  | refused hmatched hr _ | launched hmatched hr _ =>
    obtain ⟨rfl, ⟨rfl, rfl, rfl, rfl⟩, rfl⟩ : _ ∧ (_ ∧ _ ∧ _ ∧ _) ∧ _ := by
      simpa [List.append_eq_cons_iff, List.cons_eq_append_iff] using hown
    cases hearlier
    exact ⟨hbefore, hmatched, hr, nofun⟩

/-- **A message that is granted its run** is not refused by the limiter. -/
theorem Chronicle.not_rateLimited {r : Reservation}
    (h : Chronicle e Documented (later ++ .asked m c now (some r) :: .matched m c ::
      .listed n m.tenant commands sigil :: ds))
    {m' : Message} {c' : Command} {result : RunResult} {retryAfterMs : Int}
    (hmem : .concluded n m' c' result retryAfterMs ∈ later) : result.status ≠ .rateLimited := by
  intro hlimited
  obtain ⟨more, own, rfl⟩ := List.append_of_mem hmem
  have hmatched := h.asked.2.1
  have hconcluded : Chronicle e Documented (more ++ .concluded n m' c' result retryAfterMs ::
      (own ++ .asked m c now (some r) :: .matched m c ::
        .listed n m.tenant commands sigil :: ds)) := by simpa using h
  obtain ⟨before, now', commands', sigil', -, -, hturn, hmatched', -⟩ :=
    hconcluded.rateLimited hlimited
  -- the registry was read once for the message, so both have asked in the same turn
  have hsplit : (own ++ [.asked m c now (some r), .matched m c]) ++
      .listed n m.tenant commands sigil :: ds =
        [.asked m' c' now' none, .matched m' c'] ++
          .listed n m'.tenant commands' sigil' :: before := by simpa using hturn
  have hsame := (listed_once hmatched.own hmatched'.own hsplit).1
  simpa using congrArg List.reverse hsame

/-- **A refusal and its wait**: the last fire of the key was read from the clock less than the
cooldown ago, and the wait is what is left of the cooldown. -/
theorem Chronicle.refusal {result : RunResult} {retryAfterMs : Int}
    (h : Chronicle e Documented
      (later ++ .concluded n m c result retryAfterMs :: .asked m c now none :: earlier))
    (hlimited : result.status = .rateLimited) :
    ∃ last, lastFire? (limiterAfter e.cooldowns (.concluded n m c result retryAfterMs ::
        .asked m c now none :: earlier)) (cooldownKey m c) = some last ∧
      last ∈ earlier.filterMap readAt? ∧ 0 < c.cooldownMs ∧ elapsed now last < c.cooldownMs ∧
      retryAfterMs = Limiter.truncate (elapsed c.cooldownMs (elapsed now last)) := by
  cases h.conclusion with
  | @denied before commands sigil _ hbefore hmatched hr =>
    obtain ⟨hC, last, hlast, hgap⟩ := hbefore.refused_iff.mp hr
    have hsame := (hbefore.calm.denied (answerTo_eq hr)).1
    refine ⟨last, ?_, ?_, hC, hgap, hbefore.refused_wait hr hlast⟩
    · change lastFire? (answerTo e before m c now).1 (cooldownKey m c) = some last
      rw [hsame]
      exact hlast
    · exact hbefore.lastFire_read hlast
  | landed _ hlaunched _ hlanding =>
    exact absurd (.rateLimited hlimited) (hlaunched.not_turnedAway hlanding.documented)

/-! ### Coming back -/

/-- The history of a message that was refused, and that asks again when the advertised wait is over,
latest deed first.  In between nothing was fired for its key, and the clock counts whole
milliseconds. -/
structure ComesBack (n n' : Nat) (m : Message) (c : Command) (result : RunResult)
    (retryAfterMs : Int) (answer : Option Reservation) (later between ds : List Deed) : Prop where
  limited : result.status = .rateLimited
  deeds : ∃ now commands sigil earlier, ds =
    later ++ .asked m c (now + 100 * Reply.advertised retryAfterMs) answer :: .matched m c ::
      .listed n' m.tenant commands sigil ::
        (between ++ .concluded n m c result retryAfterMs :: .asked m c now none :: earlier)
  quiet : ∀ d ∈ between, fire? (cooldownKey m c) d = none
  whole : ∀ t ∈ ds.filterMap readAt?, t.den = 1
  sorted : (ds.filterMap readAt?).Pairwise (· ≥ ·)

variable {n' : Nat} {result : RunResult} {retryAfterMs : Int} {between : List Deed}

theorem ComesBack.outcome (h : ComesBack n n' m c result retryAfterMs answer later between ds)
    (hchronicle : Chronicle e Documented ds) (hc : c.Valid) :
    0 < retryAfterMs ∧ retryAfterMs ≤ c.cooldownMs ∧
      (retryAfterMs ≤ 100 * Reply.advertised retryAfterMs → answer ≠ none) ∧
      (100 * Reply.advertised retryAfterMs < retryAfterMs →
        (∀ d ∈ between, operation? d = none) → answer = none) := by
  obtain ⟨hlimited, ⟨now, commands, sigil, earlier, hds⟩, hquiet, hwhole, hsorted⟩ := h
  rw [hds] at hchronicle
  obtain ⟨hbefore, -, hanswer, -⟩ := hchronicle.asked
  obtain ⟨last, hlast, hread, hC, hgap, hretry⟩ := hbefore.refusal hlimited
  have hmax : c.cooldownMs ≤ 60000 := hc.cooldown_le
  have hsub : (Deed.concluded n m c result retryAfterMs :: .asked m c now none :: earlier).Sublist
      ds := by
    rw [hds]
    exact ((((List.sublist_append_right between _).cons _).cons _).cons _).trans
      (List.sublist_append_right later _)
  -- the clock at the refusal and before it, latest reading first
  have hreads : (now :: earlier.filterMap readAt?).Sublist (ds.filterMap readAt?) :=
    hsub.filterMap readAt?
  have hnow : now.den = 1 := hwhole now (hreads.subset List.mem_cons_self)
  have hfire : last.den = 1 := hwhole last (hreads.subset (List.mem_cons_of_mem now hread))
  have hle : last ≤ now := (List.pairwise_cons.mp (hsorted.sublist hreads)).1 last hread
  have hsoon := sub_lt_of_elapsed_lt hnow hfire (by omega) hgap
  have hleft := truncate_elapsed_of_whole hc.cooldown_nonneg (by omega) hnow hfire hle hgap
  rw [← hretry] at hleft
  have hpos : 0 < retryAfterMs := by
    rw [← Int.cast_pos (R := Rat)]
    linarith
  have hbound : retryAfterMs ≤ c.cooldownMs := by
    rw [← Int.cast_le (R := Rat)]
    linarith
  have hwait : 0 ≤ Reply.advertised retryAfterMs := Reply.advertised_nonneg (by omega)
  have hover : elapsed (now + 100 * Reply.advertised retryAfterMs) last < c.cooldownMs ↔
      100 * Reply.advertised retryAfterMs < retryAfterMs := by
    have hiff : elapsed (now + (100 * Reply.advertised retryAfterMs : Int)) last < c.cooldownMs ↔
        ((100 * Reply.advertised retryAfterMs : Int) : Rat) < c.cooldownMs - (now - last) :=
      elapsed_add_lt_iff (by omega) (by omega) hnow hfire hle
    rw [← hleft, Int.cast_lt, Int.cast_mul, Int.cast_ofNat] at hiff
    exact hiff
  refine ⟨hpos, hbound, fun hlong hnone => ?_, fun hshort hothers => ?_⟩
  · rw [← hanswer, hbefore.refused_iff] at hnone
    obtain ⟨-, last', hlast', hgap'⟩ := hnone
    have hsame := hlast.symm.trans (lastFire?_limiterAfter hquiet hlast')
    obtain rfl : last = last' := Option.some.inj hsame
    exact absurd (hover.mp hgap') (not_lt.mpr hlong)
  · rw [← hanswer, hbefore.refused_iff]
    refine ⟨hC, last, ?_, hover.mpr hshort⟩
    rw [limiterAfter_of_others hothers]
    exact hlast

/-- **When the advertised wait is honoured.**  A message that was refused by the limiter is told to
try again in some tenths of a second.  When it asks again after just that time, and no run of its
key was committed in between, it is granted a run and not refused by the limiter, if the wait is not
less than what was left of the cooldown; but if it is less, and the limiter was left alone in
between, the message is refused once more.  The wait is less whenever what was left is more than a
tenth of a second and less than half-way to the next tenth, and at half-way where the floating-point
number of seconds is rounded down; then it is too short by up to fifty milliseconds. -/
theorem advertised_wait_honoured_iff (he : e.Sealed) (hgenuine : e.Genuine Documented)
    {k : Scheduler (World ω) Product} (hk : e.Run k) (jobs : Nat) (hc : c.Valid)
    (h : ComesBack n n' m c result retryAfterMs answer later between
      (k.amid jobs).shared.docket.deeds) :
    let tenths := Reply.advertised retryAfterMs
    Reply.ofResult e.config.maxReplyChars c.language result retryAfterMs =
      some (text "This command is on cooldown. Try again in " ++
        (Text.ofNat (tenths.toNat / 10) ++ text "." ++ Text.ofNat (tenths.toNat % 10)) ++
          text "s.") ∧
    (retryAfterMs ≤ 100 * tenths → answer ≠ none ∧ ∀ m' c' result' retryAfterMs',
      .concluded n' m' c' result' retryAfterMs' ∈ later → result'.status ≠ .rateLimited) ∧
    (100 * tenths < retryAfterMs → (∀ d ∈ between, operation? d = none) →
      ∃ more result' retryAfterMs', later = more ++ [.concluded n' m c result' retryAfterMs'] ∧
        result'.status = .rateLimited) ∧
    (100 * tenths < retryAfterMs ↔ 100 < retryAfterMs ∧
      (0 < retryAfterMs % 100 ∧ retryAfterMs % 100 < 50 ∨
        retryAfterMs % 100 = 50 ∧ Reply.HalfDown retryAfterMs)) ∧
    retryAfterMs ≤ 100 * tenths + 50 := by
  intro tenths
  obtain ⟨-, hchronicle⟩ := hk.chronicle he hgenuine jobs
  obtain ⟨hpos, hbound, hlong, hshort⟩ := h.outcome hchronicle hc
  have hmax : c.cooldownMs ≤ 60000 := hc.cooldown_le
  have hsmall : retryAfterMs ≤ 2 ^ 50 := by omega
  obtain ⟨hlimited, ⟨now, commands, sigil, earlier, hdeeds⟩, -⟩ := h
  rw [hdeeds] at hchronicle
  refine ⟨Reply.ofResult_rateLimited _ _ hlimited hsmall, fun hle => ⟨hlong hle, ?_⟩,
    fun hlt hothers => ?_, Reply.advertised_lt_iff hpos hsmall, Reply.le_advertised_add hsmall⟩
  · obtain ⟨r, rfl⟩ := Option.ne_none_iff_exists'.mp (hlong hle)
    intro m' c' result' retryAfterMs' hmem
    exact hchronicle.not_rateLimited hmem
  · obtain ⟨more, hmore⟩ := hchronicle.asked.2.2.2 (hshort hlt hothers)
    exact ⟨more, _, _, hmore, rfl⟩

end

/-! ### A greeting that comes back -/

/-- The engine after a greeting, another one when 149 ms of its cooldown are left, and a third one a
tenth of a second later. -/
def greetedAgain : Scheduler (World Rat) Product :=
  greeted (clockedAt 951 (greeted (clockedAt 851 (greeted { shared := { env := 0 } }))))

theorem greetedAgain_run : greeter.Run greetedAgain := by
  have hclock : ∀ t : Rat, greeter.Errand
      (Act.toTask (fun _ => .nothing) (Action.onEnv fun _ => ((), t))) :=
    fun _ => .other _ (Act.avoids_closed.change fun _ => rfl)
  have hstart : greeter.Run { shared := { env := 0 } } := .start ⟨rfl, rfl, rfl⟩
  have hfirst := hstart.after (.handle .outcome greeting) (by decide +kernel)
  have hsoon := Scheduler.Reachable.after hfirst (hclock 851) (by decide +kernel)
  have hsecond := Scheduler.Reachable.after hsoon (.handle .outcome greeting) (by decide +kernel)
  have hlater := Scheduler.Reachable.after hsecond (hclock 951) (by decide +kernel)
  exact Scheduler.Reachable.after hlater (.handle .outcome greeting) (by decide +kernel)

/-- The greeting was refused with this wait, and a tenth of a second later it was refused again. -/
def refusedTwice (retryAfterMs : Int) : List Deed → Bool
  | .concluded i _ _ result' _ :: .asked m c again none :: .matched m' c' ::
      .listed n' tenant _ _ :: .received .. :: .concluded _ m'' c'' result ms ::
        .asked m''' c''' now none :: _ =>
    [m, m', m'', m'''].all (· == greeting) && [c, c', c'', c'''].all (· == hello) &&
      [result, result'].all (·.status == .rateLimited) && tenant == greeting.tenant && i == n' &&
        ms == retryAfterMs && again == now + 100
  | _ => false

theorem comesBack_of_refusedTwice (h : refusedTwice retryAfterMs ds = true)
    (hshown : Reply.advertised retryAfterMs = 1) (hwhole : ∀ t ∈ ds.filterMap readAt?, t.den = 1)
    (hsorted : (ds.filterMap readAt?).Pairwise (· ≥ ·)) :
    ∃ n n' result between m' c' result' retryAfterMs',
      ComesBack n n' greeting hello result retryAfterMs none
        [.concluded n' m' c' result' retryAfterMs'] between ds ∧
      result'.status = .rateLimited ∧ ∀ d ∈ between, operation? d = none := by
  unfold refusedTwice at h
  split at h
  · rename_i n' m₀ c₀ result' retryAfterMs' m c again m' c' i tenant commands sigil n₁ m₁ enabled n
      m'' c'' result ms m''' c''' now earlier
    simp only [List.all_cons, List.all_nil, Bool.and_eq_true, beq_iff_eq, and_true] at h
    obtain ⟨⟨⟨⟨⟨⟨⟨rfl, rfl, rfl, rfl⟩, rfl, rfl, rfl, rfl⟩, hlimited, hlimited'⟩, rfl⟩, rfl⟩, rfl⟩,
      rfl⟩ := h
    refine ⟨n, n', result, [.received n₁ m₁ enabled], m₀, c₀, result', retryAfterMs',
      ⟨hlimited, ⟨now, commands, sigil, earlier, ?_⟩, ?_, hwhole, hsorted⟩, hlimited', ?_⟩
    · rw [hshown, Int.cast_one, mul_one]
      rfl
    · simp [fire?]
    · simp [operation?]
  · cases h

theorem greetedAgain_refusedTwice :
    refusedTwice 149 (greetedAgain.amid 0).shared.docket.deeds = true := by
  decide +kernel

theorem greetedAgain_whole :
    ∀ t ∈ (greetedAgain.amid 0).shared.docket.deeds.filterMap readAt?, t.den = 1 := by
  decide +kernel

theorem greetedAgain_sorted :
    ((greetedAgain.amid 0).shared.docket.deeds.filterMap readAt?).Pairwise (· ≥ ·) := by
  decide +kernel

/-- What is left, 149 ms, is advertised as a tenth of a second. -/
theorem advertised_wait_honoured_iff_again :
    ∃ n n' result later between more result' retryAfterMs',
      ComesBack n n' greeting hello result 149 none later between
        (greetedAgain.amid 0).shared.docket.deeds ∧
      Reply.advertised 149 = 1 ∧
      later = more ++ [.concluded n' greeting hello result' retryAfterMs'] ∧
      result'.status = .rateLimited := by
  have hshown : Reply.advertised 149 = 1 := by decide +kernel
  obtain ⟨n, n', result, between, _, _, _, _, hback, -, hothers⟩ :=
    comesBack_of_refusedTwice greetedAgain_refusedTwice hshown greetedAgain_whole
      greetedAgain_sorted
  obtain ⟨-, -, hshort, -⟩ := advertised_wait_honoured_iff greeter_sealed greeter_documented
    greetedAgain_run 0 hello_valid hback
  obtain ⟨more, result', retryAfterMs', hmore, hlimited⟩ :=
    hshort (by rw [hshown]; norm_num) hothers
  exact ⟨n, n', result, _, between, more, result', retryAfterMs', hback, hshown, hmore, hlimited⟩

/-- **A wait that is too short.**  So a message that comes back after the advertised wait can be
refused by the limiter again. -/
theorem advertised_wait_short :
    ¬ ∀ (k : Scheduler (World Rat) Product) (n n' : Nat) (m : Message) (c : Command)
      (result : RunResult) (retryAfterMs : Int) (answer : Option Reservation)
      (later between : List Deed), greeter.Run k →
      ComesBack n n' m c result retryAfterMs answer later between (k.amid 0).shared.docket.deeds →
      ∀ m' c' result' retryAfterMs', .concluded n' m' c' result' retryAfterMs' ∈ later →
        result'.status ≠ .rateLimited := by
  intro hall
  have hshown : Reply.advertised 149 = 1 := by decide +kernel
  obtain ⟨n, n', result, between, m', c', result', retryAfterMs', hback, hlimited, -⟩ :=
    comesBack_of_refusedTwice greetedAgain_refusedTwice hshown greetedAgain_whole
      greetedAgain_sorted
  exact hall _ _ _ _ _ _ _ _ _ _ greetedAgain_run hback _ _ _ _ (List.mem_singleton_self _) hlimited

end ChatCommands.Engine
