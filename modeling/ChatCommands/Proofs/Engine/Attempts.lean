import ChatCommands.Proofs.Engine.Refusals

/-!
What a cooldown is spent on.

A fire is recorded for a message just when the pool is asked to run its command, before the wait for
a slot.  The runtime is called only after that; where it is not called although the pool was asked,
the message has ended in a failure, such as that its time was up while it was waiting for a slot.
-/

namespace ChatCommands.Engine

open Concurrency Cooldown

variable {ω : Type} {e : Setup ω} {genuine : RunResult → Prop} {n n' : Nat} {m m' : Message}
  {c c' : Command} {r : Reservation} {l : Language} {ds : List Deed}

/-- The message has fired the command. -/
def MatchedTo (n : Nat) (m : Message) (c : Command) (ds : List Deed) : Prop :=
  ∃ later earlier commands sigil,
    ds = later ++ .matched m c :: .listed n m.tenant commands sigil :: earlier

/-- The limiter has granted the message this reservation. -/
def GrantedTo (n : Nat) (m : Message) (c : Command) (r : Reservation) (ds : List Deed) : Prop :=
  ∃ later earlier now commands sigil, ds = later ++ .asked m c now (some r) :: .matched m c ::
    .listed n m.tenant commands sigil :: earlier

/-- A fire of the author and the command was recorded on behalf of the message: what it was granted
was committed, and was the last fire of the key then. -/
def FireFor (e : Setup ω) (n : Nat) (m : Message) (c : Command) (ds : List Deed) : Prop :=
  ∃ r later earlier entry, ds = later ++ .committed r :: earlier ∧ GrantedTo n m c r earlier ∧
    (limiterAfter e.cooldowns (.committed r :: earlier)).table.get? (cooldownKey m c) = some entry ∧
      entry.lastFire = some r.issued

/-- The pool was asked to run the command with what the message was granted. -/
def AttemptFor (n : Nat) (m : Message) (c : Command) (ds : List Deed) : Prop :=
  ∃ r later earlier, ds = later ++ .started m c (some r) :: earlier ∧ GrantedTo n m c r earlier

theorem GrantedTo.append (h : GrantedTo n m c r ds) (new : List Deed) :
    GrantedTo n m c r (new ++ ds) := by
  obtain ⟨later, earlier, now, commands, sigil, rfl⟩ := h
  exact ⟨new ++ later, earlier, now, commands, sigil, (List.append_assoc ..).symm⟩

/-- The run of a reservation is that of the message to which it was granted. -/
theorem Launched.granted_to (h : Launched e n m c r l ds) (hds : Chronicle e genuine ds)
    (hgranted : GrantedTo n' m' c' r ds) : n' = n ∧ m' = m ∧ c' = c := by
  obtain ⟨later', earlier', now', commands', sigil', rfl⟩ := hgranted
  generalize hown : later' ++ .asked m' c' now' (some r) :: .matched m' c' ::
    .listed n' m'.tenant commands' sigil' :: earlier' = ds at h
  cases h with
  | @intro later earlier commands sigil now hmatched _ _ =>
    have hsame : later' ++ .asked m' c' now' (some r) :: .matched m' c' ::
        .listed n' m'.tenant commands' sigil' :: earlier' =
      (later ++ [.started m c (some r), .committed r]) ++ .asked m c now (some r) ::
        .matched m c :: .listed n m.tenant commands sigil :: earlier := by simpa using hown
    obtain ⟨-, rfl, rfl, hrest⟩ := hds.granted_once hsame
    cases hrest
    exact ⟨rfl, rfl, rfl⟩

theorem Launched.matchedTo (h : Launched e n m c r l ds) : MatchedTo n m c ds := by
  cases h with
  | @intro later earlier commands sigil now _ _ _ =>
    exact ⟨later ++ [.started m c (some r), .committed r, .asked m c now (some r)], earlier,
      commands, sigil, by simp⟩

theorem Launched.attemptFor (h : Launched e n m c r l ds) : AttemptFor n m c ds := by
  cases h with
  | @intro later earlier commands sigil now _ _ _ =>
    exact ⟨r, later, _, rfl, [.committed r], earlier, now, commands, sigil, rfl⟩

/-- A run that is launched is a fire of its key. -/
theorem Launched.fireFor (h : Launched e n m c r l ds) (hC : 0 < c.cooldownMs) :
    FireFor e n m c ds := by
  cases h with
  | @intro later earlier commands sigil now _ hr _ =>
    refine ⟨r, later ++ [.started m c (some r)], _, _, by simp,
      ⟨[], earlier, now, commands, sigil, rfl⟩,
      Limiter.get?_reserve_commit hC (answerTo_eq hr), rfl⟩

theorem AttemptFor.launched (h : AttemptFor n m c ds) (hds : Chronicle e genuine ds) :
    ∃ r l, Launched e n m c r l ds := by
  obtain ⟨r, later, earlier, rfl, hgranted⟩ := h
  obtain ⟨n', l, hlaunched⟩ := hds.started (List.mem_append_right later List.mem_cons_self)
  obtain ⟨rfl, -, -⟩ := hlaunched.granted_to hds
    ((hgranted.append [.started m c (some r)]).append later)
  exact ⟨r, l, hlaunched⟩

theorem FireFor.launched (h : FireFor e n m c ds) (hds : Chronicle e genuine ds) :
    ∃ r l, Launched e n m c r l ds := by
  obtain ⟨r, later, earlier, -, rfl, hgranted, -⟩ := h
  obtain ⟨n', m', c', l, hlaunched⟩ :=
    hds.launched (List.mem_append_right later List.mem_cons_self)
  obtain ⟨rfl, rfl, rfl⟩ := hlaunched.granted_to hds
    ((hgranted.append [.committed r]).append later)
  exact ⟨r, l, hlaunched⟩

/-- A message fires one command. -/
theorem Launched.matched_to (h : Launched e n m c r l ds) (hds : Chronicle e genuine ds)
    (hmatched : MatchedTo n m' c' ds) : m' = m ∧ c' = c := by
  obtain ⟨later', earlier', commands', sigil', rfl⟩ := hmatched
  have hsplit : later' ++ .matched m' c' :: .listed n m'.tenant commands' sigil' :: earlier' =
      (later' ++ [.matched m' c']) ++ .listed n m'.tenant commands' sigil' :: earlier' := by simp
  rw [hsplit] at h hds
  obtain ⟨m₀, hown⟩ := hds.listed
  obtain ⟨later, now, heq⟩ := h.turn hown
  exact (by simpa using congrArg List.reverse heq : (m' = m ∧ c' = c) ∧ _).1

/-- A result that is not that of a run. -/
def CutShort (e : Setup ω) (result : RunResult) : Prop :=
  result = deadlineExceeded (e.config.messageDeadline none) ∨ ∃ f, result = internalError f

theorem failureResult_cutShort (e : Setup ω) (f : Fault) : CutShort e (failureResult e f) := by
  unfold failureResult
  split
  · exact .inl rfl
  · exact .inr ⟨f, rfl⟩

/-- Where a run was launched and its message concluded, the runtime was called or the run was cut
short. -/
theorem Launched.concluded {later earlier : List Deed} {result : RunResult} {retryAfterMs : Int}
    (h : Launched e n m c r l (later ++ .concluded n m' c' result retryAfterMs :: earlier))
    (hds : Chronicle e genuine (later ++ .concluded n m' c' result retryAfterMs :: earlier)) :
    (∃ call, .entered n call ∈ earlier) ∨ CutShort e result := by
  cases hds.conclusion with
  | denied _ hmatched _ => exact absurd h (RefusedIn.not_launched (.denied _) hmatched.own)
  | refused _ hmatched _ _ => exact absurd h (RefusedIn.not_launched (.released _ _) hmatched.own)
  | landed _ _ hunderway hlanding =>
    cases hlanding with
    | @ran call hresult =>
      obtain ⟨commands, sigil, hown⟩ := hunderway
      refine .inl ⟨call, (mem_ownDeeds (n := n)).mp ?_ |>.1⟩
      rw [hown]
      simp
    | failed call f => exact .inr (failureResult_cutShort e f)

/-- **A cooldown is spent exactly on runs that the pool is asked for.**  A fire is recorded for a
message if and only if the pool is asked to run its command.  The runtime is called only where it is;
and where the message is concluded without such a call, the run was cut short. -/
theorem fires_are_attempts (he : e.Sealed) {k : Scheduler (World ω) Product} (hk : e.Run k)
    (jobs : Nat) (hmatched : MatchedTo n m c (k.amid jobs).shared.docket.deeds)
    (hC : 0 < c.cooldownMs) :
    (FireFor e n m c (k.amid jobs).shared.docket.deeds ↔
        AttemptFor n m c (k.amid jobs).shared.docket.deeds) ∧
      (∀ call, .entered n call ∈ (k.amid jobs).shared.docket.deeds →
        FireFor e n m c (k.amid jobs).shared.docket.deeds) ∧
      (FireFor e n m c (k.amid jobs).shared.docket.deeds → ∀ m' c' result retryAfterMs,
        .concluded n m' c' result retryAfterMs ∈ (k.amid jobs).shared.docket.deeds →
          (∃ call, .entered n call ∈ (k.amid jobs).shared.docket.deeds) ∨ CutShort e result) := by
  obtain ⟨-, hchronicle⟩ := hk.chronicle he genuine_any jobs
  generalize (k.amid jobs).shared.docket.deeds = ds at hmatched hchronicle
  refine ⟨⟨fun h => ?_, fun h => ?_⟩, fun call hcall => ?_,
    fun h m' c' result retryAfterMs hmem => ?_⟩
  · obtain ⟨r, l, hlaunched⟩ := h.launched hchronicle
    exact hlaunched.attemptFor
  · obtain ⟨r, l, hlaunched⟩ := h.launched hchronicle
    exact hlaunched.fireFor hC
  · obtain ⟨later, earlier, rfl⟩ := List.append_of_mem hcall
    obtain ⟨m', c', r, l, hlaunched, -⟩ := hchronicle.entry
    have hall : Launched e n m' c' r l (later ++ .entered n call :: earlier) :=
      (hlaunched.append [.entered n call]).append later
    obtain ⟨rfl, rfl⟩ := hall.matched_to hchronicle hmatched
    exact hall.fireFor hC
  · obtain ⟨r, l, hlaunched⟩ := h.launched hchronicle
    obtain ⟨later, earlier, rfl⟩ := List.append_of_mem hmem
    refine (hlaunched.concluded hchronicle).imp_left fun ⟨call, hcall⟩ => ⟨call, ?_⟩
    exact List.mem_append_right later (List.mem_cons_of_mem _ hcall)

/-! ### A run that does not come to its slot -/

/-- An engine with slow runs and one second for each message. -/
def slowGreeter : Setup Rat :=
  { greeter with
    config := { caseInsensitive := false, deadline := some (.ofInt 1) }
    runtimes := [(.python, fun _ _ _ => do
      Act.sleep (some 100)
      pure { status := .success })] }

theorem slowGreeter_sealed : slowGreeter.Sealed where
  commands _ := Act.avoids_closed.pure _
  sigil := nofun
  runtimes l run hrun code bindings timeout := by
    obtain ⟨-, rfl⟩ := Prod.mk.inj (List.mem_singleton.mp hrun)
    exact Act.avoids_closed.bind (Act.avoids_closed.sleep _) fun _ => Act.avoids_closed.pure _
  reply := nofun
  audit := nofun

/-- The greeting of another author. -/
def otherGreeting : Message := { greeting with author := text "other" }

/-- The engine after two greetings at once, with one slot for both. -/
def crowded : Scheduler (World Rat) Product :=
  let new : Scheduler (World Rat) Product := { shared := { env := 0, slots := ⟨1, []⟩ } }
  let first := (new.addTask false (Act.toTask .outcome (handle slowGreeter greeting))).2
  (first.addTask false (Act.toTask .outcome (handle slowGreeter otherGreeting))).2.rounds 8

theorem crowded_run : slowGreeter.Run crowded := by
  have hnew : slowGreeter.Run { shared := { env := 0, slots := ⟨1, []⟩ } } := .start ⟨rfl, rfl, rfl⟩
  exact ((hnew.arrive (.handle .outcome greeting)).arrive
    (.handle .outcome otherGreeting)).rounds 8

/-- The pool was asked to say hello to the author. -/
def greets (author : Text) : Deed → Bool
  | .started m c _ => m.author == author && c == hello
  | _ => false

/-- The author has sent the message with the number and no other. -/
def numbers (author : Text) (n : Nat) : Deed → Bool
  | .received i m _ => (m.author == author) == (i == n)
  | _ => true

theorem crowded_launched : ∃ m r l,
    Launched slowGreeter 1 m hello r l (crowded.amid 0).shared.docket.deeds := by
  obtain ⟨-, hchronicle⟩ := crowded_run.chronicle slowGreeter_sealed genuine_any 0
  have hgreets : (crowded.amid 0).shared.docket.deeds.any (greets (text "other")) = true := by
    decide +kernel
  have hnumbers : (crowded.amid 0).shared.docket.deeds.all (numbers (text "other") 1) = true := by
    decide +kernel
  obtain ⟨d, hmem, hd⟩ := List.any_eq_true.mp hgreets
  cases d with
  | started m c r' =>
    obtain ⟨hauthor, rfl⟩ : m.author = text "other" ∧ c = hello := by simpa [greets] using hd
    obtain ⟨n, m', c', r, l, hlaunched, heq | heq⟩ := hchronicle.launched_of_mem hmem rfl
    · cases heq
    · cases heq
      have hnumber := List.all_eq_true.mp hnumbers _ hlaunched.received
      obtain rfl : n = 1 := by simpa [numbers, hauthor] using hnumber
      exact ⟨m, r, l, hlaunched⟩
  | received | listed | matched | asked | committed | released | entered | concluded | pruned
  | recorded | answered => cases hd

theorem fires_are_attempts_crowded : ∃ m,
    MatchedTo 1 m hello (crowded.amid 0).shared.docket.deeds ∧
      AttemptFor 1 m hello (crowded.amid 0).shared.docket.deeds ∧
      FireFor slowGreeter 1 m hello (crowded.amid 0).shared.docket.deeds := by
  obtain ⟨m, r, l, hlaunched⟩ := crowded_launched
  refine ⟨m, hlaunched.matchedTo, hlaunched.attemptFor, ?_⟩
  exact (fires_are_attempts slowGreeter_sealed crowded_run 0 hlaunched.matchedTo
    (by decide)).1.mpr hlaunched.attemptFor

/-- **A fire without a run.**  Two greetings come in at once, and there is one slot.  The second one
is still waiting for the slot when its time is up: its fire is recorded, its runtime never called. -/
theorem fire_without_run : ∃ m,
    slowGreeter.Run crowded ∧ MatchedTo 1 m hello (crowded.amid 0).shared.docket.deeds ∧
      0 < hello.cooldownMs ∧ FireFor slowGreeter 1 m hello (crowded.amid 0).shared.docket.deeds ∧
      ¬ ∃ call, .entered 1 call ∈ (crowded.amid 0).shared.docket.deeds := by
  obtain ⟨m, r, l, hlaunched⟩ := crowded_launched
  refine ⟨m, crowded_run, hlaunched.matchedTo, by decide, hlaunched.fireFor (by decide), ?_⟩
  rintro ⟨call, hcall⟩
  have hnone : (crowded.amid 0).shared.docket.deeds.any (entersFor 1) = false := by decide +kernel
  exact absurd (List.any_eq_false.mp hnone _ hcall) (by simp [entersFor])

end ChatCommands.Engine
