import ChatCommands.Proofs.Cooldown.Calm
import ChatCommands.Proofs.Engine.Confined

/-!
Chronicles: the histories that the work of an engine can leave.

The deeds that a task does between two waits stand together in the history.  So the history is made
of blocks, and what a block presupposes is found in the history before it: a message is listed once
and only after it was received, a runtime is called once and only for a run that was granted,
committed and cleared.  In a chronicle nothing is half-done: after each block no reservation is in
flight.
-/

namespace ChatCommands

/-- The number of the message that a deed is about, if the deed tells. -/
def Deed.number? : Deed → Option Nat
  | .received n .. | .listed n .. | .entered n _ | .concluded n .. => some n
  | .matched .. | .asked .. | .committed _ | .released _ | .started .. | .pruned _ | .recorded _
  | .answered .. => none

/-- A message was taken in. -/
def Deed.isReceipt : Deed → Bool
  | .received .. => true
  | _ => false

namespace Engine

open Cooldown

variable {ω : Type}

/-! ### Reading a history -/

/-- The deeds about the message with a number. -/
def ownDeeds (n : Nat) (ds : List Deed) : List Deed := ds.filter fun d => d.number? = some n

theorem ownDeeds_append (n : Nat) (ds ds' : List Deed) :
    ownDeeds n (ds ++ ds') = ownDeeds n ds ++ ownDeeds n ds' :=
  List.filter_append ds ds'

theorem ownDeeds_eq_nil {n : Nat} {ds : List Deed} :
    ownDeeds n ds = [] ↔ ∀ d ∈ ds, d.number? ≠ some n := by
  simp [ownDeeds]

theorem mem_ownDeeds {n : Nat} {ds : List Deed} {d : Deed} :
    d ∈ ownDeeds n ds ↔ d ∈ ds ∧ d.number? = some n := by
  simp [ownDeeds]

theorem ownDeeds_cons_self {n : Nat} {d : Deed} (h : d.number? = some n) (ds : List Deed) :
    ownDeeds n (d :: ds) = d :: ownDeeds n ds :=
  List.filter_cons_of_pos (by simp [h])

theorem ownDeeds_cons_other {n : Nat} {d : Deed} (h : d.number? = none) (ds : List Deed) :
    ownDeeds n (d :: ds) = ownDeeds n ds :=
  List.filter_cons_of_neg (by simp [h])

/-- Of two places in a history one is the other or comes before it. -/
theorem places_compare {later later' earlier earlier' : List Deed} {d d' : Deed}
    (h : later ++ d :: earlier = later' ++ d' :: earlier') :
    (later = later' ∧ d = d' ∧ earlier = earlier') ∨ (∃ now, earlier = now ++ d' :: earlier') ∨
      ∃ now, earlier' = now ++ d :: earlier := by
  rcases List.append_eq_append_iff.mp h with ⟨rest, rfl, hrest⟩ | ⟨rest, rfl, hrest⟩
  · cases rest with
    | nil => cases hrest; exact .inl ⟨(List.append_nil _).symm, rfl, rfl⟩
    | cons d'' rest => cases hrest; exact .inr (.inl ⟨rest, rfl⟩)
  · cases rest with
    | nil => cases hrest; exact .inl ⟨List.append_nil _, rfl, rfl⟩
    | cons d'' rest => cases hrest; exact .inr (.inr ⟨rest, rfl⟩)

/-- How many messages were taken in. -/
def takenIn (ds : List Deed) : Nat := ds.countP Deed.isReceipt

theorem takenIn_received (n : Nat) (m : Message) (enabled : Bool) (ds : List Deed) :
    takenIn (.received n m enabled :: ds) = takenIn ds + 1 :=
  List.countP_cons_of_pos rfl

/-- What a deed does to the limiter. -/
def effect (s : Cooldown.Settings) (d : Deed) (l : Limiter) : Limiter :=
  match d with
  | .asked m c now _ => (l.reserve s (cooldownKey m c) c.cooldownMs now).1
  | .committed r => l.commitReservation s r
  | .released r => l.release r
  | .pruned now => l.prune s now
  | _ => l

/-- The limiter after a history, latest deed first. -/
def limiterAfter (s : Cooldown.Settings) (ds : List Deed) : Limiter := ds.foldr (effect s) {}

@[simp] theorem limiterAfter_cons (s : Cooldown.Settings) (d : Deed) (ds : List Deed) :
    limiterAfter s (d :: ds) = effect s d (limiterAfter s ds) := rfl

/-! ### Blocks -/

/-- What the limiter answers after a history when it is asked for a run. -/
def answerTo (e : Setup ω) (ds : List Deed) (m : Message) (c : Command) (now : Rat) :
    Limiter × Decision × Option Reservation :=
  (limiterAfter e.cooldowns ds).reserve e.cooldowns (cooldownKey m c) c.cooldownMs now

/-- The message was only received, with the engine enabled and not from a bot, and among the
commands that the registry lists `c` is the one that it fires. -/
structure Matched (e : Setup ω) (n : Nat) (m : Message) (commands : List Command)
    (sigil : Option Text) (c : Command) (ds : List Deed) : Prop where
  own : ownDeeds n ds = [.received n m true]
  human : m.fromBot = false
  first : matched? e m commands sigil = some c

/-- The code of the command has passed the review, and there is a runtime for its language. -/
structure Cleared (e : Setup ω) (c : Command) (l : Language) : Prop where
  review : ∃ records v, e.review c.language c.code = .ok (records, v) ∧ v.ok = true
  language : runtimeLanguage? e c = some l

/-- The call of the runtime for a message and its command. -/
def callFor (e : Setup ω) (m : Message) (c : Command) (l : Language) : RuntimeCall :=
  ⟨l, c.code, (Request.of m c).bindings, e.config.timeoutFor l⟩

/-- The result of a message on which the work failed. -/
def failureResult (e : Setup ω) (f : Fault) : RunResult :=
  if f.kind = .timeout then deadlineExceeded (e.config.messageDeadline none) else internalError f

/-- The result of a run that was granted but not cleared. -/
inductive Refusal (e : Setup ω) (c : Command) : RunResult → Prop
  | failed {f : Fault} (h : e.review c.language c.code = .error f) : Refusal e c (failureResult e f)
  | rejected {records : List LogRecord} {v : Verdict}
    (h : e.review c.language c.code = .ok (records, v)) (hv : v.ok = false) :
    Refusal e c (rejected v)
  | unsupported (h : runtimeLanguage? e c = none) : Refusal e c (unsupportedLanguage c)

/-- The run of a message was granted, committed and cleared at one time, and the pool was asked for
it. -/
inductive Launched (e : Setup ω) (n : Nat) (m : Message) (c : Command) (r : Reservation)
    (l : Language) : List Deed → Prop
  | intro {later earlier : List Deed} {commands : List Command} {sigil : Option Text} {now : Rat}
    (h : Matched e n m commands sigil c earlier)
    (hr : (answerTo e earlier m c now).2.2 = some r) (hc : Cleared e c l) :
    Launched e n m c r l (later ++ .started m c (some r) :: .committed r ::
      .asked m c now (some r) :: .matched m c :: .listed n m.tenant commands sigil :: earlier)

/-- The message is in work: it was received and listed, and a runtime was called for it if there is
a call. -/
def Underway (n : Nat) (m : Message) (call : Option RuntimeCall) (ds : List Deed) : Prop :=
  ∃ commands sigil, ownDeeds n ds =
    (call.map (Deed.entered n)).toList ++ [.listed n m.tenant commands sigil, .received n m true]

/-- The result of a run: that of the runtime, if it was called, or that of a failure. -/
inductive Landing (e : Setup ω) (genuine : RunResult → Prop) :
    Option RuntimeCall → RunResult → Prop
  | ran {call : RuntimeCall} {result : RunResult} (h : genuine result) :
    Landing e genuine (some call) result
  | failed (call : Option RuntimeCall) (f : Fault) : Landing e genuine call (failureResult e f)

/-- The deeds, latest first, that a task may do at one time after a history, if the results of
runtimes are `genuine`. -/
inductive Block (e : Setup ω) (genuine : RunResult → Prop) (ds : List Deed) : List Deed → Prop
  | received (m : Message) (enabled : Bool) : Block e genuine ds [.received (takenIn ds) m enabled]
  | unmatched {n : Nat} {m : Message} {commands : List Command} {sigil : Option Text}
    (h : ownDeeds n ds = [.received n m true]) (hm : matched? e m commands sigil = none) :
    Block e genuine ds [.listed n m.tenant commands sigil]
  | denied {n : Nat} {m : Message} {commands : List Command} {sigil : Option Text} {c : Command}
    {now : Rat} (h : Matched e n m commands sigil c ds) (hr : (answerTo e ds m c now).2.2 = none) :
    Block e genuine ds [.concluded n m c (rateLimited (answerTo e ds m c now).2.1)
      (answerTo e ds m c now).2.1.retryAfterMs, .asked m c now none, .matched m c,
      .listed n m.tenant commands sigil]
  | refused {n : Nat} {m : Message} {commands : List Command} {sigil : Option Text} {c : Command}
    {now : Rat} {r : Reservation} {result : RunResult} (h : Matched e n m commands sigil c ds)
    (hr : (answerTo e ds m c now).2.2 = some r) (hres : Refusal e c result) :
    Block e genuine ds [.concluded n m c result 0, .released r, .asked m c now (some r),
      .matched m c, .listed n m.tenant commands sigil]
  | launched {n : Nat} {m : Message} {commands : List Command} {sigil : Option Text} {c : Command}
    {now : Rat} {r : Reservation} {l : Language} (h : Matched e n m commands sigil c ds)
    (hr : (answerTo e ds m c now).2.2 = some r) (hc : Cleared e c l) :
    Block e genuine ds [.started m c (some r), .committed r, .asked m c now (some r),
      .matched m c, .listed n m.tenant commands sigil]
  | entered {n : Nat} {m : Message} {c : Command} {r : Reservation} {l : Language}
    (h : Launched e n m c r l ds) (hown : Underway n m none ds) :
    Block e genuine ds [.entered n (callFor e m c l)]
  | returned {n : Nat} {m : Message} {c : Command} {r : Reservation} {l : Language}
    (h : Launched e n m c r l ds) : Block e genuine ds [.released r]
  | landed {n : Nat} {m : Message} {c : Command} {r : Reservation} {l : Language}
    {call : Option RuntimeCall} {result : RunResult} (h : Launched e n m c r l ds)
    (hown : Underway n m call ds) (hres : Landing e genuine call result) :
    Block e genuine ds [.concluded n m c result 0]
  | pruned (now : Rat) : Block e genuine ds [.pruned now]

/-- A history that is made of blocks, latest deed first. -/
inductive Chronicle (e : Setup ω) (genuine : RunResult → Prop) : List Deed → Prop
  | nil : Chronicle e genuine []
  | more {ds b : List Deed} (h : Chronicle e genuine ds) (hb : Block e genuine ds b) :
    Chronicle e genuine (b ++ ds)

variable {e : Setup ω} {genuine : RunResult → Prop} {ds : List Deed}

theorem Launched.here {n : Nat} {m : Message} {c : Command} {r : Reservation} {l : Language}
    {commands : List Command} {sigil : Option Text} {now : Rat}
    (h : Matched e n m commands sigil c ds) (hr : (answerTo e ds m c now).2.2 = some r)
    (hc : Cleared e c l) : Launched e n m c r l (.started m c (some r) :: .committed r ::
      .asked m c now (some r) :: .matched m c :: .listed n m.tenant commands sigil :: ds) := by
  rw [← List.nil_append (_ :: _)]
  exact .intro h hr hc

theorem Launched.append {n : Nat} {m : Message} {c : Command} {r : Reservation} {l : Language}
    (h : Launched e n m c r l ds) (new : List Deed) : Launched e n m c r l (new ++ ds) := by
  cases h with
  | intro h hr hc =>
    rw [← List.append_assoc]
    exact .intro h hr hc

theorem Launched.received {n : Nat} {m : Message} {c : Command} {r : Reservation} {l : Language}
    (h : Launched e n m c r l ds) : .received n m true ∈ ds := by
  cases h with
  | @intro later earlier commands sigil now h _ _ =>
    have hmem : .received n m true ∈ ownDeeds n earlier := by simp [h.own]
    simp [(mem_ownDeeds.mp hmem).1]

/-- **Each deed of a chronicle stands in a block.** -/
theorem Chronicle.block (h : Chronicle e genuine ds) :
    ∀ {later earlier : List Deed} {d : Deed}, ds = later ++ d :: earlier →
      ∃ before after now₁ now₂, Chronicle e genuine before ∧
        Block e genuine before (now₁ ++ d :: now₂) ∧ earlier = now₂ ++ before ∧
        later = after ++ now₁ := by
  induction h with
  | nil => exact fun heq => by simp at heq
  | @more ds block h hb ih =>
    intro later earlier d heq
    rcases List.append_eq_append_iff.mp heq with ⟨more, rfl, hds⟩ | ⟨rest, rfl, hrest⟩
    · obtain ⟨before, after, now₁, now₂, hbefore, hblock, hearlier, rfl⟩ := ih hds
      exact ⟨before, block ++ after, now₁, now₂, hbefore, hblock, hearlier,
        (List.append_assoc ..).symm⟩
    · cases rest with
      | nil =>
        obtain ⟨before, after, now₁, now₂, hbefore, hblock, hearlier, hlater⟩ :=
          @ih [] _ _ hrest.symm
        obtain ⟨rfl, rfl⟩ : after = [] ∧ now₁ = [] := by simpa using hlater.symm
        exact ⟨before, later, [], now₂, hbefore, hblock, hearlier, (List.append_nil _).symm⟩
      | cons d' rest =>
        obtain ⟨rfl, rfl⟩ := List.cons.inj hrest
        exact ⟨ds, [], later, rest, h, hb, rfl, rfl⟩

/-! ### The deeds about one message -/

/-- What can be known of the message with a number, latest deed first. -/
inductive Course (n : Nat) : List Deed → Prop
  | unknown : Course n []
  | received (m : Message) (enabled : Bool) : Course n [.received n m enabled]
  | underway (call : Option RuntimeCall) (commands : List Command) (sigil : Option Text)
    (m : Message) : Course n
      ((call.map (Deed.entered n)).toList ++ [.listed n m.tenant commands sigil, .received n m true])
  | concluded (c : Command) (result : RunResult) (retryAfterMs : Int) (call : Option RuntimeCall)
    (commands : List Command) (sigil : Option Text) (m : Message) : Course n
      (.concluded n m c result retryAfterMs ::
        ((call.map (Deed.entered n)).toList ++
          [.listed n m.tenant commands sigil, .received n m true]))

/-- How a block adds to the deeds about the message with a number, apart from its receipt. -/
inductive Advance (n : Nat) : (before new : List Deed) → Prop
  | list (m : Message) (commands : List Command) (sigil : Option Text) :
    Advance n [.received n m true] [.listed n m.tenant commands sigil]
  | turnAway (m : Message) (commands : List Command) (sigil : Option Text) (c : Command)
    (result : RunResult) (retryAfterMs : Int) : Advance n [.received n m true]
      [.concluded n m c result retryAfterMs, .listed n m.tenant commands sigil]
  | enter (m : Message) (commands : List Command) (sigil : Option Text) (call : RuntimeCall) :
    Advance n [.listed n m.tenant commands sigil, .received n m true] [.entered n call]
  | land (m : Message) (commands : List Command) (sigil : Option Text)
    (call : Option RuntimeCall) (c : Command) (result : RunResult) : Advance n
      ((call.map (Deed.entered n)).toList ++ [.listed n m.tenant commands sigil, .received n m true])
      [.concluded n m c result 0]

/-- **A block is about one message**, if it is about any, and takes it one step on. -/
theorem Block.advance {block : List Deed} (hb : Block e genuine ds block) (i : Nat) :
    ownDeeds i block = [] ∨ (i = takenIn ds ∧ ∃ m enabled, block = [.received i m enabled]) ∨
      Advance i (ownDeeds i ds) (ownDeeds i block) := by
  cases hb with
  | received m enabled =>
    by_cases hi : takenIn ds = i
    · exact .inr (.inl ⟨hi.symm, m, enabled, by rw [hi]⟩)
    · exact .inl (by simp [ownDeeds, Deed.number?, hi])
  | @unmatched n m commands sigil hown hm =>
    by_cases hi : n = i
    · subst hi
      right; right
      rw [hown]
      simpa [ownDeeds, Deed.number?] using Advance.list m commands sigil
    · exact .inl (by simp [ownDeeds, Deed.number?, hi])
  | @denied n m commands sigil c now h hr =>
    by_cases hi : n = i
    · subst hi
      right; right
      rw [h.own]
      simpa [ownDeeds, Deed.number?] using Advance.turnAway m commands sigil c _ _
    · exact .inl (by simp [ownDeeds, Deed.number?, hi])
  | @refused n m commands sigil c now r result h hr hres =>
    by_cases hi : n = i
    · subst hi
      right; right
      rw [h.own]
      simpa [ownDeeds, Deed.number?] using Advance.turnAway m commands sigil c result 0
    · exact .inl (by simp [ownDeeds, Deed.number?, hi])
  | @launched n m commands sigil c now r l h hr hc =>
    by_cases hi : n = i
    · subst hi
      right; right
      rw [h.own]
      simpa [ownDeeds, Deed.number?] using Advance.list m commands sigil
    · exact .inl (by simp [ownDeeds, Deed.number?, hi])
  | @entered n m c r l h hown =>
    by_cases hi : n = i
    · subst hi
      right; right
      obtain ⟨commands, sigil, hown⟩ := hown
      rw [hown]
      simpa [ownDeeds, Deed.number?] using Advance.enter m commands sigil (callFor e m c l)
    · exact .inl (by simp [ownDeeds, Deed.number?, hi])
  | returned h => exact .inl (by simp [ownDeeds, Deed.number?])
  | @landed n m c r l call result h hown hres =>
    by_cases hi : n = i
    · subst hi
      right; right
      obtain ⟨commands, sigil, hown⟩ := hown
      rw [hown]
      simpa [ownDeeds, Deed.number?] using Advance.land m commands sigil call c result
    · exact .inl (by simp [ownDeeds, Deed.number?, hi])
  | pruned now => exact .inl (by simp [ownDeeds, Deed.number?])

/-- **A number that has not been given is not mentioned.** -/
theorem Chronicle.unknown (h : Chronicle e genuine ds) {n : Nat} (hn : takenIn ds ≤ n) :
    ownDeeds n ds = [] := by
  induction h with
  | nil => rfl
  | @more ds block h hb ih =>
    have hle : takenIn ds ≤ takenIn (block ++ ds) := by simp [takenIn]
    have hbefore := ih (Nat.le_trans hle hn)
    rw [ownDeeds_append, hbefore, List.append_nil]
    rcases hb.advance n with hnone | ⟨rfl, m, enabled, rfl⟩ | hadvance
    · exact hnone
    · rw [List.singleton_append, takenIn_received] at hn
      exact absurd hn (Nat.not_succ_le_self _)
    · rw [hbefore] at hadvance
      generalize ownDeeds n block = new at hadvance
      generalize hown : ([] : List Deed) = own at hadvance
      cases hadvance <;> simp at hown

/-- **The deeds about a message take their course.** -/
theorem Chronicle.course (h : Chronicle e genuine ds) (n : Nat) : Course n (ownDeeds n ds) := by
  induction h with
  | nil => exact .unknown
  | @more ds block h hb ih =>
    rw [ownDeeds_append]
    rcases hb.advance n with hnone | ⟨rfl, m, enabled, rfl⟩ | hadvance
    · rw [hnone]
      exact ih
    · rw [h.unknown (Nat.le_refl _)]
      simpa [ownDeeds, Deed.number?] using Course.received m enabled
    · generalize ownDeeds n ds = own at hadvance
      generalize ownDeeds n block = new at hadvance
      cases hadvance with
      | list m commands sigil => exact .underway none commands sigil m
      | turnAway m commands sigil c result retryAfterMs =>
        exact .concluded c result retryAfterMs none commands sigil m
      | enter m commands sigil call => exact .underway (some call) commands sigil m
      | land m commands sigil call c result => exact .concluded c result 0 call commands sigil m

/-! ### What one deed of a message presupposes -/

section

variable {later earlier : List Deed} {n : Nat}

theorem Course.entered {call : RuntimeCall} (h : Course n (later ++ .entered n call :: earlier)) :
    (∀ call', .entered n call' ∉ later) ∧
      ∃ m commands sigil, earlier = [.listed n m.tenant commands sigil, .received n m true] := by
  generalize hown : later ++ .entered n call :: earlier = own at h
  cases h with
  | unknown | received => simp [List.append_eq_cons_iff] at hown
  | underway call' commands sigil m =>
    cases call' with
    | none => simp [List.append_eq_cons_iff, List.cons_eq_append_iff] at hown
    | some call' =>
      obtain ⟨rfl, rfl, rfl⟩ : later = [] ∧ call = call' ∧ earlier = _ := by
        simpa [List.append_eq_cons_iff, List.cons_eq_append_iff] using hown
      exact ⟨fun _ => List.not_mem_nil, m, commands, sigil, rfl⟩
  | concluded c result retryAfterMs call' commands sigil m =>
    cases call' with
    | none => simp [List.append_eq_cons_iff, List.cons_eq_append_iff] at hown
    | some call' =>
      obtain ⟨rfl, rfl, rfl⟩ : later = [_] ∧ call = call' ∧ earlier = _ := by
        simpa [List.append_eq_cons_iff, List.cons_eq_append_iff] using hown
      exact ⟨fun _ => by simp, m, commands, sigil, rfl⟩

theorem Course.listed {tenant : Text} {commands : List Command} {sigil : Option Text}
    (h : Course n (later ++ .listed n tenant commands sigil :: earlier)) :
    ∃ m, earlier = [.received n m true] := by
  generalize hown : later ++ .listed n tenant commands sigil :: earlier = own at h
  cases h with
  | unknown | received => simp [List.append_eq_cons_iff] at hown
  | underway call _ _ m | concluded _ _ _ call _ _ m =>
    refine ⟨m, ?_⟩
    cases call <;> simp [List.append_eq_cons_iff, List.cons_eq_append_iff] at hown <;>
      exact hown.2.2

theorem Course.concluded_head {m : Message} {c : Command} {result : RunResult}
    {retryAfterMs : Int}
    (h : Course n (later ++ .concluded n m c result retryAfterMs :: earlier)) :
    later = [] ∧ ∃ (call : Option RuntimeCall) (commands : List Command) (sigil : Option Text),
      earlier = (call.map (Deed.entered n)).toList ++
        [.listed n m.tenant commands sigil, .received n m true] := by
  generalize hown : later ++ .concluded n m c result retryAfterMs :: earlier = own at h
  cases h with
  | unknown | received => simp [List.append_eq_cons_iff] at hown
  | underway call commands sigil m =>
    cases call <;> simp [List.append_eq_cons_iff, List.cons_eq_append_iff] at hown
  | concluded c result retryAfterMs call commands sigil m' =>
    rcases List.append_eq_cons_iff.mp hown with ⟨rfl, heq⟩ | ⟨rest, rfl, heq⟩
    · cases heq
      exact ⟨rfl, call, commands, sigil, rfl⟩
    · cases call <;> simp [List.cons_eq_append_iff] at heq

/-- **The registry is read once for a message**: two places where it has answered are one. -/
theorem listed_once {later later' earlier earlier' : List Deed} {m m' : Message}
    {tenant tenant' : Text} {commands commands' : List Command} {sigil sigil' : Option Text}
    (h : ownDeeds n earlier = [.received n m true])
    (h' : ownDeeds n earlier' = [.received n m' true])
    (heq : later ++ .listed n tenant commands sigil :: earlier =
      later' ++ .listed n tenant' commands' sigil' :: earlier') :
    later = later' ∧ commands = commands' ∧ earlier = earlier' := by
  have hnone : ∀ {ds : List Deed} {m : Message}, ownDeeds n ds = [.received n m true] →
      ∀ {tenant commands sigil}, .listed n tenant commands sigil ∉ ds := by
    intro ds m hown tenant commands sigil hmem
    have hmem' := mem_ownDeeds.mpr
      ⟨hmem, (rfl : Deed.number? (.listed n tenant commands sigil) = some n)⟩
    simp [hown] at hmem'
  rcases places_compare heq with ⟨rfl, hd, rfl⟩ | ⟨now, rfl⟩ | ⟨now, rfl⟩
  · cases hd
    exact ⟨rfl, rfl, rfl⟩
  · exact absurd (List.mem_append_right now List.mem_cons_self) (hnone h)
  · exact absurd (List.mem_append_right now List.mem_cons_self) (hnone h')

/-- When the registry is read for a message, the message was only received. -/
theorem Chronicle.listed {later earlier : List Deed} {tenant : Text} {commands : List Command}
    {sigil : Option Text}
    (h : Chronicle e genuine (later ++ .listed n tenant commands sigil :: earlier)) :
    ∃ m, ownDeeds n earlier = [.received n m true] := by
  have hcourse := h.course n
  rw [ownDeeds_append, ownDeeds_cons_self rfl] at hcourse
  exact hcourse.listed

/-- A run is launched in the turn in which the registry has answered. -/
theorem Launched.turn {later earlier : List Deed} {m m' : Message} {c : Command} {r : Reservation}
    {l : Language} {tenant : Text} {commands : List Command} {sigil : Option Text}
    (h : Launched e n m c r l (later ++ .listed n tenant commands sigil :: earlier))
    (hown : ownDeeds n earlier = [.received n m' true]) :
    ∃ later' now, later = later' ++ [.started m c (some r), .committed r, .asked m c now (some r),
      .matched m c] := by
  generalize hds : later ++ .listed n tenant commands sigil :: earlier = ds at h
  cases h with
  | @intro later' earlier' commands' sigil' now hmatched =>
    have heq : later ++ .listed n tenant commands sigil :: earlier =
        (later' ++ [.started m c (some r), .committed r, .asked m c now (some r), .matched m c]) ++
          .listed n m.tenant commands' sigil' :: earlier' := by simpa using hds
    exact ⟨later', now, (listed_once hown hmatched.own heq).1⟩

/-- **A runtime is called once for a message**, which was received and listed before. -/
theorem Chronicle.entered_once {call : RuntimeCall}
    (h : Chronicle e genuine (later ++ .entered n call :: earlier)) :
    (∀ call', .entered n call' ∉ later) ∧ ∃ m, Underway n m none earlier := by
  have hcourse := h.course n
  rw [ownDeeds_append, ownDeeds_cons_self rfl] at hcourse
  obtain ⟨hlater, m, commands, sigil, hearlier⟩ := hcourse.entered
  exact ⟨fun call' hmem => hlater call' (mem_ownDeeds.mpr ⟨hmem, rfl⟩), m, commands, sigil,
    hearlier⟩

/-- **A message comes to a result once**, and nothing is done about it afterwards. -/
theorem Chronicle.concluded_last {m : Message} {c : Command} {result : RunResult}
    {retryAfterMs : Int}
    (h : Chronicle e genuine (later ++ .concluded n m c result retryAfterMs :: earlier)) :
    ownDeeds n later = [] ∧ ∃ call, Underway n m call earlier := by
  have hcourse := h.course n
  rw [ownDeeds_append, ownDeeds_cons_self rfl] at hcourse
  obtain ⟨hlater, call, commands, sigil, hearlier⟩ := hcourse.concluded_head
  exact ⟨hlater, call, commands, sigil, hearlier⟩

theorem Course.receipts {own : List Deed} (h : Course n own) {m m' : Message}
    {enabled enabled' : Bool} (hm : .received n m enabled ∈ own)
    (hm' : .received n m' enabled' ∈ own) : m' = m ∧ enabled' = enabled := by
  have hone : ∃ m₀ enabled₀, ∀ m enabled, .received n m enabled ∈ own →
      m = m₀ ∧ enabled = enabled₀ := by
    cases h with
    | unknown => cases hm
    | received m₀ enabled₀ => exact ⟨m₀, enabled₀, fun m enabled hmem => by simpa using hmem⟩
    | underway call commands sigil m₀ =>
      exact ⟨m₀, true, fun m enabled hmem => by cases call <;> simpa using hmem⟩
    | concluded c result retryAfterMs call commands sigil m₀ =>
      exact ⟨m₀, true, fun m enabled hmem => by cases call <;> simpa using hmem⟩
  obtain ⟨m₀, enabled₀, hall⟩ := hone
  obtain ⟨rfl, rfl⟩ := hall m enabled hm
  exact hall m' enabled' hm'

/-- **A number is given to one message.** -/
theorem Chronicle.received_once (h : Chronicle e genuine ds) {m m' : Message}
    {enabled enabled' : Bool} (hm : .received n m enabled ∈ ds)
    (hm' : .received n m' enabled' ∈ ds) : m' = m ∧ enabled' = enabled :=
  (h.course n).receipts (mem_ownDeeds.mpr ⟨hm, rfl⟩) (mem_ownDeeds.mpr ⟨hm', rfl⟩)

theorem Underway.not_entered {m : Message} (h : Underway n m none ds) (call : RuntimeCall) :
    .entered n call ∉ ds := by
  obtain ⟨commands, sigil, hown⟩ := h
  intro hmem
  have hmem' := mem_ownDeeds.mpr ⟨hmem, (rfl : Deed.number? (.entered n call) = some n)⟩
  rw [hown] at hmem'
  simp at hmem'

/-- How a message has come to its result, by the history before. -/
inductive Conclusion (e : Setup ω) (genuine : RunResult → Prop) (n : Nat) (m : Message)
    (c : Command) : RunResult → Int → List Deed → Prop
  | denied {before : List Deed} {commands : List Command} {sigil : Option Text} {now : Rat}
    (hbefore : Chronicle e genuine before) (h : Matched e n m commands sigil c before)
    (hr : (answerTo e before m c now).2.2 = none) :
    Conclusion e genuine n m c (rateLimited (answerTo e before m c now).2.1)
      (answerTo e before m c now).2.1.retryAfterMs
      (.asked m c now none :: .matched m c :: .listed n m.tenant commands sigil :: before)
  | refused {before : List Deed} {commands : List Command} {sigil : Option Text} {now : Rat}
    {r : Reservation} {result : RunResult} (hbefore : Chronicle e genuine before)
    (h : Matched e n m commands sigil c before) (hr : (answerTo e before m c now).2.2 = some r)
    (hres : Refusal e c result) :
    Conclusion e genuine n m c result 0
      (.released r :: .asked m c now (some r) :: .matched m c ::
        .listed n m.tenant commands sigil :: before)
  | landed {before : List Deed} {r : Reservation} {l : Language} {call : Option RuntimeCall}
    {result : RunResult} (hbefore : Chronicle e genuine before)
    (h : Launched e n m c r l before) (hown : Underway n m call before)
    (hres : Landing e genuine call result) : Conclusion e genuine n m c result 0 before

/-- **How messages come to a result.** -/
theorem Chronicle.conclusion {m : Message} {c : Command} {result : RunResult} {retryAfterMs : Int}
    (h : Chronicle e genuine (later ++ .concluded n m c result retryAfterMs :: earlier)) :
    Conclusion e genuine n m c result retryAfterMs earlier := by
  obtain ⟨before, after, now₁, now₂, hbefore, hblock, rfl, -⟩ := h.block rfl
  generalize hown : now₁ ++ .concluded n m c result retryAfterMs :: now₂ = block at hblock
  cases hblock with
  | denied hmatched hr =>
    rcases List.append_eq_cons_iff.mp hown with ⟨rfl, heq⟩ | ⟨rest, rfl, heq⟩
    · cases heq
      exact .denied hbefore hmatched hr
    · simp [List.cons_eq_append_iff] at heq
  | refused hmatched hr hres =>
    rcases List.append_eq_cons_iff.mp hown with ⟨rfl, heq⟩ | ⟨rest, rfl, heq⟩
    · cases heq
      exact .refused hbefore hmatched hr hres
    · simp [List.cons_eq_append_iff] at heq
  | landed hlaunched hunderway hres =>
    rcases List.append_eq_cons_iff.mp hown with ⟨rfl, heq⟩ | ⟨rest, rfl, heq⟩
    · cases heq
      exact .landed hbefore hlaunched hunderway hres
    · simp at heq
  | received | unmatched | launched | entered | returned | pruned =>
    simp [List.append_eq_cons_iff, List.cons_eq_append_iff] at hown

/-- **What runtimes are called for.** -/
theorem Chronicle.entry {call : RuntimeCall}
    (h : Chronicle e genuine (later ++ .entered n call :: earlier)) :
    ∃ m c r l, Launched e n m c r l earlier ∧ Underway n m none earlier ∧
      call = callFor e m c l := by
  obtain ⟨before, after, now₁, now₂, -, hblock, rfl, -⟩ := h.block rfl
  generalize hown : now₁ ++ .entered n call :: now₂ = block at hblock
  cases hblock with
  | entered hlaunched hunderway =>
    rcases List.append_eq_cons_iff.mp hown with ⟨rfl, heq⟩ | ⟨rest, rfl, heq⟩
    · cases heq
      exact ⟨_, _, _, _, hlaunched, hunderway, rfl⟩
    · simp at heq
  | received | unmatched | denied | refused | launched | returned | landed | pruned =>
    simp [List.append_eq_cons_iff, List.cons_eq_append_iff] at hown

/-- The deed is done for a run that is launched. -/
def isLaunch : Deed → Bool
  | .committed _ | .started .. => true
  | _ => false

/-- What is done for a run that is launched is done for a run of one message. -/
theorem Chronicle.launched_of_mem (h : Chronicle e genuine ds) {d : Deed} (hd : d ∈ ds)
    (hlaunch : isLaunch d = true) : ∃ n m c r l, Launched e n m c r l ds ∧
      (d = .committed r ∨ d = .started m c (some r)) := by
  induction h with
  | nil => cases hd
  | @more ds block h hb ih =>
    rcases List.mem_append.mp hd with hd | hd
    · have hmem := List.mem_filter.mpr ⟨hd, hlaunch⟩
      cases hb with
      | @launched n m _ _ c _ r l hmatched hgranted hc =>
        have hboth : d = .started m c (some r) ∨ d = .committed r := by
          simpa [List.filter_cons, isLaunch] using hmem
        exact ⟨n, m, c, r, l, .here hmatched hgranted hc, hboth.symm⟩
      | received | unmatched | denied | refused | entered | returned | landed | pruned =>
        simp [isLaunch] at hmem
    · obtain ⟨n, m, c, r, l, hlaunched, hd⟩ := ih hd
      exact ⟨n, m, c, r, l, hlaunched.append block, hd⟩

/-- **A fire is that of a run that was launched.** -/
theorem Chronicle.launched (h : Chronicle e genuine ds) {r : Reservation}
    (hr : .committed r ∈ ds) : ∃ n m c l, Launched e n m c r l ds := by
  obtain ⟨n, m, c, r', l, hlaunched, heq | heq⟩ := h.launched_of_mem hr rfl
  · cases heq
    exact ⟨n, m, c, l, hlaunched⟩
  · cases heq

/-- **The pool is asked for a run that was launched.** -/
theorem Chronicle.started (h : Chronicle e genuine ds) {m : Message} {c : Command} {r : Reservation}
    (hr : .started m c (some r) ∈ ds) : ∃ n l, Launched e n m c r l ds := by
  obtain ⟨n, m', c', r', l, hlaunched, heq | heq⟩ := h.launched_of_mem hr rfl
  · cases heq
  · cases heq
    exact ⟨n, l, hlaunched⟩

end

end Engine

end ChatCommands
