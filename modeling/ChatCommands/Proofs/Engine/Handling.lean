import ChatCommands.Proofs.Engine.Knowledge

/-!
Handling a message adds to the chronicle.

What the task of a message does between two waits makes up a block of the chronicle.  The stages of
the work on the message are followed from the receipt to the conclusion.
-/

namespace ChatCommands.Engine

open Concurrency Cooldown Act

variable {ω α β : Type} {e : Setup ω} {genuine : RunResult → Prop}

/-! ### Matching -/

section

variable {n : Nat} {m : Message}

/-- The message was received and nothing else was done about it. -/
abbrev Fresh (n : Nat) (m : Message) (ds : List Deed) : Prop := ownDeeds n ds = [.received n m true]

/-- The registry has just answered. -/
def JustListed (e : Setup ω) (genuine : RunResult → Prop) (n : Nat) (m : Message)
    (commands : List Command) (sigil : Option Text) (ds : List Deed) : Prop :=
  ∃ before, ds = .listed n m.tenant commands sigil :: before ∧ Chronicle e genuine before ∧
    Fresh n m before

/-- **A message takes the next number.** -/
theorem fulfils_receive (m : Message) :
    Fulfils (workCharter e genuine)
      (fun ρ w => ρ = .newcomer ∧ (workCharter e genuine).holds w) (receive m)
      fun r ρ w => ∃ n enabled, r = .ok (n, enabled) ∧
        Rests e genuine n (fun ds => ownDeeds n ds = [.received n m enabled]) ρ w := by
  refine fulfils_change ?_
  rintro ρ w ⟨rfl, hkept, hchronicle⟩
  let d : Deed := .received w.messages m w.enabled
  have hdeeds : World.docket
      { w with messages := w.messages + 1, deeds := d :: w.deeds } =
        ⟨w.messages + 1, w.limiter, d :: w.docket.deeds⟩ := rfl
  have hnumber : w.messages = takenIn w.docket.deeds := hkept.messages
  refine ⟨.holder w.messages, ⟨⟨?_, [d], rfl, ?_⟩, .inr ⟨rfl, rfl, ?_⟩⟩, w.messages, w.enabled,
    rfl, rfl, ⟨?_, ?_⟩, ?_, ?_⟩
  · exact Nat.le_succ w.messages
  · intro d' hd' i hi
    obtain rfl := List.mem_singleton.mp hd'
    exact hi
  · exact Nat.lt_succ_self w.messages
  · rw [hdeeds, takenIn_received, ← hnumber]
  · exact hkept.limiter
  · rw [hdeeds]
    have hblock : Block e genuine w.docket.deeds [d] := by
      change Block e genuine _ [.received w.messages m w.enabled]
      rw [hnumber]
      exact .received m w.enabled
    exact .more hchronicle hblock
  · rw [hdeeds]
    have hunknown := hchronicle.unknown (Nat.le_of_eq hnumber.symm)
    change ownDeeds w.messages (d :: w.docket.deeds) = [d]
    rw [ownDeeds_cons_self rfl, hunknown]

theorem fulfils_within {x : Action ω α} {pre : Role → World ω → Prop}
    {post : Ending α → Role → World ω → Prop} (hx : Fulfils (workCharter e genuine) pre x post)
    (htimeout : ∀ ρ w, post (.error .interrupted) ρ w → post (.error (.fault (.of .timeout []))) ρ w)
    (limit : Option Rat) : Fulfils (workCharter e genuine) pre (Act.within limit x) post := by
  cases limit with
  | none => exact hx
  | some d =>
    intro k Q ρ w hw hk alarm
    refine hx _ Q ρ w hw fun r ρ' w' hr expired => ?_
    match expired, r with
    | true, .error .interrupted => exact hk _ ρ' w' (htimeout ρ' w' hr)
    | true, .error (.fault _) | true, .ok _ | false, _ => exact hk _ ρ' w' hr

/-- What reading the registry comes to. -/
def ReadOk (e : Setup ω) (genuine : RunResult → Prop) (n : Nat) (m : Message) :
    Ending (List Command × Option Text) → Role → World ω → Prop
  | .ok (commands, sigil), ρ, w => commands = [] ∧ Rests e genuine n (Fresh n m) ρ w ∨
    Knows e n (JustListed e genuine n m commands sigil) ρ w
  | .error _, ρ, w => Rests e genuine n (Fresh n m) ρ w

theorem fulfils_readRegistry (he : e.Sealed) :
    Fulfils (workCharter e genuine) (Rests e genuine n (Fresh n m)) (readRegistry e n m.tenant)
      (ReadOk e genuine n m) := by
  have hlasting : Lasting n (Fresh n m) := lasting_own _
  have hnote : ∀ commands sigil, Fulfils (workCharter e genuine) (Rests e genuine n (Fresh n m))
      (do Action.note (.listed n m.tenant commands sigil); pure (commands, sigil))
      (ReadOk e genuine n m) := fun commands sigil =>
    fulfils_deed_bind rfl
      (.inr rfl) (does_note rfl fun _ => rfl)
      (fun ds h => ⟨ds, rfl, h.1, h.2⟩) ((fulfils_pure _).of_pre fun _ _ h => .inr h)
  have hlog : ∀ f, Fulfils (workCharter e genuine) (Rests e genuine n (Fresh n m))
      (do Action.log .warning .coordinator
            (text "Command registry unavailable, treating as no match")
            (("tenant_id", .str m.tenant) :: Audit.faultContext f)
          pure ([], none)) (ReadOk e genuine n m) := fun f =>
    fulfils_log_bind (fun _ => rfl) ((fulfils_pure _).of_pre fun _ _ h => .inl ⟨rfl, h⟩)
  refine fulfils_recover (fulfils_within ?_ (fun _ _ h => h) _) (fun _ _ _ h => h)
    (fun _ _ h => h) hlog
  refine fulfils_bind (fulfils_rests (he.commands m.tenant) hlasting) (fun commands => ?_)
    fun _ _ _ h => h
  split
  · rename_i ask hask
    exact fulfils_bind (fulfils_rests (he.sigil ask hask m.tenant) hlasting)
      (fun sigil => hnote commands sigil) fun _ _ _ h => h
  · exact fulfils_bind (fulfils_rests (avoids_closed.pure none) hlasting)
      (fun sigil => hnote commands sigil) fun _ _ _ h => h

end

/-! ### The run -/

/-- The results of the runtimes are genuine, and there can be one. -/
structure Setup.Genuine (e : Setup ω) (genuine : RunResult → Prop) : Prop where
  runtimes : ∀ l run, (l, run) ∈ e.runtimes → ∀ code bindings timeout,
    Yields genuine (run code bindings timeout)
  some : ∃ result, genuine result

/-- Nothing need be known of what runtimes come to. -/
theorem genuine_any : e.Genuine fun _ => True where
  runtimes _ _ _ _ _ _ := yields_true _
  some := ⟨default, trivial⟩

section

variable {n : Nat} {m : Message} {c : Command} {r : Reservation} {l : Language}

/-- The run was launched, and there was this call for it. -/
abbrev Running (e : Setup ω) (n : Nat) (m : Message) (c : Command) (r : Reservation) (l : Language)
    (call : Option RuntimeCall) (ds : List Deed) : Prop :=
  Launched e n m c r l ds ∧ Underway n m call ds

theorem lasting_running {call : Option RuntimeCall} : Lasting n (Running e n m c r l call) := by
  rintro ds new hnew ⟨hlaunched, commands, sigil, hown⟩
  exact ⟨hlaunched.append new, commands, sigil, by rw [ownDeeds_of_others hnew, hown]⟩

/-- Deeds that tell no number are not about a message. -/
theorem Underway.cons {call : Option RuntimeCall} {ds : List Deed} {d : Deed}
    (hd : d.number? = none) (h : Underway n m call ds) : Underway n m call (d :: ds) := by
  obtain ⟨commands, sigil, hown⟩ := h
  exact ⟨commands, sigil, by rw [ownDeeds_cons_other hd, hown]⟩

/-- How a run ends: with a genuine result only if the runtime was called. -/
def Ran (e : Setup ω) (genuine : RunResult → Prop) (n : Nat) (m : Message) (c : Command)
    (r : Reservation) (l : Language) (ending : Ending RunResult) (ρ : Role) (w : World ω) : Prop :=
  ∃ call, (∀ result, ending = .ok result → call.isSome ∧ genuine result) ∧
    Rests e genuine n (Running e n m c r l call) ρ w

/-- **A runtime is called** for a run that was launched, once. -/
theorem fulfils_entered {run : Action ω RunResult} (hrun : run.Avoids World.docket)
    (hyields : Yields genuine run) {result₀ : RunResult} (hresult₀ : genuine result₀) :
    Fulfils (workCharter e genuine) (Rests e genuine n (Running e n m c r l none))
      (do Action.note (.entered n (callFor e m c l)); run)
      fun ending ρ w => (∀ result, ending = .ok result → genuine result) ∧
        Rests e genuine n (Running e n m c r l (some (callFor e m c l))) ρ w := by
  refine fulfils_deed_bind rfl (.inr rfl) (does_note rfl fun _ => rfl)
    (fun ds h => ?_) (hyields.fulfils hresult₀ (fulfils_rests hrun lasting_running))
  obtain ⟨hchronicle, hlaunched, hunderway⟩ := h
  refine ⟨.more (b := [_]) hchronicle (.entered hlaunched hunderway), hlaunched.append [_], ?_⟩
  obtain ⟨commands, sigil, hown⟩ := hunderway
  refine ⟨commands, sigil, ?_⟩
  rw [ownDeeds_cons_self rfl, hown]
  rfl

/-- A run waits for a slot before and gives it back afterwards. -/
theorem fulfils_withSlot {run : Action ω RunResult} {call : RuntimeCall}
    (hrun : Fulfils (workCharter e genuine) (Rests e genuine n (Running e n m c r l none)) run
      fun ending ρ w => (∀ result, ending = .ok result → genuine result) ∧
        Rests e genuine n (Running e n m c r l (some call)) ρ w) :
    Fulfils (workCharter e genuine) (Rests e genuine n (Running e n m c r l none)) (withSlot run)
      (Ran e genuine n m c r l) := by
  refine fulfils_bind (fulfils_rests avoids_closed.acquire lasting_running) (fun _ => ?_)
    fun _ _ _ h => ⟨none, nofun, h⟩
  refine fulfils_bind (fulfils_rests (avoids_closed.changeActive _) lasting_running) (fun _ => ?_)
    fun _ _ _ h => ⟨none, nofun, h⟩
  refine fulfils_attempt_bind hrun fun ending k Q ρ w ⟨hresult, hrests⟩ hk => ?_
  refine fulfils_bind (fulfils_rests (avoids_closed.changeActive _) lasting_running) (fun _ => ?_)
    (fun _ _ _ h => ⟨some call, nofun, h⟩) k Q ρ w hrests hk
  refine fulfils_bind (fulfils_rests avoids_closed.releaseSlot lasting_running) (fun _ => ?_)
    fun _ _ _ h => ⟨some call, nofun, h⟩
  exact (fulfils_ofEnding ending).of_pre fun _ _ h =>
    ⟨some call, fun result heq => ⟨rfl, hresult result heq⟩, h⟩

theorem fulfils_run (he : e.Sealed) (hgenuine : e.Genuine genuine) :
    Fulfils (workCharter e genuine) (Rests e genuine n (Running e n m c r l none)) (run e n m c l)
      (Ran e genuine n m c r l) := by
  unfold run execute
  split
  · rename_i runner hrunner
    obtain ⟨⟨l', inner⟩, hinner, hpair⟩ := List.mem_map.mp (Runtimes.mem_of_lookup hrunner)
    cases hpair
    obtain ⟨result₀, hresult₀⟩ := hgenuine.some
    exact fulfils_withSlot (fulfils_entered (he.runtimes l inner hinner c.code _ _)
      (hgenuine.runtimes l inner hinner c.code _ _) hresult₀)
  · exact (fulfils_fail _).of_pre fun _ _ h => ⟨none, nofun, h⟩

/-! ### The work up to the end of the run -/

/-- The result that a stage of the work comes to once its faults are accounted for. -/
def settled (e : Setup ω) : Ending (Option RunResult) → Ending (Option RunResult)
  | .error (.fault f) => .ok (some (failureResult e f))
  | r => r

/-- What the work on a message comes to, by the deeds. -/
inductive Stage (e : Setup ω) (genuine : RunResult → Prop) (n : Nat) (m : Message) :
    Progress → Ending (Option RunResult) → List Deed → Prop
  | unmatched {ending : Ending (Option RunResult)} {ds : List Deed} (h : Chronicle e genuine ds) :
    Stage e genuine n m {} ending ds
  | denied {before : List Deed} {commands : List Command} {sigil : Option Text} {c : Command}
    {now : Rat} (hbefore : Chronicle e genuine before) (h : Matched e n m commands sigil c before)
    (hr : (answerTo e before m c now).2.2 = none) :
    Stage e genuine n m ⟨some c, none, (answerTo e before m c now).2.1.retryAfterMs⟩
      (.ok (some (rateLimited (answerTo e before m c now).2.1)))
      (.asked m c now none :: .matched m c :: .listed n m.tenant commands sigil :: before)
  | refused {before : List Deed} {commands : List Command} {sigil : Option Text} {c : Command}
    {now : Rat} {r : Reservation} {ending : Ending (Option RunResult)} {result : RunResult}
    (hbefore : Chronicle e genuine before) (h : Matched e n m commands sigil c before)
    (hr : (answerTo e before m c now).2.2 = some r) (hending : settled e ending = .ok (some result))
    (hres : Refusal e c result) :
    Stage e genuine n m ⟨some c, some r, 0⟩ ending
      (.asked m c now (some r) :: .matched m c :: .listed n m.tenant commands sigil :: before)
  | run {ds : List Deed} {c : Command} {r : Reservation} {l : Language}
    {call : Option RuntimeCall} {ending : Ending (Option RunResult)}
    (h : Chronicle e genuine ds) (hrun : Running e n m c r l call ds)
    (hres : ∀ answer, settled e ending = .ok answer →
      ∃ result, answer = some result ∧ Landing e genuine call result) :
    Stage e genuine n m ⟨some c, some r, 0⟩ ending ds

/-- A stage that was interrupted because its time was up. -/
theorem Stage.expire {p : Progress} {ds : List Deed}
    (h : Stage e genuine n m p (.error .interrupted) ds) :
    Stage e genuine n m p (.error (.fault (.of .timeout []))) ds := by
  cases h with
  | unmatched h => exact .unmatched h
  | refused _ _ _ hending _ => cases hending
  | run h hrun _ =>
    refine .run h hrun fun answer hanswer => ?_
    cases hanswer
    exact ⟨_, rfl, .failed _ _⟩

end

section

variable {n : Nat} {m : Message} {c : Command} {r : Reservation}

/-- What the work on a message comes to. -/
def StageOk (e : Setup ω) (genuine : RunResult → Prop) (n : Nat) (m : Message) :
    Ending Staged → Role → World ω → Prop
  | .ok (p, ending), ρ, w => Knows e n (Stage e genuine n m p ending) ρ w
  | .error _, _, _ => False

/-- The limiter has granted the run that it was just asked for. -/
def JustGranted (e : Setup ω) (genuine : RunResult → Prop) (n : Nat) (m : Message) (c : Command)
    (r : Reservation) (ds : List Deed) : Prop :=
  ∃ before commands sigil now, Chronicle e genuine before ∧
    Matched e n m commands sigil c before ∧ (answerTo e before m c now).2.2 = some r ∧
    ds = .asked m c now (some r) :: .matched m c :: .listed n m.tenant commands sigil :: before

/-- A run that is refused. -/
theorem JustGranted.refused {ds : List Deed} (h : JustGranted e genuine n m c r ds)
    {ending : Ending (Option RunResult)} {result : RunResult}
    (hending : settled e ending = .ok (some result)) (hres : Refusal e c result) :
    Stage e genuine n m ⟨some c, some r, 0⟩ ending ds := by
  obtain ⟨before, commands, sigil, now, hbefore, hmatched, hr, rfl⟩ := h
  exact .refused hbefore hmatched hr hending hres

/-- The reservation of the run is committed. -/
def JustCommitted (e : Setup ω) (genuine : RunResult → Prop) (n : Nat) (m : Message) (c : Command)
    (r : Reservation) (ds : List Deed) : Prop :=
  ∃ before, JustGranted e genuine n m c r before ∧ ds = .committed r :: before

/-- A run that is cleared is launched. -/
theorem JustCommitted.launched {ds : List Deed} {l : Language}
    (h : JustCommitted e genuine n m c r ds) (hc : Cleared e c l) :
    Chronicle e genuine (.started m c (some r) :: ds) ∧
      Running e n m c r l none (.started m c (some r) :: ds) := by
  obtain ⟨_, ⟨before, commands, sigil, now, hbefore, hmatched, hr, rfl⟩, rfl⟩ := h
  refine ⟨.more (b := [_, _, _, _, _]) hbefore (.launched hmatched hr hc),
    .here hmatched hr hc, commands, sigil, ?_⟩
  rw [ownDeeds_cons_other rfl, ownDeeds_cons_other rfl, ownDeeds_cons_other rfl,
    ownDeeds_cons_other rfl, ownDeeds_cons_self rfl, hmatched.own]
  rfl

theorem fulfils_start (he : e.Sealed) (hgenuine : e.Genuine genuine)
    (hreview : ∃ records v, e.review c.language c.code = .ok (records, v) ∧ v.ok = true) :
    Fulfils (workCharter e genuine) (Knows e n (JustGranted e genuine n m c r))
      (start e n m c (some r)) (StageOk e genuine n m) := by
  unfold start
  split
  · rename_i hlanguage
    exact fulfils_log_bind (fun _ => rfl) ((fulfils_pure _).of_pre fun _ _ h =>
      h.imp fun _ hds => hds.refused rfl (.unsupported hlanguage))
  · rename_i l hlanguage
    refine fulfils_deed_bind (Q := JustCommitted e genuine n m c r) rfl (.inl rfl) (fun w => ?_)
      (fun ds h => ⟨ds, h, rfl⟩) ?_
    · rfl
    refine fulfils_deed_bind (Q := fun ds => Chronicle e genuine ds ∧ Running e n m c r l none ds)
      rfl (.inl rfl) (does_note rfl fun _ => rfl)
      (fun ds h => h.launched ⟨hreview, hlanguage⟩) ?_
    refine fulfils_attempt_bind (fulfils_run he hgenuine) fun ending => ?_
    refine (fulfils_pure _).of_pre fun ρ w ⟨call, hcall, hrests⟩ =>
      hrests.imp fun ds ⟨hchronicle, hrun⟩ => .run hchronicle hrun fun answer hanswer => ?_
    match ending with
    | .ok result =>
      cases hanswer
      obtain ⟨hsome, hresult⟩ := hcall result rfl
      obtain ⟨call, rfl⟩ := Option.isSome_iff_exists.mp hsome
      exact ⟨result, rfl, .ran hresult⟩
    | .error (.fault f) =>
      cases hanswer
      exact ⟨_, rfl, .failed call f⟩

theorem fulfils_reviewThen (he : e.Sealed)
    (hgenuine : e.Genuine genuine) :
    Fulfils (workCharter e genuine) (Knows e n (JustGranted e genuine n m c r))
      (reviewThen e n m c (some r)) (StageOk e genuine n m) := by
  unfold reviewThen
  split
  · rename_i f hreview
    exact (fulfils_pure _).of_pre fun _ _ h => h.imp fun _ hds => hds.refused rfl (.failed hreview)
  · rename_i records v hreview
    refine fulfils_log_bind (fun _ => rfl) ?_
    split
    · rename_i hok
      exact fulfils_start he hgenuine ⟨records, v, hreview, hok⟩
    · rename_i hok
      exact fulfils_log_bind (fun _ => rfl) ((fulfils_pure _).of_pre fun _ _ h =>
        h.imp fun _ hds => hds.refused rfl (.rejected hreview (by simpa using hok)))

/-- The message has just been matched. -/
def JustMatched (e : Setup ω) (genuine : RunResult → Prop) (n : Nat) (m : Message) (c : Command)
    (ds : List Deed) : Prop :=
  ∃ before commands sigil, Chronicle e genuine before ∧ Matched e n m commands sigil c before ∧
    ds = .matched m c :: .listed n m.tenant commands sigil :: before

/-- What the limiter has answered to a message that has just been matched. -/
inductive JustAsked (e : Setup ω) (genuine : RunResult → Prop) (n : Nat) (m : Message)
    (c : Command) : Decision → Option Reservation → List Deed → Prop
  | granted {d : Decision} {r : Reservation} {ds : List Deed} (hd : d.allowed = true)
    (h : JustGranted e genuine n m c r ds) : JustAsked e genuine n m c d (some r) ds
  | denied {d : Decision} {ds : List Deed} (hd : d.allowed = false)
    (h : Stage e genuine n m ⟨some c, none, d.retryAfterMs⟩ (.ok (some (rateLimited d))) ds) :
    JustAsked e genuine n m c d none ds

theorem JustMatched.asked {ds : List Deed} (h : JustMatched e genuine n m c ds) (now : Rat) :
    JustAsked e genuine n m c (answerTo e ds m c now).2.1 (answerTo e ds m c now).2.2
      (.asked m c now (answerTo e ds m c now).2.2 :: ds) := by
  obtain ⟨before, commands, sigil, hbefore, hmatched, rfl⟩ := h
  -- the limiter is not affected by what was noted since
  have hsame : answerTo e (.matched m c :: .listed n m.tenant commands sigil :: before) m c now =
      answerTo e before m c now := rfl
  have hallowed : (answerTo e before m c now).2.1.allowed =
      (answerTo e before m c now).2.2.isSome := Limiter.reserve_allowed
  rw [hsame]
  cases hr : (answerTo e before m c now).2.2 with
  | some r =>
    rw [hr] at hallowed
    exact .granted hallowed ⟨before, commands, sigil, now, hbefore, hmatched, hr, rfl⟩
  | none =>
    rw [hr] at hallowed
    exact .denied hallowed (.denied hbefore hmatched hr)

theorem fulfils_requestRun (he : e.Sealed)
    (hgenuine : e.Genuine genuine) :
    Fulfils (workCharter e genuine) (Knows e n (JustMatched e genuine n m c))
      (requestRun e n m c) (StageOk e genuine n m) := by
  have hreserve : Fulfils (workCharter e genuine) (Knows e n (JustMatched e genuine n m c))
      (reserve e m c) fun answer ρ w => ∃ d r, answer = .ok (d, r) ∧
        Knows e n (JustAsked e genuine n m c d r) ρ w := by
    refine fulfils_change fun ρ w ⟨hrole, hkept, hmatched⟩ => ?_
    let now := e.clock w.env
    let answer := w.limiter.reserve e.cooldowns (cooldownKey m c) c.cooldownMs now
    have hanswer : answer = answerTo e w.docket.deeds m c now :=
      congrArg (·.reserve e.cooldowns (cooldownKey m c) c.cooldownMs now) hkept.limiter
    have hasked := hmatched.asked now
    rw [← hanswer] at hasked
    have hdoes : Does e (.asked m c now answer.2.2) w
      { w with limiter := answer.1, deeds := .asked m c now answer.2.2 :: w.deeds } := rfl
    have hknows : Knows e n (· = w.docket.deeds) ρ w := ⟨hrole, hkept, rfl⟩
    obtain ⟨hmay, hafter⟩ := hknows.does (Q := JustAsked e genuine n m c answer.2.1 answer.2.2)
      rfl (.inl rfl) (fun ds hds => hds ▸ hasked) hdoes
    exact ⟨ρ, .same hmay, _, _, rfl, hafter⟩
  refine fulfils_bind hreserve (fun answer k Q ρ w ⟨d, reservation, heq, hknows⟩ hk => ?_)
    fun _ _ _ ⟨_, _, heq, _⟩ => nomatch heq
  cases heq
  obtain ⟨hrole, hkept, hasked⟩ := hknows
  cases hasked with
  | granted hallowed hgranted =>
    simp only [hallowed, if_true]
    exact fulfils_reviewThen he hgenuine k Q ρ w ⟨hrole, hkept, hgranted⟩ hk
  | denied hallowed hstage =>
    simp only [hallowed]
    have hlog : Fulfils (workCharter e genuine) (Knows e n (Stage e genuine n m
        ⟨some c, none, d.retryAfterMs⟩ (.ok (some (rateLimited d)))))
        (do Action.log .debug .coordinator (text "Rate limited")
              (logContext m c ++ [("retry_after_ms", .int d.retryAfterMs)])
            pure (⟨some c, none, d.retryAfterMs⟩, .ok (some (rateLimited d))))
        (StageOk e genuine n m) :=
      fulfils_log_bind (fun _ => rfl) ((fulfils_pure _).of_pre fun _ _ h => h)
    exact hlog k Q ρ w ⟨hrole, hkept, hstage⟩ hk

/-- **The work on a message** comes to a stage. -/
theorem fulfils_work (he : e.Sealed) (hgenuine : e.Genuine genuine)
    (hhuman : m.fromBot = false) :
    Fulfils (workCharter e genuine) (Rests e genuine n (Fresh n m)) (work e n m)
      (StageOk e genuine n m) := by
  have hnothing : ∀ ending, Fulfils (workCharter e genuine)
      (Knows e n (Chronicle e genuine)) (pure ({}, ending) : Action ω Staged)
      (StageOk e genuine n m) := fun ending =>
    (fulfils_pure _).of_pre fun _ _ h => h.imp fun _ => .unmatched
  refine fulfils_attempt_bind (fulfils_readRegistry he) fun answer => ?_
  match answer with
  | .error f => exact (hnothing _).of_pre fun _ _ => Rests.chronicle
  | .ok (commands, sigil) =>
    simp only []
    split
    · rename_i hmatched
      refine (hnothing _).of_pre fun ρ w h => ?_
      rcases h with ⟨-, h⟩ | h
      · exact h.chronicle
      · refine h.imp fun _ ⟨before, hds, hbefore, hfresh⟩ => ?_
        rw [hds]
        exact .more (b := [_]) hbefore (.unmatched hfresh hmatched)
    · rename_i c hmatched
      have hlisted : Fulfils (workCharter e genuine)
          (Knows e n (JustListed e genuine n m commands sigil))
          (do Action.note (.matched m c); requestRun e n m c) (StageOk e genuine n m) := by
        refine fulfils_deed_bind rfl (.inl rfl) (does_note rfl fun _ => rfl) (fun ds h => ?_)
          (fulfils_requestRun he hgenuine)
        obtain ⟨before, rfl, hbefore, hfresh⟩ := h
        exact ⟨before, commands, sigil, hbefore, ⟨hfresh, hhuman, hmatched⟩, rfl⟩
      refine hlisted.of_pre fun ρ w h => ?_
      rcases h with ⟨rfl, -⟩ | h
      · exact nomatch hmatched
      · exact h

theorem fulfils_bounded {pre : Role → World ω → Prop} {stage : Action ω Staged}
    (h : Fulfils (workCharter e genuine) pre stage (StageOk e genuine n m)) (limit : Option Rat) :
    Fulfils (workCharter e genuine) pre (bounded limit stage) (StageOk e genuine n m) := by
  cases limit with
  | none => exact h
  | some d =>
    intro k Q ρ w hw hk alarm
    refine h _ Q ρ w hw fun r ρ' w' hr => ?_
    match r with
    | .ok (p, ending) =>
      intro expired
      match expired, ending with
      | true, .error .interrupted => exact hk _ ρ' w' (hr.imp fun _ hds => hds.expire)
      | true, .error (.fault _) | true, .ok _ | false, _ => exact hk _ ρ' w' hr

/-! ### The end of the work -/

/-- The result of a stage is settled where the stage has ended. -/
theorem fulfils_settle {P : List Deed → Prop} {p : Progress} (hp : p.command = some c)
    (ending : Ending (Option RunResult)) :
    Fulfils (workCharter e genuine) (Knows e n P) (settle e m p ending)
      fun r ρ w => r = settled e ending ∧ Knows e n P ρ w := by
  match ending with
  | .ok r => exact (fulfils_pure r).of_pre fun _ _ h => ⟨rfl, h⟩
  | .error .interrupted => exact (fulfils_fail _).of_pre fun _ _ h => ⟨rfl, h⟩
  | .error (.fault f) =>
    unfold settle
    simp only [hp, Option.map_some]
    split
    · rename_i htimeout
      exact (fulfils_pure _).of_pre fun _ _ h => ⟨by rw [settled, failureResult, if_pos htimeout], h⟩
    · rename_i hother
      exact fulfils_log_bind (fun _ => rfl) ((fulfils_pure _).of_pre fun _ _ h =>
        ⟨by rw [settled, failureResult, if_neg hother], h⟩)

/-- What remains to be done once the work has come to a stage. -/
def finish (e : Setup ω) (n : Nat) (m : Message) (p : Progress) (ending : Ending (Option RunResult)) :
    Action ω (Option Outcome) := do
  let r ← Act.ensuring (settle e m p ending) (release p.reservation)
  match p.command, r with
  | some c, some r => do
    Action.note (.concluded n m c r p.retryAfterMs)
    some <$> conclude e m c r p.retryAfterMs
  | _, _ => pure none

/-- **A message is concluded** with a block of the chronicle. -/
theorem fulfils_conclude (he : e.Sealed) {P : List Deed → Prop}
    {result : RunResult} {retryAfterMs : Int}
    (hP : ∀ ds, P ds → Chronicle e genuine (.concluded n m c result retryAfterMs :: ds)) :
    Fulfils (workCharter e genuine) (Knows e n P)
      (do Action.note (.concluded n m c result retryAfterMs)
          some <$> conclude e m c result retryAfterMs)
      fun _ _ => (workCharter e genuine).holds :=
  fulfils_deed_bind (Q := fun ds => Chronicle e genuine ds ∧ True) rfl (.inr rfl)
    (does_note rfl fun _ => rfl) (fun ds h => ⟨hP ds h, trivial⟩)
    ((fulfils_rests (avoids_closed.map (avoids_closed.conclude he.reply he.audit m c result retryAfterMs))
      fun _ _ _ h => h).of_post fun _ _ _ h => h.holds)

/-- After the work on a message that has fired a command its reservation is given back, and the
message is concluded unless the work was interrupted. -/
theorem fulfils_finish_matched (he : e.Sealed)
    {P R : List Deed → Prop} {reservation : Option Reservation} {retryAfterMs : Int}
    {ending : Ending (Option RunResult)}
    (hrelease : Fulfils (workCharter e genuine) (Knows e n P) (release reservation)
      fun r ρ w => r = .ok () ∧ Knows e n R ρ w)
    (hconclude : ∀ result, settled e ending = .ok (some result) → ∀ ds, R ds →
      Chronicle e genuine (.concluded n m c result retryAfterMs :: ds))
    (hstop : (∀ result, settled e ending ≠ .ok (some result)) → ∀ ds, R ds →
      Chronicle e genuine ds) :
    Fulfils (workCharter e genuine) (Knows e n P)
      (finish e n m ⟨some c, reservation, retryAfterMs⟩ ending)
      fun _ _ => (workCharter e genuine).holds := by
  have hensuring : Fulfils (workCharter e genuine) (Knows e n P)
      (Act.ensuring (settle e m ⟨some c, reservation, retryAfterMs⟩ ending) (release reservation))
      fun r ρ w => r = settled e ending ∧ Knows e n R ρ w := by
    refine fulfils_attempt_bind (fulfils_settle rfl ending) fun r k Q ρ w ⟨heq, hknows⟩ hk => ?_
    exact fulfils_bind hrelease (fun _ => (fulfils_ofEnding r).of_pre fun _ _ h => ⟨heq, h.2⟩)
      (fun _ _ _ h => nomatch h.1) k Q ρ w hknows hk
  have hover : (∀ result, settled e ending ≠ .ok (some result)) → ∀ {ρ : Role} {w : World ω},
      Knows e n R ρ w → (workCharter e genuine).holds w := fun hnone _ _ h =>
    ⟨h.2.1, hstop hnone _ h.2.2⟩
  refine fulfils_bind hensuring (fun answer => ?_) fun f _ _ h =>
    hover (fun result heq => nomatch h.1.trans heq) h.2
  cases answer with
  | none =>
    exact (fulfils_pure none).of_pre fun _ _ h =>
      hover (fun result heq => nomatch h.1.trans heq) h.2
  | some result =>
    intro k Q ρ w ⟨heq, hknows⟩ hk
    exact fulfils_conclude he (hconclude result heq.symm) k Q ρ w hknows hk

/-- A reservation is given back; what has happened to it does not matter. -/
theorem fulfils_release (ds : List Deed) (r : Reservation) :
    Fulfils (workCharter e genuine) (Knows e n (· = ds)) (release (some r))
      fun r' ρ w => r' = .ok () ∧ Knows e n (· = .released r :: ds) ρ w := by
  refine fulfils_change fun ρ w h => ?_
  have hdoes : Does e (.released r) w
    { w with limiter := w.limiter.release r, deeds := .released r :: w.deeds } := rfl
  obtain ⟨hmay, hafter⟩ := h.does (Q := (· = .released r :: ds)) rfl (.inl rfl)
    (fun _ heq => congrArg _ heq) hdoes
  exact ⟨ρ, .same hmay, rfl, hafter⟩

/-- **The work on a message ends** with a block of the chronicle, whatever it has come to. -/
theorem fulfils_finish (he : e.Sealed) (p : Progress)
    (ending : Ending (Option RunResult)) :
    Fulfils (workCharter e genuine) (Knows e n (Stage e genuine n m p ending))
      (finish e n m p ending) fun _ _ => (workCharter e genuine).holds := by
  rintro k Q ρ w ⟨hrole, hkept, hstage⟩ hk
  have hknows : Knows e n (· = w.docket.deeds) ρ w := ⟨hrole, hkept, rfl⟩
  generalize w.docket.deeds = ds at hstage hknows
  cases hstage with
  | unmatched h =>
    have havoids : (finish e n m {} ending).Avoids World.docket :=
      avoids_closed.bind (avoids_closed.ensuring (avoids_closed.settle m {} ending)
        (avoids_closed.pure ())) fun _ => avoids_closed.pure none
    have hrests : Rests e genuine n (fun _ => True) ρ w := hknows.imp fun _ heq => ⟨heq ▸ h, trivial⟩
    exact ((fulfils_rests havoids fun _ _ _ _ => trivial).of_post fun _ _ _ h => h.holds)
      k Q ρ w hrests hk
  | denied hbefore hmatched hr =>
    refine fulfils_finish_matched he ((fulfils_pure ()).of_pre fun _ _ h => ⟨rfl, h⟩)
      (fun result heq ds hds => ?_) (fun hnone => absurd rfl (hnone _)) k Q ρ w hknows hk
    cases heq
    subst hds
    exact .more (b := [_, _, _, _]) hbefore (.denied hmatched hr)
  | refused hbefore hmatched hr hending hres =>
    refine fulfils_finish_matched he (fulfils_release _ _) (fun result heq ds hds => ?_)
      (fun hnone => absurd hending (hnone _)) k Q ρ w hknows hk
    cases hending.symm.trans heq
    subst hds
    exact .more (b := [_, _, _, _, _]) hbefore (.refused hmatched hr hres)
  | @run _ _ r _ call _ h hrun hres =>
    obtain ⟨hlaunched, hunderway⟩ := hrun
    have hreturned : Chronicle e genuine (.released r :: ds) :=
      .more (b := [_]) h (.returned hlaunched)
    refine fulfils_finish_matched he (fulfils_release ds r) (fun result heq ds' hds => ?_)
      (fun _ ds' hds => hds ▸ hreturned) k Q ρ w hknows hk
    obtain ⟨result', hresult, hlanding⟩ := hres _ heq
    cases hresult
    subst hds
    exact .more (b := [_]) hreturned
      (.landed (hlaunched.append [_]) (hunderway.cons rfl) hlanding)

/-- **Handling a message** leaves a chronicle at each of its waits. -/
theorem fulfils_handle (he : e.Sealed) (hgenuine : e.Genuine genuine)
    (m : Message) :
    Fulfils (workCharter e genuine) (fun ρ w => ρ = .newcomer ∧ (workCharter e genuine).holds w)
      (handle e m) fun _ _ => (workCharter e genuine).holds := by
  refine fulfils_bind (fulfils_receive m) (fun taken k Q ρ w ⟨n, enabled, heq, hrests⟩ hk => ?_)
    fun _ _ _ ⟨_, _, heq, _⟩ => nomatch heq
  cases heq
  have hignored : ∀ {x : Action ω (Option Outcome)}, x.Avoids World.docket →
      (x k).Heeds (workCharter e genuine) ρ Q w := fun hx =>
    ((fulfils_rests hx (lasting_own _)).of_post fun _ _ _ h => h.holds) k Q ρ w hrests hk
  cases enabled with
  | false => exact hignored (avoids_closed.bind (avoids_closed.log rfl) fun _ => avoids_closed.pure none)
  | true =>
    simp only [Bool.not_true, Bool.false_eq_true, if_false]
    split
    · exact hignored (avoids_closed.pure none)
    · rename_i hhuman
      have hwork := fulfils_bounded (n := n)
        (fulfils_work he hgenuine (Bool.eq_false_iff.mpr hhuman))
        (e.config.messageDeadline none).toRat?
      exact fulfils_bind hwork (fun staged => fulfils_finish he staged.1 staged.2)
        (fun _ _ _ h => h.elim) k Q ρ w hrests hk

end

end ChatCommands.Engine
