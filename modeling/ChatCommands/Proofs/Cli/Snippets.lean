import ChatCommands.Cli.Desk
import ChatCommands.Proofs.Engine.Refusals
import ChatCommands.Proofs.Engine.SoloMessages

/-!
Snippets that the command line runs, and messages with the same code.

A snippet has a configuration, a review and slots of its own, and no deadline.  It is followed in the
same way as a message, and the two are compared.  Main statement: `snippet_alike`.
-/

namespace ChatCommands.Cli

open Concurrency Scheduler Act Engine

variable {ω : Type} {n : Nat} {env : ω} {E : ω → Prop} {aim : Nat → Scheduler (World ω) Product → Prop}
  {S S' : World ω → Scheduler (World ω) Product → Prop} {b : Conduct ω} {l : Language}
  {timeout : Binary64} {code message : Text} {c : ChatCommands.Command} {m : Message} {sigil : Option Text}
  {watch : ω → Rat}

/-! ### The limits and the review of a snippet -/

/-- The limits of a snippet are the default ones, but for its timeout and its only slot. -/
theorem snippetConfig_eq (timeout : Binary64) (hlow : Config.minTimeout.le timeout = true)
    (hhigh : timeout.le Config.maxTimeout = true) :
    snippetConfig timeout = .ok { timeout, maxConcurrent := 1 } := by
  have htimeout : Schema.numberIn (some Config.maxTimeout) (some Config.minTimeout) none
      (.real timeout) = .ok timeout := by
    simp [Schema.numberIn, Schema.number, Schema.Checked.andThen, Option.filter, hlow, hhigh]
  let ms := [(text "execution_timeout_seconds", Json.real timeout),
    (text "max_concurrent_executions", Json.int 1)]
  have hfield : Schema.defaulted ms "execution_timeout_seconds" ({} : Config).timeout
      (Schema.numberIn (some Config.maxTimeout) (some Config.minTimeout) none) = .ok timeout := by
    change ((Schema.numberIn _ _ _ (.real timeout)).under _ : Schema.Checked Binary64) = _
    rw [htimeout]
    rfl
  change (Config.ofMembers ms).orFault = _
  unfold Config.ofMembers
  simp only [hfield]
  rfl

theorem ofLabel?_name (l : Language) : Language.ofLabel? (text l.name) = some l := by
  cases l <;> rfl

/-- The review of a snippet comes to the verdict on a command with a label of the language. -/
theorem verdictOn_name {label : Text} (hl : Language.ofLabel? label = some l) (code : Text) :
    verdictOn (text l.name) code = verdictOn label code := by
  unfold verdictOn Reviewer.review
  rw [ofLabel?_name, hl]

/-! ### The run of a snippet -/

/-- A snippet that is run with nothing else to do. -/
def snippet (config : Config) (b : Conduct ω) (env : ω) (code : Text) (l : Language)
    (timeout : Binary64) (message : Text) : Scheduler (World ω) Product :=
  Scheduler.run { env, slots := ⟨config.maxConcurrent, []⟩ }
    (Act.toTask .result (runSnippet config (.ok (watched 0 b.runtimes)) code l timeout message))

/-- The call of the runtime for a snippet. -/
def snippetCall (l : Language) (code : Text) (timeout : Binary64) (message : Text) : RuntimeCall :=
  ⟨l, code, snippetBindings message, timeout⟩

theorem leads_runSnippet_accepted (hS : Footing S) (hS' : Footing S')
    (hv : (verdictOn (text l.name) code).ok = true) {r : Ending RunResult}
    (hmake : Leads 0 aim n (At S (Stand E [snippetCall l code timeout message] 0))
      (b l code timeout).make fun r' k => r' = r ∧
        At S' (Stand (fun _ => True) [snippetCall l code timeout message] 0) k) :
    Leads 0 aim n (At S (Stand E [] 1))
      (runSnippet { timeout, maxConcurrent := 1 } (.ok (watched 0 b.runtimes)) code l timeout message)
      fun r' k => r' = r ∧ At S' (Stand (fun _ => True) [snippetCall l code timeout message] 1) k := by
  unfold runSnippet
  have hexamine : ({ maxBytes := ({ timeout, maxConcurrent := 1 } : Config).maxCodeBytes } :
      Reviewer).examine (text l.name) code =
        (({} : Reviewer).records (text l.name) code, verdictOn (text l.name) code) := rfl
  rw [hexamine]
  refine (leads_logAll hS _).follow (l := n) ?_
  simp only [hv, if_true]
  have hset : Leads 0 aim 0 (At S (Stand E [] 1))
      (Act.ofExcept (.ok (watched 0 b.runtimes)) : Action ω (Runtimes ω)) fun r k =>
        r = .ok (watched 0 b.runtimes) ∧ At S (Stand E [] 1) k :=
    leads_pure fun k hk => ⟨rfl, hk⟩
  exact hset.follow (l := n) (leads_execute hS hS' (by decide) hmake)

theorem leads_runSnippet_refused (hS : Footing S) (hv : (verdictOn (text l.name) code).ok = false) :
    Leads 0 aim 0 (At S (Stand E [] 1))
      (runSnippet { timeout, maxConcurrent := 1 } (.ok (watched 0 b.runtimes)) code l timeout message)
      fun r k => r = .ok (refusedSnippet (verdictOn (text l.name) code)) ∧ At S (Stand E [] 1) k := by
  unfold runSnippet
  have hexamine : ({ maxBytes := ({ timeout, maxConcurrent := 1 } : Config).maxCodeBytes } :
      Reviewer).examine (text l.name) code =
        (({} : Reviewer).records (text l.name) code, verdictOn (text l.name) code) := rfl
  rw [hexamine]
  refine (leads_logAll hS _).follow (l := 0) ?_
  simp only [hv, Bool.false_eq_true, if_false]
  exact leads_pure fun k hk => ⟨rfl, hk⟩

/-! ### What a run has come to -/

/-- The result that a run has come to. -/
def resultOf (k : Scheduler (World ω) Product) : Option RunResult :=
  match k.statusOf 0 with
  | .ended (.ok (.result r)) => some r
  | .ended (.ok (.outcome o)) => o.map (·.result)
  | _ => none

/-- The calls of runtimes in a run, latest first. -/
def callsOf (k : Scheduler (World ω) Product) : List RuntimeCall :=
  k.shared.deeds.filterMap Deed.call?

theorem callsOf_eq {calls : List RuntimeCall} {free : Int} {w : World ω} (hw : Stand E calls free w)
    {k : Scheduler (World ω) Product} (hshared : k.shared = w) : callsOf k = calls := by
  rw [callsOf, hshared]
  exact hw.calls

/-- A run has come to this result, if any, and these are the calls of runtimes. -/
structure Came (result? : Option RunResult) (calls : List RuntimeCall)
    (k : Scheduler (World ω) Product) : Prop where
  result : resultOf k = result?
  calls : callsOf k = calls

/-- A snippet that the review refuses is not run. -/
theorem snippet_refused (hv : (verdictOn (text l.name) code).ok = false) :
    Came (some (refusedSnippet (verdictOn (text l.name) code))) []
      (snippet { timeout, maxConcurrent := 1 } b env code l timeout message) := by
  refine Leads.run (p := ⟨fun _ => False, False⟩) (n := 0) ?_ (by decide)
  refine (leads_runSnippet_refused (E := fun _ => True) alone_footing hv).weaken
    (fun k hk => ⟨_, ⟨trivial, rfl, rfl⟩, hk⟩) ?_
  rintro r k ⟨rfl, w, hw, hk⟩
  refine ⟨_, w, 0, hk, fun k' hstatus hshared => ⟨?_, callsOf_eq hw hshared⟩⟩
  rw [resultOf, hstatus]
  rfl

/-- What a call comes to that has a result and ends at all. -/
def callResult (b : Conduct ω) (env : ω) (l : Language) (code : Text) (timeout : Binary64) :
    Option RunResult :=
  ((b l code timeout).endsAt env 0).bind fun _ => ((b l code timeout).ending env).toOption

/-- A snippet whose call ends comes to what the call comes to. -/
theorem snippet_ended (hv : (verdictOn (text l.name) code).ok = true) {finished : Rat}
    (hends : (b l code timeout).endsAt env 0 = some finished) :
    Came ((b l code timeout).ending env).toOption [snippetCall l code timeout message]
      (snippet { timeout, maxConcurrent := 1 } b env code l timeout message) := by
  refine Leads.run (p := ⟨fun _ => False, False⟩) (n := 2) ?_ (by decide)
  refine (leads_runSnippet_accepted alone_footing alone_footing hv
    (leads_make (patient_reaches _) hends fun _ => False.elim)).weaken
      (fun k hk => ⟨_, ⟨rfl, rfl, rfl⟩, hk⟩) ?_
  rintro r k ⟨rfl, w, hw, hk⟩
  refine ⟨_, w, finished, hk, fun k' hstatus hshared => ⟨?_, callsOf_eq hw hshared⟩⟩
  rw [resultOf, hstatus]
  cases (b l code timeout).ending env <;> rfl

/-- A snippet whose call does not end comes to nothing. -/
theorem snippet_endless (hv : (verdictOn (text l.name) code).ok = true)
    (hends : (b l code timeout).endsAt env 0 = none) :
    Came none [snippetCall l code timeout message]
      (snippet { timeout, maxConcurrent := 1 } b env code l timeout message) := by
  let goal : Scheduler (World ω) Product → Prop := Came none [snippetCall l code timeout message]
  have hmake : Leads 0 (Reaches 0 goal) 0
      (At (fun w => Alone 0 ⟨fun _ => False, False⟩ w 0)
        (Stand (· = env) [snippetCall l code timeout message] 0))
      (b l code timeout).make fun _ _ => False := by
    refine leads_make_endless (fun _ => id) hends fun m k hk hpending hround => ?_
    refine reaches_idle hround ⟨?_, hk.calls⟩
    unfold resultOf
    cases hstatus : k.statusOf 0 with
    | pending | fired => rfl
    | ended r =>
      rw [hstatus] at hpending
      cases hpending
  have hnever : Leads 0 (Reaches 0 goal) 0
      (At (fun w => Alone 0 ⟨fun _ => False, False⟩ w 0)
        (Stand (· = env) [snippetCall l code timeout message] 0))
      (b l code timeout).make fun r k => r = .error .interrupted ∧
        At (fun w => Alone 0 ⟨fun _ => False, False⟩ w 0)
          (Stand (fun _ => True) [snippetCall l code timeout message] 0) k :=
    hmake.weaken (fun _ h => h) fun _ _ => False.elim
  change goal _
  refine Leads.run (p := ⟨fun _ => False, False⟩) (n := 0) ?_ (by decide)
  refine (leads_runSnippet_accepted alone_footing alone_footing hv hnever).weaken
    (fun k hk => ⟨_, ⟨rfl, rfl, rfl⟩, hk⟩) ?_
  rintro r k ⟨rfl, w, hw, hk⟩
  refine ⟨_, w, 0, hk, fun k' hstatus hshared => ⟨?_, callsOf_eq hw hshared⟩⟩
  rw [resultOf, hstatus]
  rfl

/-- **A snippet that passes the review** comes to the result of the call of the runtime. -/
theorem snippet_accepted (b : Conduct ω) (env : ω) (timeout : Binary64) (message : Text)
    (hv : (verdictOn (text l.name) code).ok = true) :
    Came (callResult b env l code timeout) [snippetCall l code timeout message]
      (snippet { timeout, maxConcurrent := 1 } b env code l timeout message) := by
  unfold callResult
  cases hends : (b l code timeout).endsAt env 0 with
  | some finished => exact snippet_ended hv hends
  | none => exact snippet_endless hv hends

theorem came_of_concluded {e : Setup ω} {r : RunResult} {calls : List RuntimeCall}
    {k : Scheduler (World ω) Product} (h : Concluded e c r calls k) : Came (some r) calls k := by
  refine ⟨?_, h.calls⟩
  rw [resultOf, h.outcome]
  rfl

/-! ### Comparison -/

/-- A run comes to a rejection. -/
def Rejects (k : Scheduler (World ω) Product) : Prop :=
  ∃ r, resultOf k = some r ∧ r.status = .securityRejected

/-- A run comes to a rejection, and no runtime was called. -/
def Refuses (k : Scheduler (World ω) Product) : Prop := callsOf k = [] ∧ Rejects k

/-- Two runs, `k` without a deadline and `k'` with one, do the same with the code that a runtime is
to be called with. -/
structure Alike (b : Conduct ω) (env : ω) (overdue : Rat → Prop) (l : Language) (code : Text)
    (timeout : Binary64) (k k' : Scheduler (World ω) Product) : Prop where
  /-- The code is refused in both or in none. -/
  refuses : Refuses k ↔ Refuses k'
  /-- As long as the runtime does not reject code by itself, the result alone tells. -/
  rejects : (∀ r, (b l code timeout).ending env = .ok r → r.status ≠ .securityRejected) →
    (Rejects k ↔ Rejects k')
  /-- Otherwise there is one call in each, and they differ in the bindings only. -/
  calls : ¬ Refuses k → ∃ bindings bindings', callsOf k = [⟨l, code, bindings, timeout⟩] ∧
    callsOf k' = [⟨l, code, bindings', timeout⟩]
  /-- And both come to the result of a call that ends before the deadline. -/
  inTime : ¬ Refuses k → ∀ finished r, (b l code timeout).endsAt env 0 = some finished →
    ¬ overdue finished → (b l code timeout).ending env = .ok r →
    resultOf k = some r ∧ resultOf k' = some r

variable {overdue : Rat → Prop} {k k' : Scheduler (World ω) Product}

/-- Two runs in which the code is refused. -/
theorem alike_refused {r r' : RunResult} (hk : Came (some r) [] k) (hk' : Came (some r') [] k')
    (hr : r.status = .securityRejected) (hr' : r'.status = .securityRejected) :
    Alike b env overdue l code timeout k k' := by
  have hrejects : Rejects k := ⟨r, hk.result, hr⟩
  have hrejects' : Rejects k' := ⟨r', hk'.result, hr'⟩
  have hrefuses : Refuses k := ⟨hk.calls, hrejects⟩
  exact ⟨iff_of_true hrefuses ⟨hk'.calls, hrejects'⟩, fun _ => iff_of_true hrejects hrejects',
    fun h => absurd hrefuses h, fun h => absurd hrefuses h⟩

/-- Two runs in which the runtime is called. -/
theorem alike_called {r' : RunResult} {bindings bindings' : Json}
    (hk : Came (callResult b env l code timeout) [⟨l, code, bindings, timeout⟩] k)
    (hk' : Came (some r') [⟨l, code, bindings', timeout⟩] k')
    (hstatus : r'.status = .securityRejected → (b l code timeout).ending env = .ok r')
    (hinTime : ∀ finished r, (b l code timeout).endsAt env 0 = some finished → ¬ overdue finished →
      (b l code timeout).ending env = .ok r → r' = r) :
    Alike b env overdue l code timeout k k' where
  refuses := by
    refine iff_of_false (fun h => ?_) fun h => ?_
    · exact List.cons_ne_nil _ _ (hk.calls.symm.trans h.1)
    · exact List.cons_ne_nil _ _ (hk'.calls.symm.trans h.1)
  rejects hb := by
    refine iff_of_false (fun ⟨r, hr, hrejected⟩ => ?_) fun ⟨r, hr, hrejected⟩ => ?_
    · obtain ⟨_, _, hending⟩ := Option.bind_eq_some_iff.mp (hk.result.symm.trans hr)
      refine hb r ?_ hrejected
      cases hx : (b l code timeout).ending env with
      | ok r₀ => 
        rw [hx] at hending
        exact congrArg Except.ok (Option.some.inj hending)
      | error f =>
        rw [hx] at hending
        cases hending
    · cases hk'.result.symm.trans hr
      exact hb r' (hstatus hrejected) hrejected
  calls _ := ⟨_, _, hk.calls, hk'.calls⟩
  inTime _ finished r hends hin hr := by
    refine ⟨hk.result.trans ?_, hk'.result.trans (congrArg some (hinTime finished r hends hin hr))⟩
    rw [callResult, hends, hr]
    rfl

/-- **A snippet is run in the way in which an engine runs it** that has the same timeout and one
command with the same code. -/
theorem snippet_alike (b : Conduct ω) (timeout : Binary64) (sigil : Option Text) (watch : ω → Rat)
    (env : ω) (message : Text)
    (hlow : Config.minTimeout.le timeout = true) (hhigh : timeout.le Config.maxTimeout = true)
    (hl : Language.ofLabel? c.language = some l) (hcool : c.cooldownMs = 0)
    (hbot : m.fromBot = false)
    (hfirst : matched? (serving timeout c sigil b watch) m [c] sigil = some c) :
    ∃ config, snippetConfig timeout = .ok config ∧
      Alike b env ((serving timeout c sigil b watch).Overdue 0) l c.code timeout
        (snippet config b env c.code l timeout message)
        (handled (serving timeout c sigil b watch) env m) := by
  refine ⟨_, snippetConfig_eq timeout hlow hhigh, ?_⟩
  have hsame := verdictOn_name hl c.code
  cases hv : (verdictOn c.language c.code).ok with
  | false =>
    have hrefused := handled_refused env hlow hhigh hbot hcool hfirst hv
    exact alike_refused (snippet_refused (hsame.symm ▸ hv)) (came_of_concluded hrefused) rfl rfl
  | true =>
    have hrun := snippet_accepted b env timeout message (hsame.symm ▸ hv)
    by_cases hlate : ∀ finished, (b l c.code timeout).endsAt env 0 = some finished →
        (serving timeout c sigil b watch).Overdue 0 finished
    · have hcut := came_of_concluded
        (handled_late env hlow hhigh hbot hcool hfirst hl hv hlate)
      exact alike_called hrun hcut nofun fun finished r hends hin => absurd (hlate finished hends) hin
    · obtain ⟨finished, hends, hin⟩ := not_forall₂.mp hlate
      have hsettles : ∀ r, settled (serving timeout c sigil b watch)
          ((((b l c.code timeout).ending env).mapError .fault).map some) = .ok (some r) →
            Came (some r) [callFor (serving timeout c sigil b watch) m c l]
              (handled (serving timeout c sigil b watch) env m) := fun r hr =>
        came_of_concluded (handled_inTime env hlow hhigh hbot hcool hfirst hl hv hends hin hr)
      cases hending : (b l c.code timeout).ending env with
      | ok r =>
        refine alike_called hrun (hsettles r (by rw [hending]; rfl)) (fun _ => hending) ?_
        intro _ r' _ _ hr
        rw [hending] at hr
        exact Except.ok.inj hr
      | error f =>
        refine alike_called hrun (hsettles _ (by rw [hending]; rfl)) (fun h => ?_) ?_
        · rcases failureResult_status (serving timeout c sigil b watch) f with hf | hf
          all_goals rw [hf] at h; cases h
        · intro _ r' _ _ hr
          rw [hending] at hr
          cases hr

/-- A command that answers a ping. -/
def pong : ChatCommands.Command where
  id := text "pong"
  tenant := text "tenant"
  trigger := text "ping"
  language := text " JS"
  code := text "reply('pong')"

/-- A message that fires the command. -/
def ping : Message where
  tenant := text "tenant"
  author := text "author"
  channel := text "channel"
  content := text "!Ping"

/-- What the command answers. -/
def ponged : RunResult := { status := .success, output := text "pong" }

/-- Runtimes that answer after a second. -/
def answering : Conduct Unit := fun _ _ _ =>
  { start := fun _ => (some 1, ()), finish := fun _ => (.ok ponged, ()) }

/-- An engine with the command. -/
def ponging : Setup Unit := serving (.ofInt 3) pong none answering fun _ => 0

/-- The code answers in time, to the command line and to the message. -/
theorem snippet_alike_pong : ∃ config, snippetConfig (.ofInt 3) = .ok config ∧
    resultOf (snippet config answering () pong.code .javascript (.ofInt 3) ping.content) =
      some ponged ∧ resultOf (handled ponging () ping) = some ponged := by
  obtain ⟨config, hconfig, halike⟩ := snippet_alike (c := pong) (m := ping) (l := .javascript)
    answering (.ofInt 3) none (fun _ => 0) () ping.content (by decide +kernel) (by decide +kernel) rfl
    rfl rfl (by decide +kernel)
  refine ⟨config, hconfig, halike.inTime (fun hrefuses => ?_) 1 ponged (by decide +kernel) ?_ rfl⟩
  · cases (snippetConfig_eq (.ofInt 3) (by decide +kernel) (by decide +kernel)).symm.trans hconfig
    have hrun := snippet_accepted (l := .javascript) answering () (.ofInt 3) ping.content
      (show (verdictOn _ pong.code).ok = true by decide +kernel)
    exact List.cons_ne_nil _ _ (hrun.calls.symm.trans hrefuses.1)
  · rintro ⟨d, hd, hdue⟩
    have hfive : (ponging.config.messageDeadline none).toRat? = some 5 := by decide +kernel
    cases hfive.symm.trans hd
    rcases hdue with h | h
    all_goals exact absurd h (by decide +kernel)

end ChatCommands.Cli
