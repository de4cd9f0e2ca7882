import ChatCommands.Proofs.Engine.Copies

/-!
What replies tell of what has happened inside of an engine.

Nothing but the status of a result, with the wait if the message came too early and the summary if the
script has failed.  So two engines that list the same commands up to their code tell a user the same
as soon as they come to the same status, whatever their reviews, their runtimes and their faults were.
Main statement: `replies_discreet`.
-/

namespace ChatCommands

/-- The command without its code. -/
def Command.codeless (c : Command) : Command := { c with code := [] }

namespace Engine

open Concurrency Act

variable {ω ω₁ ω₂ : Type}

/-! ### Commands up to their code -/

/-- What the registries have answered for two messages of a tenant is the same up to the code of the
commands. -/
def ListedAlike (tenant : Text) (n₁ : Nat) (ds₁ : List Deed) (n₂ : Nat) (ds₂ : List Deed) : Prop :=
  ∀ commands₁ sigil₁ commands₂ sigil₂, .listed n₁ tenant commands₁ sigil₁ ∈ ds₁ →
    .listed n₂ tenant commands₂ sigil₂ ∈ ds₂ →
      sigil₁ = sigil₂ ∧ commands₁.map Command.codeless = commands₂.map Command.codeless

/-- Two engines find the command of a message in the same way. -/
structure MatchAlike (c₁ c₂ : Config) : Prop where
  defaultSigil : c₁.defaultSigil = c₂.defaultSigil
  caseInsensitive : c₁.caseInsensitive = c₂.caseInsensitive

variable {e : Setup ω} {e₁ : Setup ω₁} {e₂ : Setup ω₂} {m : Message}

theorem matched?_codeless (e : Setup ω) (m : Message) (commands : List Command) (sigil : Option Text) :
    matched? e m (commands.map Command.codeless) sigil =
      (matched? e m commands sigil).map Command.codeless := by
  rw [matched?, Matching.first?, List.find?_map]
  rfl

theorem matched?_eq (h : MatchAlike e₁.config e₂.config) (commands : List Command)
    (sigil : Option Text) : matched? e₁ m commands sigil = matched? e₂ m commands sigil := by
  rw [matched?, matched?, h.defaultSigil, h.caseInsensitive]

theorem codeless_of_matched? (h : MatchAlike e₁.config e₂.config) {commands₁ commands₂ : List Command}
    {sigil : Option Text} (hlists : commands₁.map Command.codeless = commands₂.map Command.codeless)
    {c₁ c₂ : Command} (h₁ : matched? e₁ m commands₁ sigil = some c₁)
    (h₂ : matched? e₂ m commands₂ sigil = some c₂) : c₁.codeless = c₂.codeless := by
  have hsome : some c₁.codeless = some c₂.codeless := by
    calc some c₁.codeless = matched? e₁ m (commands₁.map Command.codeless) sigil := by
          rw [matched?_codeless, h₁, Option.map_some]
      _ = matched? e₂ m (commands₂.map Command.codeless) sigil := by rw [hlists, matched?_eq h]
      _ = some c₂.codeless := by rw [matched?_codeless, h₂, Option.map_some]
  exact Option.some.inj hsome

/-! ### What a reply depends on -/

/-- Two results about which a user is told the same: the other fields do not count. -/
inductive ToldAlike (limit₁ limit₂ : Int) (r₁ r₂ : RunResult) (retryAfterMs₁ retryAfterMs₂ : Int) :
    Prop
  | securityRejected (h₁ : r₁.status = .securityRejected) (h₂ : r₂.status = .securityRejected)
  | timeout (h₁ : r₁.status = .timeout) (h₂ : r₂.status = .timeout)
  | runtimeUnavailable (h₁ : r₁.status = .runtimeUnavailable) (h₂ : r₂.status = .runtimeUnavailable)
  | rateLimited (h₁ : r₁.status = .rateLimited) (h₂ : r₂.status = .rateLimited)
    (hwait : retryAfterMs₁ = retryAfterMs₂)
  | scriptError (h₁ : r₁.status = .scriptError) (h₂ : r₂.status = .scriptError)
    (hsummary : r₁.summary = r₂.summary) (hlimit : limit₁ = limit₂)

variable {limit limit₁ limit₂ retryAfterMs₁ retryAfterMs₂ : Int} {r₁ r₂ : RunResult}

theorem bound_ne_nil {t : Text} (ht : t ≠ []) (limit : Int) : Reply.bound limit t ≠ [] := by
  unfold Reply.bound
  split
  · exact ht
  · exact List.append_ne_nil_of_right_ne_nil _ (by decide)

/-- **The user is told something, and the same.** -/
theorem ToldAlike.reply (h : ToldAlike limit₁ limit₂ r₁ r₂ retryAfterMs₁ retryAfterMs₂) (label : Text) :
    ∃ content, content ≠ [] ∧ Reply.ofResult limit₁ label r₁ retryAfterMs₁ = some content ∧
      Reply.ofResult limit₂ label r₂ retryAfterMs₂ = some content := by
  cases h with
  | securityRejected h₁ h₂ | timeout h₁ h₂ =>
    simp only [Reply.ofResult, h₁, h₂]
    exact ⟨_, by decide, rfl, rfl⟩
  | runtimeUnavailable h₁ h₂ =>
    simp only [Reply.ofResult, h₁, h₂]
    exact ⟨_, List.append_ne_nil_of_right_ne_nil _ (by decide), rfl, rfl⟩
  | rateLimited h₁ h₂ hwait =>
    simp only [Reply.ofResult, h₁, h₂, hwait]
    exact ⟨_, List.append_ne_nil_of_right_ne_nil _ (by decide), rfl, rfl⟩
  | scriptError h₁ h₂ hsummary hlimit =>
    simp only [Reply.ofResult, h₁, h₂, hsummary, hlimit]
    refine ⟨_, bound_ne_nil (List.append_ne_nil_of_left_ne_nil ?_ _) _, rfl, rfl⟩
    decide

/-! ### What is owed to a message -/

/-- The engine has come to a result about the message with a number and owes this reply for it. -/
def Setup.Owes (e : Setup ω) (ds : List Deed) (n : Nat) (channel content : Text) : Prop :=
  ∃ m c r retryAfterMs, .concluded n m c r retryAfterMs ∈ ds ∧
    .reply channel content ∈ e.issues (.concluded n m c r retryAfterMs)

variable {genuine : RunResult → Prop} {ds : List Deed} {n : Nat} {c : Command} {r : RunResult}
  {retryAfterMs : Int} {channel content : Text}

theorem owes_of_issued (h : .reply channel content ∈ e.issued ds) :
    ∃ n, e.Owes ds n channel content := by
  obtain ⟨d, hd, hreply⟩ := List.mem_flatMap.mp h
  cases d with
  | concluded n m c r retryAfterMs => exact ⟨n, m, c, r, retryAfterMs, hd, hreply⟩
  | received | listed | matched | asked | committed | released | started | entered | pruned | recorded
  | answered => cases hreply

theorem owes_iff {content' : Text} (hconcluded : .concluded n m c r retryAfterMs ∈ ds)
    (honce : ∀ m' c' r' retryAfterMs', .concluded n m' c' r' retryAfterMs' ∈ ds →
      Deed.concluded n m' c' r' retryAfterMs' = .concluded n m c r retryAfterMs)
    (hreply : Reply.ofResult e.config.maxReplyChars c.language r retryAfterMs = some content)
    (hcontent : content ≠ []) :
    e.Owes ds n channel content' ↔ channel = m.channel ∧ content' = content := by
  have hissues : .reply channel content' ∈ e.issues (.concluded n m c r retryAfterMs) ↔
      channel = m.channel ∧ content' = content := by
    cases content with
    | nil => exact absurd rfl hcontent
    | cons x t => simp [Setup.issues, hreply, repliesTo]
  constructor
  · rintro ⟨m', c', r', retryAfterMs', hmem, howed⟩
    cases honce m' c' r' retryAfterMs' hmem
    exact hissues.mp howed
  · exact fun h => ⟨m, c, r, retryAfterMs, hconcluded, hissues.mpr h⟩

/-- A message has come to a result about the command that it fires, by what was listed for it. -/
theorem Chronicle.matched_of_concluded (h : Chronicle e genuine ds)
    (hmem : .concluded n m c r retryAfterMs ∈ ds) :
    ∃ commands sigil, .listed n m.tenant commands sigil ∈ ds ∧ matched? e m commands sigil = some c := by
  obtain ⟨later, earlier, rfl⟩ := List.append_of_mem hmem
  have hearlier : ∃ commands sigil, .listed n m.tenant commands sigil ∈ earlier ∧
      matched? e m commands sigil = some c := by
    cases h.conclusion with
    | denied _ hmatched _ => exact ⟨_, _, by simp, hmatched.first⟩
    | refused _ hmatched _ _ => exact ⟨_, _, by simp, hmatched.first⟩
    | landed _ hlaunched _ _ =>
      cases hlaunched with
      | intro hmatched _ _ => exact ⟨_, _, by simp, hmatched.first⟩
  obtain ⟨commands, sigil, hlisted, hfirst⟩ := hearlier
  exact ⟨commands, sigil, by simp [hlisted], hfirst⟩

theorem Chronicle.conclusion_unique (h : Chronicle e genuine ds) {m' : Message} {c' : Command}
    {r' : RunResult} {retryAfterMs' : Int} (hmem : .concluded n m c r retryAfterMs ∈ ds)
    (hmem' : .concluded n m' c' r' retryAfterMs' ∈ ds) :
    Deed.concluded n m' c' r' retryAfterMs' = .concluded n m c r retryAfterMs := by
  have hcourse := h.course n
  have hown := mem_ownDeeds.mpr ⟨hmem, (rfl : (Deed.concluded n m c r retryAfterMs).number? = some n)⟩
  have hown' := mem_ownDeeds.mpr
    ⟨hmem', (rfl : (Deed.concluded n m' c' r' retryAfterMs').number? = some n)⟩
  generalize ownDeeds n ds = own at hcourse hown hown'
  cases hcourse with
  | unknown => cases hown
  | received => simp at hown
  | underway call => cases call <;> simp at hown
  | concluded c₀ r₀ retryAfterMs₀ call commands sigil m₀ =>
    have hhead : Deed.concluded n m c r retryAfterMs = .concluded n m₀ c₀ r₀ retryAfterMs₀ := by
      cases call <;> simpa using hown
    have hhead' : Deed.concluded n m' c' r' retryAfterMs' = .concluded n m₀ c₀ r₀ retryAfterMs₀ := by
      cases call <;> simpa using hown'
    rw [hhead, hhead']

/-! ### Two engines -/

/-- A run of an engine whose sinks send what they are asked to, while everything else keeps out of its
work and of its post. -/
structure Setup.Posted (e : Setup ω) (p : Part ω Arrivals) (k : Scheduler (World ω) Product) : Prop where
  lawful : p.Lawful
  shielded : e.Sealed
  posts : e.Posts p
  run : e.PostRun p k

variable {p₁ : Part ω₁ Arrivals} {p₂ : Part ω₂ Arrivals} {k₁ : Scheduler (World ω₁) Product}
  {k₂ : Scheduler (World ω₂) Product}

/-- The history of an engine is a chronicle, and so is what is about its work. -/
theorem Setup.Posted.chronicle {p : Part ω Arrivals} {k : Scheduler (World ω) Product} (h : e.Posted p k)
    (jobs : Nat) : Chronicle e (fun _ => True) (k.amid jobs).shared.docket.deeds :=
  (h.run.run.chronicle h.shielded genuine_any jobs).2

theorem mem_docket {w : World ω} {d : Deed} (hwork : d.aboutWork = true) :
    d ∈ w.docket.deeds ↔ d ∈ w.deeds := by
  rw [World.docket, List.mem_filter]
  exact and_iff_left hwork

/-- **Only what is owed arrives.** -/
theorem Setup.Posted.owes_of_arrived {p : Part ω Arrivals} {k : Scheduler (World ω) Product}
    (h : e.Posted p k) (jobs : Nat)
    (harrived : .reply channel content ∈ (p.get (k.amid jobs).shared.env).copies) :
    ∃ n, e.Owes (k.amid jobs).shared.deeds n channel content := by
  have hholds : postTally.holds (postView e p (k.amid jobs).shared) 0 := by
    refine Tally.reachable ?_ ?_ h.run jobs
    · rintro w ⟨⟨-, -, hdeeds⟩, harrivals⟩ i
      simp [postView, hdeeds, harrivals]
    · exact fun t ht => ht.within Tally.keeps_closed (keeps_handle h.lawful h.posts) fun hx =>
        Tally.keeps_of_minds hx
  have hcopies := (hholds (.reply channel content)).2
  have hcount := List.count_pos_iff.mpr harrived
  refine owes_of_issued (List.count_pos_iff.mp ?_)
  simp only [postView, Multiset.count_zero, Nat.add_zero] at hcopies
  omega

/-- What is owed for a message, if one knows what is said about its result. -/
theorem Setup.Posted.owes_iff {p : Part ω Arrivals} {k : Scheduler (World ω) Product} (h : e.Posted p k)
    (jobs : Nat) (hconcluded : .concluded n m c r retryAfterMs ∈ (k.amid jobs).shared.deeds)
    {reply : Text}
    (hreply : Reply.ofResult e.config.maxReplyChars c.language r retryAfterMs = some reply)
    (hsome : reply ≠ []) :
    e.Owes (k.amid jobs).shared.deeds n channel content ↔ channel = m.channel ∧ content = reply := by
  refine Engine.owes_iff hconcluded (fun m' c' r' retryAfterMs' hmem => ?_) hreply hsome
  exact (h.chronicle jobs).conclusion_unique ((mem_docket rfl).mpr hconcluded)
    ((mem_docket rfl).mpr hmem)

/-- An engine with one command, the code of which does not matter. -/
def heedless (code : Text) (runtimes : Runtimes Arrivals) : Setup Arrivals where
  config := { caseInsensitive := false }
  registry := { commands := fun _ => pure [{ hello with code }], sigil := none }
  runtimes := runtimes
  review := fun _ _ => .ok ([], { ok := true })
  reply := some fun channel content => posting .whole (.reply channel content) (pure ())
  audit := none
  clock := fun _ => 0

/-- A runtime that fails. -/
def failingRuntimes (f : Fault) : Runtimes Arrivals := [(.python, fun _ _ _ => Act.throw f)]

/-- The engine after one greeting. -/
def greetedOnce (e : Setup Arrivals) : Scheduler (World Arrivals) Product :=
  let new : Scheduler (World Arrivals) Product := { shared := { env := {} } }
  (new.addTask false (toTask .outcome (handle e greeting))).2.rounds 9

section Heedless

variable (code : Text) {runtimes : Runtimes Arrivals} (hruntimes : ∀ l run, (l, run) ∈ runtimes →
  ∃ f, run = fun _ _ _ => Act.throw f)

include hruntimes

theorem heedless_sealed : (heedless code runtimes).Sealed where
  commands _ := avoids_closed.pure _
  sigil := nofun
  runtimes l run hrun code bindings timeout := by
    obtain ⟨f, rfl⟩ := hruntimes l run hrun
    exact avoids_closed.throw f
  reply send hsend channel content := by
    cases hsend
    refine avoids_closed.bind (avoids_closed.change fun _ => rfl) fun _ =>
      avoids_closed.bind (avoids_closed.attempt (avoids_closed.pure ())) fun r => ?_
    cases r with
    | ok a => exact avoids_closed.ofEnding _
    | error f =>
      exact avoids_closed.bind (avoids_closed.change fun _ => rfl) fun _ => avoids_closed.ofEnding _
  audit := nofun

theorem heedless_posts : (heedless code runtimes).Posts .whole where
  reply send hsend channel content := by
    cases hsend
    exact .now (aside_closed.pure ())
  append := nofun
  trim := nofun
  commands _ := aside_closed.pure _
  sigil := nofun
  runtimes l run hrun code bindings timeout := by
    obtain ⟨f, rfl⟩ := hruntimes l run hrun
    exact aside_closed.throw f

theorem heedless_posted :
    (heedless code runtimes).Posted .whole (greetedOnce (heedless code runtimes)) where
  lawful _ _ := rfl
  shielded := heedless_sealed code hruntimes
  posts := heedless_posts code hruntimes
  run := by
    have hnew : (heedless code runtimes).PostRun .whole { shared := { env := {} } } :=
      .start ⟨⟨rfl, rfl, rfl⟩, rfl⟩
    exact (hnew.arrive (.handle .outcome greeting)).rounds 9

end Heedless

/-- The greeting has come to the result that the runtime is unavailable. -/
def unavailable : Deed → Bool
  | .concluded n m _ r _ => n == 0 && m == greeting && r.status == .runtimeUnavailable
  | _ => false

/-- Only the greeter's command is listed, and no prefix. -/
def listsHello : Deed → Bool
  | .listed _ _ commands sigil => commands.map Command.codeless == [hello.codeless] && sigil == none
  | _ => true

theorem exists_unavailable (h : ds.any unavailable = true) :
    ∃ c r retryAfterMs, .concluded 0 greeting c r retryAfterMs ∈ ds ∧ r.status = .runtimeUnavailable := by
  obtain ⟨d, hd, hunavailable⟩ := List.any_eq_true.mp h
  cases d with
  | concluded n m c r retryAfterMs =>
    simp only [unavailable, Bool.and_eq_true, beq_iff_eq] at hunavailable
    obtain ⟨⟨rfl, rfl⟩, hstatus⟩ := hunavailable
    exact ⟨c, r, retryAfterMs, hd, hstatus⟩
  | received | listed | matched | asked | committed | released | started | entered | pruned | recorded
  | answered => cases hunavailable

theorem listedAlike_of_listsHello {ds₁ ds₂ : List Deed} (h₁ : ds₁.all listsHello = true)
    (h₂ : ds₂.all listsHello = true) (tenant : Text) (n₁ n₂ : Nat) :
    ListedAlike tenant n₁ ds₁ n₂ ds₂ := by
  intro commands₁ sigil₁ commands₂ sigil₂ hlisted₁ hlisted₂
  have hhello₁ := List.all_eq_true.mp h₁ _ hlisted₁
  have hhello₂ := List.all_eq_true.mp h₂ _ hlisted₂
  simp only [listsHello, Bool.and_eq_true, beq_iff_eq] at hhello₁ hhello₂
  exact ⟨hhello₁.2.trans hhello₂.2.symm, hhello₁.1.trans hhello₂.1.symm⟩

end Engine

end ChatCommands
