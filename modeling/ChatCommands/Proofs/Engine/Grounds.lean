import ChatCommands.Proofs.Engine.Fires
import ChatCommands.Proofs.Engine.History
import ChatCommands.Proofs.Review.Verdict

/-!
Every run is justified.

A runtime is called for one message, and at most once for each.  What the call rests on is in the
history: the message was received while the engine was enabled, the registry was asked for its
tenant, the command is the first one that the message fires, and its run was granted, committed and
cleared before the call.
-/

namespace ChatCommands

/-! ### What matching rules out -/

/-- A command with roles is fired only by an author with one of them. -/
theorem Matching.fires_roles {cv : Convention} {roles : List Text} {channel content : Text}
    {c : Command} (h : fires cv roles channel content c = true) :
    c.roles = [] ∨ ∃ role ∈ roles, role ∈ c.roles := by
  simp only [fires, admits, Bool.and_eq_true, Bool.or_eq_true] at h
  refine h.2.1.imp List.isEmpty_iff.mp fun hany => ?_
  obtain ⟨role, hrole, hmem⟩ := List.any_eq_true.mp hany
  exact ⟨role, hrole, List.contains_iff_mem.mp hmem⟩

namespace Engine

open Concurrency Cooldown

variable {ω : Type} {e : Setup ω} {genuine : RunResult → Prop} {n : Nat} {m : Message} {c : Command}

/-- The message fires the command, with this prefix of its tenant. -/
def Fires (e : Setup ω) (sigil : Option Text) (m : Message) (c : Command) : Prop :=
  Matching.fires ⟨sigil, e.config.defaultSigil, e.config.caseInsensitive⟩ m.roles m.channel m.content
    c = true

/-- The command is the first of the list that the message fires. -/
def FiresFirst (e : Setup ω) (sigil : Option Text) (m : Message) (commands : List Command)
    (c : Command) : Prop :=
  Fires e sigil m c ∧ ∃ before after, commands = before ++ c :: after ∧
    ∀ c' ∈ before, ¬ Fires e sigil m c'

theorem matched?_eq_some {commands : List Command} {sigil : Option Text} :
    matched? e m commands sigil = some c ↔ FiresFirst e sigil m commands c := by
  unfold matched? Matching.first?
  rw [List.find?_eq_some_iff_append]
  simp [FiresFirst, Fires]

theorem runtimeLanguage?_eq_some {l : Language} (h : runtimeLanguage? e c = some l) :
    Language.ofLabel? c.language = some l ∧ ∃ run, e.runtimes.lookup l = some run := by
  obtain ⟨hlabel, hany⟩ := Option.filter_eq_some_iff.mp h
  refine ⟨hlabel, ?_⟩
  obtain ⟨⟨l', run⟩, hmem, heq⟩ := List.any_eq_true.mp hany
  obtain rfl : l' = l := by simpa using heq
  cases hlookup : e.runtimes.lookup l' with
  | some run => exact ⟨run, rfl⟩
  | none => exact absurd (List.lookup_eq_none_iff.mp hlookup _ hmem) (by simp)

/-! ### The grounds of a call -/

/-- What a call of a runtime may rest on. -/
structure Grounds where
  message : Message
  /-- What the registry has listed. -/
  commands : List Command
  sigil : Option Text
  command : Command
  /-- When the limiter was asked. -/
  now : Rat
  reservation : Reservation

/-- The call for the message with the number `n` rests on these grounds, after the deeds before
it. -/
structure Justified (e : Setup ω) (n : Nat) (call : RuntimeCall) (earlier : List Deed)
    (g : Grounds) : Prop where
  received : .received n g.message true ∈ earlier
  human : g.message.fromBot = false
  first : FiresFirst e g.sigil g.message g.commands g.command
  /-- The registry has listed, the limiter has granted, and the grant was committed. -/
  committed : [.committed g.reservation, .asked g.message g.command g.now (some g.reservation),
    .matched g.message g.command, .listed n g.message.tenant g.commands g.sigil] <:+: earlier
  key : g.reservation.key = cooldownKey g.message g.command
  accepted : ∃ records v, e.review g.command.language g.command.code = .ok (records, v) ∧ v.ok = true
  language : Language.ofLabel? g.command.language = some call.language
  registered : ∃ run, e.runtimes.lookup call.language = some run
  code : call.code = g.command.code
  bindings : call.bindings = (Request.of g.message g.command).bindings
  timeout : call.timeout = e.config.timeoutFor call.language

theorem Launched.justified {r : Reservation} {l : Language} {ds : List Deed}
    (h : Launched e n m c r l ds) : ∃ g, g.message = m ∧ Justified e n (callFor e m c l) ds g := by
  have hkey := h.key
  have hreceived := h.received
  cases h with
  | @intro later earlier commands sigil now h hr hc =>
    obtain ⟨hlabel, hregistered⟩ := runtimeLanguage?_eq_some hc.language
    refine ⟨⟨m, commands, sigil, c, now, r⟩, rfl, ⟨?_, h.human, matched?_eq_some.mp h.first, ?_, hkey,
      hc.review, hlabel, hregistered, rfl, rfl, rfl⟩⟩
    · exact hreceived
    · exact ⟨later ++ [.started m c (some r)], earlier, by simp⟩

/-- **Each call of a runtime is justified**, and it is the only one for its message.  This is how
things stand between any two turns of tasks, whatever messages are handled at the same time. -/
theorem runtime_calls_justified (he : e.Sealed) {k : Scheduler (World ω) Product} (hk : e.Run k)
    (jobs : Nat) {later earlier : List Deed} {call : RuntimeCall}
    (hdeeds : (k.amid jobs).shared.docket.deeds = later ++ .entered n call :: earlier) :
    (∀ call', .entered n call' ∉ later ∧ .entered n call' ∉ earlier) ∧
      ∃ g, Justified e n call earlier g ∧
        (∀ m enabled, .received n m enabled ∈ later ++ earlier → m = g.message ∧ enabled = true) ∧
        (g.command.roles = [] ∨ ∃ role ∈ g.message.roles, role ∈ g.command.roles) ∧
        ∀ r : Reviewer, (∀ label code, e.review label code = .ok (r.examine label code)) →
          ∀ rule ∈ r.catalog.rulesFor (some call.language),
            rule.pattern.occursIn call.code = false := by
  obtain ⟨-, hchronicle⟩ := hk.chronicle he genuine_any jobs
  rw [hdeeds] at hchronicle
  obtain ⟨hlater, m, hunderway⟩ := hchronicle.entered_once
  obtain ⟨m', c, r, l, hlaunched, hunderway', rfl⟩ := hchronicle.entry
  obtain ⟨g, rfl, hg⟩ := hlaunched.justified
  refine ⟨fun call' => ⟨hlater call', hunderway'.not_entered call'⟩, g, hg, fun m enabled hm => ?_,
    Matching.fires_roles hg.first.1, fun reviewer hreviewer rule hrule => ?_⟩
  · refine hchronicle.received_once (List.mem_append_right _ (List.mem_cons_of_mem _ hg.received)) ?_
    simp only [List.mem_append, List.mem_cons] at hm ⊢
    exact hm.imp_right .inr
  · obtain ⟨records, v, hreview, hok⟩ := hg.accepted
    rw [hreviewer] at hreview
    cases hreview
    rw [hg.code]
    exact Reviewer.review_ok hok (hg.language ▸ hrule)

theorem runtime_calls_justified_greetedTwice :
    ∃ later earlier call, (greetedTwice.amid 0).shared.docket.deeds =
      later ++ .entered 1 call :: earlier ∧ ∃ g, Justified greeter 1 call earlier g := by
  have hany : (greetedTwice.amid 0).shared.docket.deeds.any (entersFor 1) = true := by
    decide +kernel
  obtain ⟨d, hmem, hd⟩ := List.any_eq_true.mp hany
  cases d with
  | entered n call =>
    obtain rfl : n = 1 := by simpa [entersFor] using hd
    obtain ⟨later, earlier, hdeeds⟩ := List.append_of_mem hmem
    obtain ⟨-, g, hg, -⟩ :=
      runtime_calls_justified greeter_sealed greetedTwice_run 0 hdeeds
    exact ⟨later, earlier, call, hdeeds, g, hg⟩
  | received | listed | matched | asked | committed | released | started | concluded | pruned
  | recorded | answered => cases hd

end Engine

end ChatCommands
