import ChatCommands.Proofs.Engine.Grounds
import ChatCommands.Proofs.Engine.Origins
import ChatCommands.Proofs.Sandbox.Supervision

/-!
Results are attributed to what has happened.

Whatever a message comes to, its settlement follows at once: nothing waits between the report of a
runtime, or the end of a deadline, and the settlement, so that no other message comes in between.
A deadline that has ended a run is known to have been up, and every other fault is one of the review or
one that a runtime has reported.
-/

namespace ChatCommands.Engine

open Concurrency Act Semaphore.Place

variable {ω α β : Type} {e : Setup ω} {p : Part ω (List Report)} {record? : Option LogRecord}
  {report? : Option Report}

/-- The computation keeps all settlements, records and reports attributed. -/
abbrev Attributes (e : Setup ω) (p : Part ω (List Report)) (x : Action ω α) : Prop :=
  Steady (attribution e p none none) x

/-- All is attributed at a moment that is not before `m₀`, but for a record and a report that are ahead
of their settlement. -/
abbrev Ahead (e : Setup ω) (p : Part ω (List Report)) (record? : Option LogRecord)
    (report? : Option Report) (m₀ : Moment (World ω)) : Moment (World ω) → Prop :=
  Since (attribution e p record? report?) m₀

/-- All is attributed, at a moment that is not before `m₀`. -/
abbrev After (e : Setup ω) (p : Part ω (List Report)) (m₀ : Moment (World ω)) :
    Moment (World ω) → Prop :=
  Ahead e p none none m₀

theorem attributes_closed : Closed (World.upshot p) (Attributes e p) :=
  steady_closed about_attribution

theorem ahead_bind {m₀ : Moment (World ω)} {x : Action ω α} {f : α → Action ω β}
    {post : Ending β → Moment (World ω) → Prop}
    (hx : Brisk (attribution e p none none) (World.upshot p) x)
    (hf : ∀ a, Achieves (attribution e p none none) (Ahead e p record? report? m₀) (f a) post) :
    Achieves (attribution e p none none) (Ahead e p record? report? m₀) (x >>= f) post := by
  have hcount : (attribution e p record? report?).count = (attribution e p none none).count := rfl
  exact hx.achieves_bind about_attribution hcount hf

/-! ### What is over at once -/

section

variable {R : Timetable (World ω)}

theorem brisk_anyLive (ws : List Nat) : Brisk R (World.upshot p) (anyLive ws : Action ω Bool) := by
  induction ws with
  | nil => exact brisk_pure false
  | cons w ws ih =>
    refine (brisk_call (.status w) rfl).bind fun status => ?_
    split
    · exact ih
    · exact brisk_pure true

theorem brisk_firstPending (ws : List Nat) :
    Brisk R (World.upshot p) (firstPending ws : Action ω (Option Nat)) := by
  induction ws with
  | nil => exact brisk_pure none
  | cons w ws ih =>
    refine (brisk_call (.status w) rfl).bind fun status => ?_
    split
    · exact ih
    · exact brisk_pure (some w)

theorem brisk_modifySlots (f : Semaphore → Semaphore) :
    Brisk R (World.upshot p) (slotPlace.modify f : Action ω Unit) :=
  brisk_change fun _ => rfl

theorem brisk_wakeNext : Brisk R (World.upshot p) (slotPlace.wakeNext : Action ω Unit) := by
  refine (brisk_gets _).bind fun ws => (brisk_firstPending ws).bind fun first => ?_
  cases first with
  | none => exact brisk_pure ()
  | some w => exact (brisk_modifySlots _).bind fun _ => brisk_call (.fire w) rfl

theorem brisk_releaseSlot : Brisk R (World.upshot p) (slotPlace.release : Action ω Unit) :=
  (brisk_modifySlots _).bind fun _ => brisk_wakeNext

theorem brisk_changeActive (f : Nat → Nat) :
    Brisk R (World.upshot p) (changeActive f : Action ω Unit) :=
  brisk_change fun _ => rfl

theorem brisk_note (d : Deed) (hd : d.settlement? = none) :
    Brisk R (World.upshot p) (Action.note d : Action ω Unit) := by
  refine brisk_change fun w => ?_
  have hsame : w.settlements = (d :: w.deeds).filterMap Deed.settlement? :=
    (List.filterMap_cons_none hd).symm
  rw [World.upshot, hsame]
  rfl

theorem brisk_logAll (records : List LogRecord) (hr : ∀ r ∈ records, r.isFailure = false) :
    Brisk R (World.upshot p) (Action.logAll records : Action ω Unit) := by
  refine brisk_change fun w => ?_
  have hnone : records.reverse.filter LogRecord.isFailure = [] := by simpa using hr
  have hsame : w.failures = (records.reverse ++ w.journal).filter LogRecord.isFailure := by
    rw [List.filter_append, hnone, List.nil_append]
    rfl
  rw [World.upshot, hsame]
  rfl

theorem brisk_log {level : Level} {component : Component} {message : Text}
    {context : List (String × Json)}
    (hr : LogRecord.isFailure ⟨level, component, message, context⟩ = false) :
    Brisk R (World.upshot p) (Action.log level component message context : Action ω Unit) :=
  brisk_logAll [⟨level, component, message, context⟩] (by simpa using hr)

end

section

variable {m₀ m₁ : Moment (World ω)}

theorem Ahead.trans (h : After e p m₀ m₁) {m : Moment (World ω)}
    (h' : Ahead e p record? report? m₁ m) : Ahead e p record? report? m₀ m :=
  ⟨h'.1, h.2.trans h'.2⟩

/-- After the wait, whoever has been given a slot takes it, or returns it if it was interrupted. -/
theorem achieves_afterWait (w : Nat) (r : Ending Unit) : Faultless r →
    Achieves (attribution e p none none) (After e p m₀) (match r with
      | .ok () => do
        if 0 < (← Act.gets slotPlace.get).free then slotPlace.wakeNext
      | .error e => do
        if !(← Act.call (.status w)).isInterrupted then slotPlace.release
        Act.fail e : Action ω Unit) fun r' m => Faultless r' ∧ After e p m₀ m := by
  intro hr
  have hok : ∀ {x : Action ω Unit}, Brisk (attribution e p none none) (World.upshot p) x →
      Achieves (attribution e p none none) (After e p m₀) x
        fun r' m => Faultless r' ∧ After e p m₀ m := by
    refine fun hx => (hx _ m₀ rfl about_attribution).of_post ?_
    rintro _ _ ⟨⟨_, rfl⟩, h⟩
    exact ⟨nofun, h⟩
  match r with
  | .ok () =>
    refine ahead_bind (brisk_gets _) fun s => ?_
    split
    · exact hok brisk_wakeNext
    · exact hok (brisk_pure ())
  | .error (.fault f) => exact absurd rfl (hr f)
  | .error .interrupted =>
    have hend : Achieves (attribution e p none none) (After e p m₀)
        (Act.fail .interrupted : Action ω Unit) fun r' m => Faultless r' ∧ After e p m₀ m :=
      (achieves_ofEnding _).of_pre fun _ h => ⟨nofun, h⟩
    refine ahead_bind (brisk_call (.status w) rfl) fun status => ?_
    split
    · exact ahead_bind brisk_releaseSlot fun _ => hend
    · exact hend

/-- **The wait for a slot** ends in no fault. -/
theorem achieves_acquire : Achieves (attribution e p none none) (After e p m₀)
    (slotPlace.acquire : Action ω Unit) fun r m => Faultless r ∧ After e p m₀ m := by
  refine ahead_bind (brisk_gets _) fun s => ahead_bind (brisk_anyLive s.waiting) fun live => ?_
  split
  · rintro k Q m ⟨hm, hlater⟩ hk
    -- nobody else ends the new signal in a fault
    refine ⟨trivial, True, ?_⟩
    rintro _ _ ⟨rfl, rfl⟩
    let m₁ := m.cell True
    have hfirm : m₁.firm m.size := by
      change Function.update m.firm m.size True m.size
      rw [Function.update_self]
      trivial
    have hm₁ : After e p m₀ m₁ :=
      ⟨(attribution e p none none).lasts hm (m.later_cell True) rfl rfl,
        hlater.trans (m.later_cell True)⟩
    have hwait := achieves_wait_firm (ν := Product) (R := attribution e p none none)
      (Nat.lt_succ_self _) hfirm
    have hrest : Achieves (attribution e p none none) (After e p m₁) (do
        slotPlace.modify fun s => { s with waiting := s.waiting ++ [m.size] }
        let r ← Act.attempt (Act.wait (.cell m.size))
        slotPlace.modify fun s => { s with waiting := s.waiting.erase m.size }
        match r with
        | .ok () =>
          if 0 < (← Act.gets slotPlace.get).free then slotPlace.wakeNext
        | .error e =>
          if !(← Act.call (.status m.size)).isInterrupted then slotPlace.release
          Act.fail e : Action ω Unit) fun r m => Faultless r ∧ After e p m₁ m := by
      refine ahead_bind (brisk_modifySlots _) fun _ =>
        achieves_attempt_bind hwait fun r => achieves_of_fact fun hr => ?_
      exact ahead_bind (brisk_modifySlots _) fun _ => achieves_afterWait m.size r hr
    exact hrest k Q m₁ ⟨hm₁.1, .refl _⟩ fun r m' ⟨hr, hm'⟩ => hk r m' ⟨hr, Ahead.trans hm₁ hm'⟩
  · refine (brisk_modifySlots _ _ m₀ rfl about_attribution).of_post ?_
    rintro _ _ ⟨⟨_, rfl⟩, h⟩
    exact ⟨nofun, h⟩

/-- **A run with a slot** reports what it does by itself, if it is not interrupted while it waits for the
slot. -/
theorem achieves_withSlot {reports : Ending RunResult → Option Report}
    (hcut : reports (.error .interrupted) = none) {run : Action ω RunResult}
    (hrun : Achieves (attribution e p none none) (After e p m₀) run
      fun r => Ahead e p none (reports r) m₀) :
    Achieves (attribution e p none none) (After e p m₀) (withSlot run)
      fun r => Ahead e p none (reports r) m₀ := by
  refine achieves_bind achieves_acquire (fun _ => achieves_of_fact fun _ => ?_) fun f m h => ?_
  · -- nothing waits from the end of the run on, so its report stays ahead
    refine ahead_bind (brisk_changeActive _) fun _ =>
      achieves_attempt_bind hrun fun r => ahead_bind (brisk_changeActive _) fun _ =>
        ahead_bind brisk_releaseSlot fun _ => ?_
    exact fun _ _ m h hk => hk r m h
  · cases f with
    | fault f => exact absurd rfl (h.1 f)
    | interrupted =>
      rw [hcut]
      exact h.2

end

/-! ### What is ahead of a settlement -/

section

variable {m₀ x : Moment (World ω)} {w : World ω}

/-- A change of the shared state while no message is taken in. -/
theorem Ahead.put {record?' : Option LogRecord} {report?' : Option Report}
    (h : Ahead e p record? report? m₀ x) (hmessages : x.shared.messages = w.messages)
    (hw : ∀ fs rs, x.shared.failures = record?.toList ++ fs →
      p.get x.shared.env = report?.toList ++ rs →
      Attributed (Traced e x) x.shared.settlements fs rs →
      ∃ fs rs, w.failures = record?'.toList ++ fs ∧ p.get w.env = report?'.toList ++ rs ∧
        Attributed (Traced e x) w.settlements fs rs) :
    Ahead e p record?' report?' m₀ ((attribution e p none none).put x w) := by
  have hlater := Timetable.later_put (R := attribution e p none none) x w
  rw [Timetable.put_of_count_eq (R := attribution e p none none) hmessages] at hlater ⊢
  obtain ⟨⟨hcount, fs, rs, hfs, hrs, hattributed⟩, hl⟩ := h
  exact ⟨⟨hcount.trans hmessages, hw fs rs hfs hrs hattributed⟩, hl.trans hlater⟩

/-- **A runtime reports** how a call has ended. -/
theorem achieves_report (hp : p.Lawful) {call : RuntimeCall} {run : Action ω RunResult}
    (hrun : Attributes e p run) : Achieves (attribution e p none none) (After e p m₀)
      (reportingCall p call run) fun r => Ahead e p none (reported call r) m₀ := by
  refine achieves_attempt_bind (hrun m₀) fun r => achieves_change_bind (fun x h => ?_)
    fun _ => achieves_ofEnding r
  exact Ahead.put h rfl fun fs rs hfs hrs hattributed => ⟨fs, rs, hfs, by rw [hp, hrs]; rfl, hattributed⟩

end

/-! ### The run -/

/-- What keeps to its own business around an engine: it leaves the upshot alone and settles no signals
but its own. -/
abbrev Minding (p : Part ω (List Report)) (x : Action ω α) : Prop :=
  x.Minds (World.upshot p) fun _ => False

/-- The runtimes of an engine report how their calls end; its other collaborators mind their own
business, and the review writes no records that work has failed. -/
structure Setup.Reporting (e : Setup ω) (p : Part ω (List Report)) : Prop where
  runtimes : ∃ rs : Runtimes ω, rs.Within (Minding p) ∧ e.runtimes = reporting p rs
  commands : ∀ tenant, Minding p (e.registry.commands tenant)
  sigil : ∀ ask, e.registry.sigil = some ask → ∀ tenant, Minding p (ask tenant)
  reply : ∀ send, e.reply = some send → ∀ channel content, Minding p (send channel content)
  audit : ∀ sink, e.audit = some sink → sink.Within (Minding p)
  review : ∀ label code records v, e.review label code = .ok (records, v) →
    ∀ r ∈ records, r.isFailure = false

section

variable {m₀ : Moment (World ω)} {n : Nat} {m : Message} {c : Command} {l : Language}

/-- **A run** of a command reports how it ends, unless it is interrupted. -/
theorem achieves_run (hp : p.Lawful) (he : e.Reporting p) (hc : Cleared e c l) :
    Achieves (attribution e p none none) (After e p m₀) (run e n m c l)
      fun r => Ahead e p none (reported (callFor e m c l) r) m₀ := by
  obtain ⟨-, runner, hrunner⟩ := runtimeLanguage?_eq_some hc.language
  obtain ⟨rs, hminding, hruntimes⟩ := he.runtimes
  rw [hruntimes] at hrunner
  have hreporting := Runtimes.lookup_map (fun l run code bindings timeout =>
    reportingCall p ⟨l, code, bindings, timeout⟩ (run code bindings timeout)) rs l
  obtain ⟨inner, hinner, rfl⟩ := Option.map_eq_some_iff.mp (hreporting.symm.trans hrunner)
  have hwatched := Runtimes.lookup_map (fun l run code bindings timeout => do
    Action.note (.entered n ⟨l, code, bindings, timeout⟩)
    run code bindings timeout) (reporting p rs) l
  rw [hrunner] at hwatched
  unfold run execute
  rw [hruntimes, watched, hwatched]
  refine achieves_withSlot rfl (ahead_bind (brisk_note _ rfl) fun _ => ?_)
  exact achieves_report hp
    ((hminding l inner (Runtimes.mem_of_lookup hinner) _ _ _).steady about_attribution)

end

/-! ### The work up to the end of the run -/


/-- What a stage of the work on a message comes to, as far as its result and its report go. -/
inductive Attained (e : Setup ω) (late : Prop) (m : Message) :
    Progress → Ending (Option RunResult) → Option Report → Prop
  | unmatched {q : Progress} {ending : Ending (Option RunResult)} (hq : q.command = none)
    (h : ∀ f, ending = .error (.fault f) → f.kind = .timeout) : Attained e late m q ending none
  | cut {q : Progress} (h : ∀ c, q.command = some c → ∃ l, Cleared e c l) :
    Attained e late m q (.error .interrupted) none
  | result {q : Progress} {c : Command} {result : RunResult} {report? : Option Report}
    (hq : q.command = some c) (h : Origin e late m c result none report?) :
    Attained e late m q (.ok (some result)) report?
  | fault {q : Progress} {c : Command} {f : Fault} {report? : Option Report}
    (hq : q.command = some c)
    (h : Origin e late m c (failureResult e f) (unexpected? f) report?) :
    Attained e late m q (.error (.fault f)) report?

section

variable {m₀ : Moment (World ω)} {n : Nat} {m : Message} {c : Command}

/-- The computation is a stage of the work on a message. -/
abbrev Attains (e : Setup ω) (p : Part ω (List Report)) (m₀ : Moment (World ω)) (m : Message)
    (x : Action ω Staged) : Prop :=
  Achieves (attribution e p none none) (After e p m₀) x fun r x =>
    ∃ q ending report?, r = .ok (q, ending) ∧ Attained e False m q ending report? ∧
      Ahead e p none report? m₀ x

theorem attains_pure {q : Progress} {ending : Ending (Option RunResult)}
    (h : Attained e False m q ending none) : Attains e p m₀ m (pure (q, ending)) :=
  (achieves_ofEnding _).of_pre fun _ hx => ⟨q, ending, none, rfl, h, hx⟩

theorem attains_start (hp : p.Lawful) (he : e.Reporting p)
    (hreview : ∃ records v, e.review c.language c.code = .ok (records, v) ∧ v.ok = true)
    (r : Option Cooldown.Reservation) : Attains e p m₀ m (start e n m c r) := by
  unfold start
  split
  · rename_i hlanguage
    exact ahead_bind (brisk_log rfl) fun _ => attains_pure (.result rfl (.unsupported hreview hlanguage))
  · rename_i l hlanguage
    have hc : Cleared e c l := ⟨hreview, hlanguage⟩
    have hrun : Attains e p m₀ m (do
        Action.note (.started m c r)
        let ending ← Act.attempt (run e n m c l)
        pure (⟨some c, r, 0⟩, ending.map some)) := by
      refine ahead_bind (brisk_note _ rfl) fun _ => achieves_attempt_bind
        (achieves_run hp he hc) fun ending => (achieves_ofEnding _).of_pre fun _ h => ⟨_, _, _, rfl, ?_, h⟩
      match ending with
      | .ok result => exact .result rfl (.returned hc result)
      | .error .interrupted => exact .cut fun _ h => Option.some.inj h ▸ ⟨l, hc⟩
      | .error (.fault f) => exact .fault rfl (.raised hc f)
    cases r with
    | none => exact hrun
    | some r => exact ahead_bind (brisk_change fun _ => rfl) fun _ => hrun

theorem attains_reviewThen (hp : p.Lawful) (he : e.Reporting p) (r : Option Cooldown.Reservation) :
    Attains e p m₀ m (reviewThen e n m c r) := by
  unfold reviewThen
  split
  · rename_i f hreview
    exact attains_pure (.fault rfl (.unreviewed hreview))
  · rename_i records v hreview
    refine ahead_bind (brisk_logAll records (he.review _ _ _ _ hreview)) fun _ => ?_
    split
    · rename_i hok
      exact attains_start hp he ⟨records, v, hreview, hok⟩ r
    · rename_i hok
      exact ahead_bind (brisk_log rfl) fun _ =>
        attains_pure (.result rfl (.rejected hreview (Bool.eq_false_iff.mpr hok)))

theorem attains_requestRun (hp : p.Lawful) (he : e.Reporting p) :
    Attains e p m₀ m (requestRun e n m c) := by
  refine ahead_bind (brisk_change fun _ => rfl) fun (d, r) => ?_
  simp only []
  split
  · exact attains_reviewThen hp he r
  · exact ahead_bind (brisk_log rfl) fun _ => attains_pure (.result rfl (.denied d))

/-- A registry that does not answer is no fault of the work. -/
theorem endsIn_readRegistry (tenant : Text) : EndsIn Faultless (readRegistry e n tenant) := by
  unfold readRegistry
  rw [recover_eq]
  refine (succeeds_attempt _).bind fun r => ?_
  match r with
  | .ok a => exact endsIn_ofEnding nofun
  | .error .interrupted => exact endsIn_ofEnding nofun
  | .error (.fault f) => exact Succeeds.faultless ((succeeds_change _).bind fun _ => succeeds_pure _)

theorem attributes_readRegistry (he : e.Reporting p) (tenant : Text) :
    Attributes e p (readRegistry e n tenant) := by
  have hnote : ∀ commands sigil, Attributes e p (do
      Action.note (.listed n tenant commands sigil); pure (commands, sigil) : Action ω _) :=
    fun _ _ => attributes_closed.bind (attributes_closed.modify fun _ => rfl) fun _ =>
      attributes_closed.pure _
  refine attributes_closed.recover (attributes_closed.within (attributes_closed.bind
    ((he.commands tenant).steady about_attribution) fun commands => ?_) _) fun f =>
      attributes_closed.bind (attributes_closed.log rfl) fun _ => attributes_closed.pure _
  split
  · rename_i ask hask
    exact attributes_closed.bind ((he.sigil ask hask tenant).steady about_attribution)
      fun _ => hnote _ _
  · exact attributes_closed.bind (attributes_closed.pure none) fun _ => hnote _ _

/-- **The work on a message** attains a result, or ends in a fault of its review or its run. -/
theorem attains_work (hp : p.Lawful) (he : e.Reporting p) : Attains e p m₀ m (work e n m) := by
  refine achieves_attempt_bind ((endsIn_readRegistry m.tenant).achieves (nofun : Faultless (.ok ([], none)))
    (attributes_readRegistry he m.tenant m₀)) fun answer => achieves_of_fact fun hanswer => ?_
  match answer with
  | .error f => exact attains_pure (.unmatched rfl fun g hg => by cases hg; exact absurd rfl (hanswer g))
  | .ok (commands, sigil) =>
    simp only []
    split
    · exact attains_pure (.unmatched rfl nofun)
    · exact ahead_bind (brisk_note _ rfl) fun _ => attains_requestRun hp he

/-! ### The deadline -/

variable {late late' : Prop} {q : Progress} {ending : Ending (Option RunResult)}

theorem Attained.mono (h : Attained e late m q ending report?) (hl : late → late') :
    Attained e late' m q ending report? := by
  cases h with
  | unmatched hq h => exact .unmatched hq h
  | cut h => exact .cut h
  | result hq h => exact .result hq (h.mono hl)
  | fault hq h => exact .fault hq (h.mono hl)

/-- A stage that was interrupted because the deadline was up. -/
theorem Attained.expired (h : Attained e False m q (.error .interrupted) report?) (hlate : late) :
    Attained e late m q (.error (.fault (.of .timeout []))) report? := by
  have htimeout : ∀ f, (.error (.fault (.of .timeout [])) : Ending (Option RunResult)) =
      .error (.fault f) → f.kind = .timeout := by
    intro f hf
    cases hf
    rfl
  cases h with
  | unmatched hq => exact .unmatched hq htimeout
  | cut h =>
    cases hq : q.command with
    | none => exact .unmatched hq htimeout
    | some c =>
      obtain ⟨l, hc⟩ := h c hq
      exact .fault hq (.expired hc hlate)

/-- **A stage under the deadline** of a message that has come in at the moment `m₀`. -/
theorem achieves_bounded {stage : Action ω Staged} (hstage : ∀ m₁, Attains e p m₁ m stage)
    (hm₀ : (attribution e p none none).holds m₀) : Achieves (attribution e p none none) (· = m₀)
      (bounded (e.config.messageDeadline none).toRat? stage) fun r x =>
        ∃ q ending report?, r = .ok (q, ending) ∧
          Attained e (e.Overdue m₀.clock x.clock) m q ending report? ∧
            Ahead e p none report? m₀ x := by
  cases hd : (e.config.messageDeadline none).toRat? with
  | none =>
    refine (hstage m₀).weaken ?_ ?_
    · rintro _ rfl
      exact ⟨hm₀, .refl _⟩
    · rintro r x ⟨q, ending, report?, rfl, h, hx⟩
      exact ⟨q, ending, report?, rfl, h.mono False.elim, hx⟩
  | some d =>
    let m₁ := m₀.alarm d
    have hdue : m₁.dues[m₀.dues.length]? = some (Binary64.snap (m₀.clock + d)) :=
      List.getElem?_concat_length
    have hm₁ : After e p m₀ m₁ :=
      ⟨(attribution e p none none).lasts hm₀ (m₀.later_alarm d) rfl rfl, m₀.later_alarm d⟩
    rintro k Q _ rfl hk
    refine ⟨trivial, False, ?_⟩
    rintro _ _ ⟨rfl, rfl⟩
    -- whatever alarms the stage sets, the number of this one stands for this deadline
    refine hstage m₁ _ Q m₁ ⟨hm₁.1, .refl _⟩ ?_
    rintro r x ⟨q, ending, report?, rfl, h, hx⟩
    refine ⟨trivial, False, ?_⟩
    rintro expired x' ⟨hexpired, rfl⟩
    have hafter := Ahead.trans hm₁ hx
    match expired, ending with
    | true, .error .interrupted =>
      obtain ⟨due, ha, hnow⟩ := hexpired rfl
      cases (hx.2.due hdue).symm.trans ha
      exact hk _ x' ⟨q, _, report?, rfl, h.expired ⟨d, hd, hnow⟩, hafter⟩
    | true, .error (.fault _) | true, .ok _ | false, _ =>
      exact hk _ x' ⟨q, _, report?, rfl, h.mono False.elim, hafter⟩

end

/-! ### The settlement -/

section

variable {n : Nat} {m : Message} {c : Command} {q : Progress} {ending : Ending (Option RunResult)}
  {result : RunResult} {f? : Option Fault} {m₀ x : Moment (World ω)} {t : Rat}

theorem Ahead.logged (h : Ahead e p none report? m₀ x) {r : LogRecord} (hr : r.isFailure = true) :
    Ahead e p (some r) report? m₀ ((attribution e p none none).put x
      { x.shared with journal := r :: x.shared.journal }) := by
  refine Ahead.put h rfl fun fs rs hfs hrs hattributed => ⟨fs, rs, ?_, hrs, hattributed⟩
  change (r :: x.shared.journal).filter LogRecord.isFailure = r :: fs
  rw [List.filter_cons_of_pos hr]
  exact congrArg (r :: ·) hfs

/-- **A settlement** is traced to its origin. -/
theorem Ahead.settled {retryAfterMs : Int}
    (h : Ahead e p (f?.map (failureRecord m c)) report? m₀ x) (hn : x.stamps[n]? = some t)
    (horigin : Origin e (e.Overdue t x.clock) m c result f? report?) :
    After e p m₀ ((attribution e p none none).put x
      { x.shared with deeds := .concluded n m c result retryAfterMs :: x.shared.deeds }) := by
  refine Ahead.put h rfl fun fs rs hfs hrs hattributed => ⟨_, _, hfs, hrs, ?_⟩
  change Attributed _ (⟨n, m, c, result⟩ :: x.shared.settlements) _ _
  exact .cons ⟨t, hn, horigin⟩ hattributed

/-- The ending of a stage is settled, and the record is written if there is to be one. -/
theorem achieves_settle_fault {f : Fault} (hq : q.command = some c) :
    Achieves (attribution e p none none) (Ahead e p none report? m₀)
      (settle e m q (.error (.fault f))) fun r x => r = .ok (some (failureResult e f)) ∧
        Ahead e p ((unexpected? f).map (failureRecord m c)) report? m₀ x := by
  unfold settle
  simp only [hq, Option.map_some]
  split
  · rename_i htimeout
    have hresult : failureResult e f = deadlineExceeded (e.config.messageDeadline none) :=
      if_pos htimeout
    have hquiet : unexpected? f = none := if_pos htimeout
    rw [hresult, hquiet]
    exact (achieves_ofEnding _).of_pre fun _ h => ⟨rfl, h⟩
  · rename_i hother
    have hresult : failureResult e f = internalError f := if_neg hother
    have hsome : unexpected? f = some f := if_neg hother
    rw [hresult, hsome]
    exact achieves_modify_bind (fun _ h => Ahead.logged h rfl)
      ((achieves_ofEnding _).of_pre fun _ h => ⟨rfl, h⟩)

theorem brisk_release {R : Timetable (World ω)} (r : Option Cooldown.Reservation) :
    Brisk R (World.upshot p) (release r : Action ω Unit) := by
  cases r with
  | none => exact brisk_pure ()
  | some r => exact brisk_change fun _ => rfl

/-- **A message that has attained a result** is settled with it. -/
theorem achieves_finish_of_settle (he : e.Reporting p) (hq : q.command = some c)
    (hn : x.stamps[n]? = some t) (horigin : Origin e (e.Overdue t x.clock) m c result f? report?)
    (hsettle : Achieves (attribution e p none none) (Ahead e p none report? x) (settle e m q ending)
      fun r x' => r = .ok (some result) ∧
        Ahead e p (f?.map (failureRecord m c)) report? x x') :
    Achieves (attribution e p none none) (Ahead e p none report? x) (finish e n m q ending)
      fun _ => After e p x := by
  have hensuring : Achieves (attribution e p none none) (Ahead e p none report? x)
      (Act.ensuring (settle e m q ending) (release q.reservation)) fun r x' =>
        r = .ok (some result) ∧ Ahead e p (f?.map (failureRecord m c)) report? x x' :=
    achieves_attempt_bind hsettle fun r => achieves_of_fact fun hr =>
      ahead_bind (brisk_release _) fun _ =>
        (achieves_ofEnding r).of_pre fun _ h => ⟨hr, h⟩
  refine achieves_bind hensuring (fun r => achieves_of_fact fun hr => ?_) fun _ _ h => nomatch h.1
  cases hr
  rw [hq]
  refine achieves_modify_bind (fun x' h => Ahead.settled h (h.2.stamp hn)
    (horigin.mono fun hlate => hlate.mono le_rfl h.2.clock)) ?_
  exact attributes_closed.map (attributes_closed.conclude
    (fun send hsend channel content => (he.reply send hsend channel content).steady about_attribution)
    (fun sink hsink => ⟨fun entry => ((he.audit sink hsink).append entry).steady about_attribution,
      fun tenant keep => ((he.audit sink hsink).trim tenant keep).steady about_attribution⟩) _ _ _ _) x

/-- A message that has matched nothing is not settled. -/
theorem attributes_finish_unmatched (hq : q.command = none)
    (h : ∀ f, ending = .error (.fault f) → f.kind = .timeout) :
    Attributes e p (finish e n m q ending) := by
  have hsettle : Attributes e p (settle e m q ending) := by
    match ending with
    | .ok r => exact attributes_closed.pure r
    | .error .interrupted => exact attributes_closed.fail _
    | .error (.fault f) =>
      unfold settle
      simp only [h f rfl, if_true, hq]
      exact attributes_closed.bind (attributes_closed.log rfl) fun _ => attributes_closed.pure none
  have hrelease : Attributes e p (release q.reservation : Action ω Unit) :=
    attributes_closed.release _
  unfold finish
  rw [hq]
  exact attributes_closed.bind (attributes_closed.ensuring hsettle hrelease) fun _ =>
    attributes_closed.pure none

/-- A message whose work was interrupted is not settled. -/
theorem achieves_finish_cut : Achieves (attribution e p none none) (After e p m₀)
    (finish e n m q (.error .interrupted)) fun _ => After e p m₀ := by
  have hensuring : Achieves (attribution e p none none) (After e p m₀)
      (Act.ensuring (settle e m q (.error .interrupted)) (release q.reservation)) fun r x =>
        (∀ a, r ≠ .ok a) ∧ After e p m₀ x := by
    have hsettle : Achieves (attribution e p none none) (After e p m₀)
        (settle e m q (.error .interrupted)) fun r x => (∀ a, r ≠ .ok a) ∧ After e p m₀ x :=
      (achieves_ofEnding _).of_pre fun _ h => ⟨nofun, h⟩
    exact achieves_attempt_bind hsettle fun r => achieves_of_fact fun hr =>
      ahead_bind (brisk_release _) fun _ =>
        (achieves_ofEnding r).of_pre fun _ h => ⟨hr, h⟩
  exact achieves_bind hensuring (fun r => achieves_of_fact fun hr => absurd rfl (hr r)) fun _ _ h => h.2

/-- **The work on a message is finished** with a settlement that is traced to its origin, if with one. -/
theorem achieves_finish (he : e.Reporting p) (hn : x.stamps[n]? = some t)
    (h : Attained e (e.Overdue t x.clock) m q ending report?) :
    Achieves (attribution e p none none) (Ahead e p none report? x) (finish e n m q ending)
      fun _ => After e p x := by
  cases h with
  | unmatched hq h => exact attributes_finish_unmatched hq h x
  | cut => exact achieves_finish_cut
  | result hq h =>
    exact achieves_finish_of_settle he hq hn h ((achieves_ofEnding _).of_pre fun _ h => ⟨rfl, h⟩)
  | fault hq h => exact achieves_finish_of_settle he hq hn h (achieves_settle_fault hq)

/-! ### Handling a message -/

/-- **A message that comes in** is counted, and the time is known. -/
theorem achieves_receive : Achieves (attribution e p none none) (After e p m₀) (receive m)
    fun r x => ∃ n enabled, r = .ok (n, enabled) ∧ x.stamps[n]? = some x.clock ∧ After e p m₀ x := by
  intro k Q x ⟨⟨hcount, fs, rs, hfs, hrs, hattributed⟩, hx⟩ hk
  let w : World ω := { x.shared with
    messages := x.shared.messages + 1
    deeds := .received x.shared.messages m x.shared.enabled :: x.shared.deeds }
  have hlater : x.Later ((attribution e p none none).put x w) := Timetable.later_put x w
  have hone : w.messages - x.shared.messages = 1 := Nat.add_sub_cancel_left ..
  have hstamps : ((attribution e p none none).put x w).stamps = x.stamps ++ [x.clock] :=
    congrArg (fun i => x.stamps ++ List.replicate i x.clock) hone
  refine hk _ ((attribution e p none none).put x w) ⟨_, _, rfl, ?_,
    ⟨?_, fs, rs, hfs, hrs, ?_⟩, hx.trans hlater⟩
  · rw [hstamps, ← hcount]
    exact List.getElem?_concat_length
  · rw [hstamps, List.length_append, hcount]
    rfl
  · exact hattributed.mono fun _ _ _ _ => Traced.later hlater

/-- **Handling a message** keeps all settlements, records and reports attributed. -/
theorem attributes_handle (hp : p.Lawful) (he : e.Reporting p) (m : Message) :
    Attributes e p (handle e m) := by
  intro m₁
  refine achieves_bind achieves_receive (fun (n, enabled) => achieves_of_pre fun m₀ hm₀ => ?_)
    fun _ _ ⟨_, _, heq, _⟩ => nomatch heq
  obtain ⟨_, _, heq, hn, hm₀⟩ := hm₀
  cases heq
  have hpre : ∀ x, x = m₀ → After e p m₁ x := fun _ heq => heq ▸ hm₀
  cases enabled with
  | false =>
    exact Achieves.of_pre (attributes_closed.bind (attributes_closed.log rfl)
      (fun _ => attributes_closed.pure none) m₁) hpre
  | true =>
    simp only [Bool.not_true, Bool.false_eq_true, if_false]
    split
    · exact Achieves.of_pre (attributes_closed.pure none m₁) hpre
    · refine Achieves.of_post (achieves_bind (achieves_bounded (fun _ => attains_work hp he) hm₀.1)
        (fun (q, ending) => achieves_of_pre fun x hx => ?_) ?_) fun _ _ h => Ahead.trans hm₀ h
      · obtain ⟨_, _, report?, heq, hattained, hahead⟩ := hx
        cases heq
        refine (achieves_finish he (hahead.2.stamp hn) hattained).weaken ?_ ?_
        · rintro _ rfl
          exact ⟨hahead.1, .refl _⟩
        · exact fun _ _ h => ⟨h.1, hahead.2.trans h.2⟩
      · rintro _ _ ⟨_, _, _, heq, -⟩
        cases heq

end

/-! ### Runs of an engine -/

/-- What comes to an engine whose collaborators mind their own business. -/
abbrev Setup.Business (e : Setup ω) (p : Part ω (List Report)) :
    Concurrency.Task (World ω) Product → Prop :=
  e.Chore (Minding p)

/-- The states that a new engine comes to, with collaborators that mind their own business. -/
abbrev Setup.Works (e : Setup ω) (p : Part ω (List Report)) :
    Scheduler (World ω) Product → Prop :=
  Scheduler.Reachable (fun w => w.messages = 0 ∧ w.journal = [] ∧ w.deeds = [] ∧ p.get w.env = [])
    (e.Business p)

theorem Setup.Business.obeys (hp : p.Lawful) (he : e.Reporting p)
    {body : Concurrency.Task (World ω) Product} (h : e.Business p body) (x : Moment (World ω))
    (hx : (attribution e p none none).holds x) :
    body.Obeys (attribution e p none none) (fun _ => (attribution e p none none).holds) x := by
  obtain ⟨α, toValue, x, hattributes, rfl⟩ := Setup.Chore.within attributes_closed
    (attributes_handle hp he) (fun h => h.steady about_attribution) h
  exact obeys_toTask hattributes.achieves hx

/-- **Every result is attributed.**  The settlements, the records that work has failed and the reports
of runtimes go along with each other, whatever messages are handled at the same time.  Each report leads
to a settlement.  Of each fault of the review or of a runtime there is one record, unless it is of the
kind `timeout`, and of nothing else.  A message that comes in after `k₀` is ended by its deadline only when
that is up. -/
theorem settlements_attributed (hp : p.Lawful) (he : e.Reporting p)
    {k₀ k₁ k : Scheduler (World ω) Product} (hk : e.Works p k₀) (hround : k₀.round? = some k₁)
    (hlater : Scheduler.Onward (e.Business p) k₁ k) :
    Attributed (fun c => Origin e
        (c.number < k₀.shared.messages ∨ e.Overdue k₀.collect.clock k.clock)
        c.message c.command c.result)
      k.shared.settlements k.shared.failures (p.get k.shared.env) := by
  have hobeys : ∀ body, e.Business p body → ∀ x, (attribution e p none none).holds x →
      body.Obeys (attribution e p none none) (fun _ => (attribution e p none none).holds) x :=
    fun _ => Setup.Business.obeys hp he
  have hstart : ∀ w : World ω, w.messages = 0 ∧ w.journal = [] ∧ w.deeds = [] ∧ p.get w.env = [] →
      (attribution e p none none).holds (Scheduler.outset w) := by
    rintro w ⟨hmessages, hjournal, hdeeds, hreports⟩
    refine ⟨hmessages.symm, [], [], ?_, hreports, ?_⟩
    · change w.journal.filter LogRecord.isFailure = []
      rw [hjournal]
      rfl
    · change Attributed _ (w.deeds.filterMap Deed.settlement?) _ _
      rw [hdeeds]
      exact .nil
  obtain ⟨x₀, hstands₀⟩ := hk.inTime hobeys hstart
  obtain ⟨x₁, hl₁, hstands₁⟩ := hstands₀.round hround
  obtain ⟨x, hl₂, hx, waits, hin⟩ := hlater.inTime hobeys hstands₁
  obtain ⟨hx₀, waits₀, hin₀⟩ := hstands₀
  have hl := hl₁.trans hl₂
  obtain ⟨-, fs, rs, hfs, hrs, hattributed⟩ := hx
  rw [← hin.programs.shared] at hfs hrs hattributed
  rw [show k.shared.failures = fs from hfs, show p.get k.shared.env = rs from hrs]
  refine hattributed.mono fun c _ f? report? ⟨t, ht, horigin⟩ => horigin.mono fun hlate => ?_
  rcases Nat.lt_or_ge c.number k₀.shared.messages with hlt | hge
  · exact .inl hlt
  · -- the message has come in since the round after `k₀` began
    refine .inr (hlate.mono (hl.since c.number t ?_ ht) (le_of_eq hin.clock.symm))
    change x₀.stamps.length ≤ c.number
    rw [hx₀.1, ← hin₀.programs.shared]
    exact hge

/-! ### A runtime that fails -/

/-- An engine with one command, whose runtime fails with this fault. -/
def failing (f : Fault) : Setup (List Report) where
  config := { caseInsensitive := false }
  registry := { commands := fun _ => pure [hello], sigil := none }
  runtimes := reporting .whole [(.python, fun _ _ _ => Act.throw f)]
  review := fun _ _ => .ok ([], { ok := true })
  reply := none
  audit := none
  clock := fun _ => 0

theorem failing_reporting (f : Fault) : (failing f).Reporting .whole where
  runtimes := by
    refine ⟨_, fun l run hrun code bindings timeout => ?_, rfl⟩
    obtain ⟨-, rfl⟩ := Prod.mk.inj (List.mem_singleton.mp hrun)
    exact minds_composed.throw f
  commands _ := minds_composed.pure _
  sigil := nofun
  reply := nofun
  audit := nofun
  review label code records v h r hr := by
    cases h
    cases hr

/-- The engine when a greeting has come in. -/
def failingNext (f : Fault) : Scheduler (World (List Report)) Product :=
  let new : Scheduler (World (List Report)) Product := { shared := { env := [] } }
  (new.addTask false (toTask .outcome (handle (failing f) greeting))).2

theorem failingNext_works (f : Fault) : (failing f).Works .whole (failingNext f) :=
  (Scheduler.Reachable.start ⟨rfl, rfl, rfl, rfl⟩).arrive (.handle .outcome greeting)

theorem failingNext_round (f : Fault) :
    (failingNext f).round? = some (failingNext f).collect.doReady := rfl

theorem settlements_attributed_failing :
    let e := failing (.of .value [])
    let k₀ := failingNext (.of .value [])
    let k := k₀.collect.doReady
    k.shared.settlements.map (·.result) = [internalError (.of .value [])] ∧
      k.shared.failures.length = 1 ∧ k.shared.env.length = 1 ∧
        Attributed (fun c => Origin e
            (c.number < k₀.shared.messages ∨ e.Overdue k₀.collect.clock k.clock)
            c.message c.command c.result)
          k.shared.settlements k.shared.failures k.shared.env :=
  ⟨by decide +kernel, by decide +kernel, by decide +kernel,
    settlements_attributed (fun _ _ => rfl) (failing_reporting _) (failingNext_works _)
      (failingNext_round _) .here⟩

/-- **A deadline that was not up.**  The runtime fails at once with a fault of the kind `timeout`, and
the message is settled as if its deadline had ended it, with no record. -/
theorem timeout_taken_for_deadline :
    let e := failing (.of .timeout [])
    let k₀ := failingNext (.of .timeout [])
    let k := k₀.collect.doReady
    e.Reporting .whole ∧ e.Works .whole k₀ ∧ k₀.round? = some k ∧
      ¬ e.Overdue k₀.collect.clock k.clock ∧ k.shared.env.length = 1 ∧
        k.shared.settlements.map (·.result) = [deadlineExceeded (e.config.messageDeadline none)] ∧
          k.shared.failures.length = 0 := by
  refine ⟨failing_reporting _, failingNext_works _, failingNext_round _, ?_, by decide +kernel,
    by decide +kernel, by decide +kernel⟩
  rintro ⟨d, hd, hdue⟩
  have hlimit : ((failing (.of .timeout [])).config.messageDeadline none).toRat? = some 5 := by
    decide +kernel
  cases hlimit.symm.trans hd
  have hclock : (failingNext (.of .timeout [])).collect.doReady.clock = 0 := by decide +kernel
  have hthen : (failingNext (.of .timeout [])).collect.clock = 0 := by decide +kernel
  rw [hclock, hthen] at hdue
  revert hdue
  unfold Scheduler.Due
  decide +kernel

end ChatCommands.Engine
