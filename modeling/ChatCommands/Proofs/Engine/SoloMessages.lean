import ChatCommands.Proofs.Engine.Handling
import ChatCommands.Proofs.Engine.Solo
import ChatCommands.Proofs.Number.Tenths

/-!
A message that fires the one command of an engine, handled when nothing else is to be done.

The message comes to the result of the review or of the run, or to its deadline.  Main statements:
`handled_refused`, `handled_inTime`, `handled_late`.
-/

namespace ChatCommands.Engine

open Concurrency Act Scheduler

variable {ω α : Type} {me n i : Nat} {p : Peace} {clock : Rat} {free : Int}
  {aim : Nat → Scheduler (World ω) Product → Prop} {env : ω} {E : ω → Prop}
  {calls : List RuntimeCall} {S S' : World ω → Scheduler (World ω) Product → Prop}
  {timeout : Binary64} {c : Command} {sigil : Option Text} {b : Conduct ω} {watch : ω → Rat}
  {m : Message} {l : Language} {q : Ending (Option RunResult)}

/-! ### The conclusion -/

theorem leads_settle (hS : Footing S) {e : Setup ω} {progress : Progress}
    (hc : progress.command = some c) (q : Ending (Option RunResult)) :
    Leads me aim 0 (At S (Stand E calls free)) (settle e m progress q) fun r k =>
      r = settled e q ∧ At S (Stand E calls free) k := by
  unfold settle
  match q with
  | .ok r => exact leads_pure fun k hk => ⟨rfl, hk⟩
  | .error .interrupted => exact leads_ofEnding fun k hk => ⟨rfl, hk⟩
  | .error (.fault f) =>
    simp only [hc, Option.map_some]
    split
    · rename_i htimeout
      exact leads_pure fun k hk => ⟨by rw [settled, failureResult, if_pos htimeout], hk⟩
    · rename_i hother
      refine (leads_log hS _ _ _ _).follow (l := 0) ?_
      exact leads_pure fun k hk => ⟨by rw [settled, failureResult, if_neg hother], hk⟩

theorem leads_logResult (hS : Footing S) (r : RunResult) :
    Leads me aim 0 (At S (Stand E calls free)) (logResult m c r) fun r' k =>
      r' = .ok () ∧ At S (Stand E calls free) k := by
  unfold logResult
  split
  all_goals exact leads_log hS _ _ _ _

/-- The outcome of a message of which nobody is told. -/
def silentOutcome (e : Setup ω) (c : Command) (r : RunResult) : Outcome :=
  ⟨c.id, r, Reply.ofResult e.config.maxReplyChars c.language r 0, false, true⟩

/-- **A result is concluded** with its outcome. -/
theorem leads_conclude (haim : Patient me aim) {e : Setup ω} (hreply : e.reply = none)
    (haudit : e.audit = none) (r : RunResult) :
    Leads me aim 3 (At (fun w => Alone me p w clock) (Stand E calls free)) (conclude e m c r 0)
      fun r' k => r' = .ok (silentOutcome e c r) ∧
        At (fun w => Alone me p w clock) (Stand E calls free) k := by
  unfold conclude
  refine (leads_logResult alone_footing r).follow (l := 3) (leads_at fun w hw => ?_)
  have hrecord : ComesTo (Audit.record e.auditSettings e.audit (auditEntry m c r)) w (.ok true)
      { w with
        deeds := .recorded (auditEntry m c r) :: w.deeds
        journal :=
          ⟨.info, .audit, text "Audit", [("audit", (auditEntry m c r).toJson)]⟩ :: w.journal } := by
    rw [haudit]
    exact (comesTo_modify _ _).bind ((comesTo_modify _ _).bind (comesTo_pure true _))
  have hdeliver : ∀ reply w, ComesTo (deliver e m.channel reply) w (.ok false) w := by
    intro reply w
    unfold deliver
    rw [hreply]
    split
    · rename_i hnone
      cases hnone
    · exact comesTo_pure false w
  refine leads_gather (l := 0) hrecord (hdeliver _ _) haim fun auditing delivering => ?_
  refine (leads_valueOf flag? (a := true) rfl fun k hk => hk.2.1).follow (l := 0) ?_
  refine (leads_valueOf flag? (a := false) rfl fun k hk => hk.2.2).follow (l := 0) ?_
  refine leads_pure fun k hk => ⟨rfl, _, ?_, hk.1⟩
  exact hw.same rfl (List.filterMap_cons_none rfl) rfl

/-- The work is over, and the task is alone. -/
def Rested (me : Nat) (calls : List RuntimeCall) (k : Scheduler (World ω) Product) : Prop :=
  ∃ p clock, At (fun w => Alone me p w clock) (Stand (fun _ => True) calls 8) k

theorem leads_rested {α : Type} {x : Action ω α} {post : Ending α → Scheduler (World ω) Product → Prop}
    (h : ∀ p clock, Leads me aim n (At (fun w => Alone me p w clock) (Stand (fun _ => True) calls 8))
      x post) : Leads me aim n (Rested me calls) x post :=
  fun next m k ⟨p, clock, hk⟩ hnext => h p clock next m k hk hnext

/-- What follows the work. -/
theorem leads_finish (haim : Patient me aim) {e : Setup ω} (hreply : e.reply = none)
    (haudit : e.audit = none) {r : RunResult} (hq : settled e q = .ok (some r))
    (reservation : Cooldown.Reservation) :
    Leads me aim 3 (Rested me calls) (finish e i m ⟨some c, some reservation, 0⟩ q) fun r' k =>
      r' = .ok (some (silentOutcome e c r)) ∧ Rested me calls k := by
  refine leads_rested fun p clock => ?_
  have hgive : Leads me aim 0 (At (fun w => Alone me p w clock) (Stand (fun _ => True) calls 8))
      (release (some reservation) : Action ω Unit) fun r k =>
        r = .ok () ∧ At (fun w => Alone me p w clock) (Stand (fun _ => True) calls 8) k :=
    leads_modify alone_footing fun _ h => h.same rfl (List.filterMap_cons_none rfl) rfl
  have hsettle : Leads me aim 0 (At (fun w => Alone me p w clock) (Stand (fun _ => True) calls 8))
      (settle e m ⟨some c, some reservation, 0⟩ q) fun r' k =>
        r' = .ok (some r) ∧ At (fun w => Alone me p w clock) (Stand (fun _ => True) calls 8) k :=
    hq ▸ leads_settle alone_footing rfl q
  unfold finish
  refine (hsettle.ensuring hgive).follow (l := 3) ?_
  refine (leads_note alone_footing rfl).follow (l := 3) ?_
  refine ((leads_conclude haim hreply haudit r).map some).weaken (fun _ h => h) ?_
  exact fun r' k h => ⟨h.1, p, clock, h.2⟩

/-- **A message is handled** by its work, and what follows. -/
theorem leads_handle (haim : Patient me aim) {e : Setup ω} (hreply : e.reply = none)
    (haudit : e.audit = none) (hbot : m.fromBot = false) {r : RunResult}
    (hq : settled e q = .ok (some r)) (hS : Footing S)
    (hstage : ∀ i, Leads me aim n (At S (Stand E [] 8))
      (bounded (e.config.messageDeadline none).toRat? (work e i m)) fun r k =>
        Staging c q r ∧ Rested me calls k) :
    Leads me aim (3 + n) (At S fun w => w.enabled = true ∧ Stand E [] 8 w) (handle e m) fun r' k =>
      r' = .ok (some (silentOutcome e c r)) ∧ Rested me calls k := by
  refine leads_at fun w hw => ?_
  have hreceive : Leads me aim 0 (S w) (receive m : Action ω (Nat × Bool)) fun r k =>
      r = .ok (w.messages, true) ∧ At S (Stand E [] 8) k := by
    refine (leads_comesTo hS (comesTo_change _ w)).weaken (fun _ h => h) fun r k h =>
      ⟨?_, _, ?_, h.2⟩
    · rw [h.1, hw.1]
    · exact hw.2.same rfl (List.filterMap_cons_none rfl) rfl
  unfold handle
  refine hreceive.follow (l := 3 + n) ?_
  simp only [Bool.not_true, Bool.false_eq_true, if_false, hbot]
  refine (leads_staged (hstage _)).bind (l := 3) fun s => leads_of_fact ?_
  rintro ⟨reservation, hs⟩
  cases hs
  exact leads_finish haim hreply haudit hq reservation

/-! ### Time limits from now on -/

/-- What is to be done a second from now or later is not due yet. -/
theorem not_due_zero {d : Rat} (hd : 1 ≤ d) : ¬ Due 0 (Binary64.snap (0 + d)) := by
  have hone : Binary64.snap 1 = 1 := by
    have := Binary64.snap_intCast (i := 1) (by decide)
    exact_mod_cast this
  have hlate : 1 ≤ Binary64.snap (0 + d) := by
    rw [zero_add]
    exact hone.symm.le.trans (Binary64.snap_mono hd)
  have hresolution : Binary64.snap (0 + resolution) ≤ 1 := by
    refine (Binary64.snap_mono ?_).trans hone.le
    decide +kernel
  rintro (h | h)
  · linarith
  · linarith

theorem timeout_bounds (hlow : Config.minTimeout.le timeout = true)
    (hhigh : timeout.le Config.maxTimeout = true) : ∃ neg mant e, timeout = .finite neg mant e ∧
      0 < timeout.toRat ∧ timeout.toRat ≤ 30 := by
  have hmin : Config.minTimeout = .finite false 7205759403792794 (-56) := by decide +kernel
  have hmax : Config.maxTimeout = .finite false 8444249301319680 (-48) := by decide +kernel
  rw [hmin] at hlow
  rw [hmax] at hhigh
  match timeout with
  | .nan => cases hlow
  | .infinity true => cases hlow
  | .infinity false => cases hhigh
  | .finite neg mant e =>
    refine ⟨neg, mant, e, rfl, ?_, ?_⟩
    · refine lt_of_lt_of_le ?_ (of_decide_eq_true hlow)
      decide +kernel
    · refine (of_decide_eq_true hhigh).trans ?_
      decide +kernel

/-- The deadline of a message is a time. -/
theorem deadline_serving (c : Command) (sigil : Option Text) (b : Conduct ω) (watch : ω → Rat)
    (hlow : Config.minTimeout.le timeout = true)
    (hhigh : timeout.le Config.maxTimeout = true) :
    ∃ d, ((serving timeout c sigil b watch).config.messageDeadline none).toRat? = some d ∧ 1 ≤ d := by
  obtain ⟨neg, mant, e, rfl, hpos, hle⟩ := timeout_bounds hlow hhigh
  have hmargin : Config.deadlineMargin = .finite false 4503599627370496 (-51) := by decide +kernel
  have htwo : Config.deadlineMargin.toRat = 2 := by decide +kernel
  have hsum : (serving (.finite neg mant e) c sigil b watch).config.messageDeadline none =
      .ofRat ((Binary64.finite neg mant e).toRat + 2) := by
    change (Binary64.finite neg mant e).add Config.deadlineMargin = _
    rw [← htwo, hmargin]
    rfl
  refine ⟨_, hsum ▸ Binary64.toRat?_ofRat (by linarith) (by norm_num; linarith), ?_⟩
  have hone : Binary64.snap 1 = 1 := by
    have := Binary64.snap_intCast (i := 1) (by decide)
    exact_mod_cast this
  exact hone.symm.le.trans (Binary64.snap_mono (by linarith))

/-! ### Handling -/

/-- A message that an engine handles, with nothing else to do. -/
def handled (e : Setup ω) (env : ω) (m : Message) : Scheduler (World ω) Product :=
  Scheduler.run { env, slots := ⟨e.config.maxConcurrent, []⟩ } (Act.toTask .outcome (handle e m))

/-- The message has come to this result, and these are the calls of runtimes. -/
structure Concluded (e : Setup ω) (c : Command) (r : RunResult) (calls : List RuntimeCall)
    (k : Scheduler (World ω) Product) : Prop where
  outcome : k.statusOf 0 = .ended (.ok (.outcome (some (silentOutcome e c r))))
  calls : k.shared.deeds.filterMap Deed.call? = calls

theorem concluded_of_leads {p : Peace} (hbot : m.fromBot = false) {r : RunResult}
    (hq : settled (serving timeout c sigil b watch) q = .ok (some r)) (hn : n < 1000)
    (hstage : ∀ i aim, Patient 0 aim → Leads 0 aim n
      (At (fun w => Alone 0 p w 0) (Stand (· = env) [] 8))
      (bounded ((serving timeout c sigil b watch).config.messageDeadline none).toRat?
        (work (serving timeout c sigil b watch) i m)) fun r k => Staging c q r ∧ Rested 0 calls k) :
    Concluded (serving timeout c sigil b watch) c r calls
      (handled (serving timeout c sigil b watch) env m) := by
  refine Leads.run (p := p) (n := 3 + n) ?_ (by unfold maxRounds; omega)
  refine (leads_handle (patient_reaches _) rfl rfl hbot hq alone_footing
    fun i => hstage i _ (patient_reaches _)).weaken (fun k hk => ⟨_, ⟨rfl, rfl, rfl, rfl⟩, hk⟩) ?_
  rintro r' k ⟨rfl, p', clock', w, hw, hk⟩
  exact ⟨p', w, clock', hk, fun k' hstatus hshared => ⟨hstatus, hshared ▸ hw.calls⟩⟩

/-- What the review of the code comes to. -/
def verdictOn (label code : Text) : Verdict := ({} : Reviewer).review label code

section

variable (env : ω) (hlow : Config.minTimeout.le timeout = true)
  (hhigh : timeout.le Config.maxTimeout = true)
  (hbot : m.fromBot = false) (hcool : c.cooldownMs = 0)
  (hfirst : matched? (serving timeout c sigil b watch) m [c] sigil = some c)

include hlow hhigh hbot hcool hfirst

/-- **Code that the review refuses** is not run. -/
theorem handled_refused (hv : (verdictOn c.language c.code).ok = false) :
    Concluded (serving timeout c sigil b watch) c (rejected (verdictOn c.language c.code)) []
      (handled (serving timeout c sigil b watch) env m) := by
  obtain ⟨d, hd, hone⟩ := deadline_serving c sigil b watch hlow hhigh
  refine concluded_of_leads (q := .ok (some (rejected (verdictOn c.language c.code)))) (n := 0)
    (p := ⟨fun _ => True, False⟩) hbot rfl (by omega) fun i aim haim => ?_
  rw [hd]
  have hwork : Leads 0 aim 0 (At (fun w => Alone 0 ⟨fun _ => True, False⟩ w 0) (Stand (· = env) [] 8))
      (work (serving timeout c sigil b watch) i m) fun r k =>
        Staging c (.ok (some (rejected (verdictOn c.language c.code)))) r ∧
          At (fun w => Alone 0 ⟨fun _ => True, False⟩ w 0) (Stand (· = env) [] 8) k :=
    leads_work alone_unmoved (not_due_zero one_le_two) hcool hfirst fun reservation =>
      leads_reviewThen_refused alone_footing rfl hv reservation
  refine (leads_bounded (not_due_zero hone) id (fun _ => trivial) hwork).weaken (fun _ h => h) ?_
  rintro r k ⟨hr, w, hw, hk⟩
  exact ⟨hr, _, _, w, hw.anywhere, hk⟩

variable (hl : Language.ofLabel? c.language = some l) (hv : (verdictOn c.language c.code).ok = true)

include hl hv

omit hlow hhigh hbot in
theorem leads_work_accepted {env : ω} (hS : Unmoved me 0 S) (hS' : Footing S') {r : Ending RunResult}
    (hmake : Leads me aim n (At S (Stand (· = env)
        [callFor (serving timeout c sigil b watch) m c l] 7))
      (b l c.code timeout).make fun r' k => r' = r ∧
        At S' (Stand (fun _ => True) [callFor (serving timeout c sigil b watch) m c l] 7) k) :
    Leads me aim n (At S (Stand (· = env) [] 8)) (work (serving timeout c sigil b watch) i m)
      fun r' k => Staging c (r.map some) r' ∧
        At S' (Stand (fun _ => True) [callFor (serving timeout c sigil b watch) m c l] 8) k := by
  have hlanguage : runtimeLanguage? (serving timeout c sigil b watch) c = some l := by
    unfold runtimeLanguage?
    rw [hl]
    cases l <;> rfl
  exact leads_work hS (not_due_zero one_le_two) hcool hfirst fun reservation =>
    leads_reviewThen_accepted hS.toFooting rfl hv hlanguage
      (leads_execute hS.toFooting hS' (by decide) hmake) reservation

/-- **A run that ends in time** settles the result. -/
theorem handled_inTime {finished : Rat}
    (hends : (b l c.code timeout).endsAt env 0 = some finished)
    (hin : ¬ (serving timeout c sigil b watch).Overdue 0 finished) {r : RunResult}
    (hr : settled (serving timeout c sigil b watch)
      ((((b l c.code timeout).ending env).mapError .fault).map some) = .ok (some r)) :
    Concluded (serving timeout c sigil b watch) c r [callFor (serving timeout c sigil b watch) m c l]
      (handled (serving timeout c sigil b watch) env m) := by
  obtain ⟨d, hd, hone⟩ := deadline_serving c sigil b watch hlow hhigh
  have hnot : ¬ Due finished (Binary64.snap (0 + d)) := fun hdue => hin ⟨d, hd, hdue⟩
  refine concluded_of_leads (n := 2) (p := ⟨fun x => ¬ Due finished x.1, False⟩) hbot hr (by omega)
    fun i aim haim => ?_
  rw [hd]
  have hbounded := leads_bounded (p := ⟨fun x => ¬ Due finished x.1, False⟩) (not_due_zero hone) id
    (fun _ => hnot) (leads_work_accepted (i := i) hcool hfirst hl hv alone_unmoved alone_footing
      (leads_make haim hends fun x hx => hx))
  refine hbounded.weaken (fun _ h => h) ?_
  rintro r k ⟨hr, w, hw, hk⟩
  exact ⟨hr, _, _, w, hw, hk⟩

/-- **A run that does not end in time** is cut short at the deadline. -/
theorem handled_late
    (hlate : ∀ finished, (b l c.code timeout).endsAt env 0 = some finished →
      (serving timeout c sigil b watch).Overdue 0 finished) :
    Concluded (serving timeout c sigil b watch) c
      (deadlineExceeded ((serving timeout c sigil b watch).config.messageDeadline none))
      [callFor (serving timeout c sigil b watch) m c l]
      (handled (serving timeout c sigil b watch) env m) := by
  obtain ⟨d, hd, hone⟩ := deadline_serving c sigil b watch hlow hhigh
  have hdue : ∀ finished, (b l c.code timeout).endsAt env 0 = some finished →
      Due finished (Binary64.snap (0 + d)) := by
    intro finished hends
    obtain ⟨d', hd', hdue⟩ := hlate finished hends
    rw [hd] at hd'
    cases hd'
    exact hdue
  refine concluded_of_leads (q := .error (.fault (.of .timeout []))) (n := 2)
    (p := ⟨fun _ => False, False⟩) hbot rfl (by omega) fun i aim haim => ?_
  rw [hd]
  have hcut := leads_bounded_cut (c := c) (not_due_zero hone) fun a t =>
    leads_work_accepted (i := i) hcool hfirst hl hv supervised_unmoved expired_footing
      (leads_make_cut haim (Binary64.snap_snap _) (not_due_zero hone) hdue)
  refine hcut.weaken (fun _ h => h) ?_
  rintro r k ⟨hr, clock', w, hw, hk⟩
  exact ⟨hr, _, _, w, hw, hk⟩

end

end ChatCommands.Engine
