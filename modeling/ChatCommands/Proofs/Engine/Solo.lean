import ChatCommands.Proofs.Concurrency.Overseen
import ChatCommands.Proofs.Engine.Origins

/-!
The work on a message that fires the one command of an engine, when nothing else is to be done.

The command has no cooldown.  Its code is reviewed, the runtime of its language is called with the
code and the timeout, and the deadline cuts a call short that takes too long.  Main statements:
`leads_execute`, `leads_work`, `leads_bounded`, `leads_bounded_cut`.
-/

namespace ChatCommands

open Concurrency

/-- The call of a runtime that is noted by a deed. -/
def Deed.call? : Deed → Option RuntimeCall
  | .entered _ call => some call
  | .received .. | .listed .. | .concluded .. | .matched .. | .asked .. | .committed _ | .released _
  | .started .. | .pruned _ | .recorded _ | .answered .. => none

namespace OutsideCall

variable {ω α : Type}

/-- What a call ends with. -/
def ending (c : OutsideCall ω α) (env : ω) : Except Fault α := (c.finish (c.start env).2).1

/-- When a call ends that begins at a time, if it does. -/
def endsAt (c : OutsideCall ω α) (env : ω) (clock : Rat) : Option Rat :=
  (c.start env).1.map (dueAfter clock)

end OutsideCall

namespace Engine

open Act Scheduler

variable {ω α : Type} {me n a t : Nat} {p : Peace} {clock due : Rat} {free : Int}
  {aim : Nat → Scheduler (World ω) Product → Prop} {env : ω} {E : ω → Prop}
  {calls calls' : List RuntimeCall}
  {S S' : World ω → Scheduler (World ω) Product → Prop}

/-! ### What is known of the shared state -/

/-- The environment, the calls of runtimes so far, and the free slots, for which nobody waits. -/
structure Stand (E : ω → Prop) (calls : List RuntimeCall) (free : Int) (w : World ω) : Prop where
  env : E w.env
  calls : w.deeds.filterMap Deed.call? = calls
  slots : w.slots = ⟨free, []⟩

theorem Stand.same {w w' : World ω} (h : Stand E calls free w) (henv : w'.env = w.env)
    (hdeeds : w'.deeds.filterMap Deed.call? = w.deeds.filterMap Deed.call?)
    (hslots : w'.slots = w.slots) : Stand E calls free w' :=
  ⟨henv ▸ h.env, hdeeds.trans h.calls, hslots.trans h.slots⟩

theorem Stand.anywhere {w : World ω} (h : Stand E calls free w) :
    Stand (fun _ => True) calls free w :=
  ⟨trivial, h.calls, h.slots⟩

/-- A deed is noted that is no call. -/
theorem leads_note (hS : Footing S) {d : Deed} (hd : d.call? = none) :
    Leads me aim 0 (At S (Stand E calls free)) (Action.note d) fun r k =>
      r = .ok () ∧ At S (Stand E calls free) k :=
  leads_modify hS fun _ h => h.same rfl (List.filterMap_cons_none hd) rfl

theorem leads_log (hS : Footing S) (level : Level) (component : Component) (message : Text)
    (context : List (String × Json)) :
    Leads me aim 0 (At S (Stand E calls free)) (Action.log level component message context)
      fun r k => r = .ok () ∧ At S (Stand E calls free) k :=
  leads_modify hS fun _ h => h.same rfl rfl rfl

theorem leads_logAll (hS : Footing S) (records : List LogRecord) :
    Leads me aim 0 (At S (Stand E calls free)) (Action.logAll records) fun r k =>
      r = .ok () ∧ At S (Stand E calls free) k :=
  leads_modify hS fun _ h => h.same rfl rfl rfl

theorem leads_onEnv (hS : Footing S) (f : ω → α × ω) :
    Leads me aim 0 (At S (Stand (· = env) calls free)) (Action.onEnv f) fun r k =>
      r = .ok (f env).1 ∧ At S (Stand (· = (f env).2) calls free) k :=
  leads_change hS fun w h => ⟨by rw [h.env], congrArg (fun env => (f env).2) h.env, h.calls, h.slots⟩

/-! ### Calls of runtimes -/

/-- A call goes on to its end once its time is over. -/
theorem leads_afterSleep {c : OutsideCall ω α} (hS : Footing S) :
    Leads me aim 0 (At S (Stand (· = (c.start env).2) calls free)) (do
      let r ← Action.onEnv c.finish
      Act.ofExcept r) fun r k =>
        r = (c.ending env).mapError .fault ∧ At S (Stand (fun _ => True) calls free) k :=
  (leads_onEnv hS c.finish).follow
    (leads_brings hS fun w h => ⟨w, comesTo_ofExcept _ w, trivial, h.calls, h.slots⟩)

/-- **A call ends when it is to.** -/
theorem leads_make (haim : Patient me aim) {c : OutsideCall ω α} {finished : Rat}
    (hends : c.endsAt env clock = some finished) (hlate : ∀ x, p.late x → ¬ Due finished x.1) :
    Leads me aim 2 (At (fun w => Alone me p w clock) (Stand (· = env) calls free)) c.make fun r k =>
      r = (c.ending env).mapError .fault ∧
        At (fun w => Alone me p w finished) (Stand (fun _ => True) calls free) k := by
  obtain ⟨d, hd, rfl⟩ := Option.map_eq_some_iff.mp hends
  unfold OutsideCall.make
  refine (leads_onEnv alone_footing c.start).follow (l := 2) ?_
  by_cases hzero : d = 0
  · subst hzero
    have hnow : ∀ k : Scheduler (World ω) Product,
        At (fun w => Alone me p w clock) (Stand (· = (c.start env).2) calls free) k →
          At (fun w => Alone me p w (dueAfter clock 0)) (Stand (· = (c.start env).2) calls free) k := by
      rintro k ⟨w, hw, hk⟩
      have hsnapped : Binary64.snap clock = clock := hk.time ▸ hk.snapped
      rw [← dueAfter_eq hsnapped (le_refl 0), add_zero, hsnapped]
      exact ⟨w, hw, hk⟩
    rw [hd]
    exact (((leads_afterSleep alone_footing).weaken hnow fun _ _ h => h).slower haim).slower haim
  · have hsleep : Leads me aim 2
        (At (fun w => Alone me p w clock) (Stand (· = (c.start env).2) calls free)) (Act.sleep (some d))
        fun r k => r = .ok () ∧
          At (fun w => Alone me p w (dueAfter clock d)) (Stand (· = (c.start env).2) calls free) k :=
      leads_at fun w hw => (leads_sleep haim hlate).weaken (fun _ h => h) fun r k h => ⟨h.1, w, hw, h.2⟩
    rw [hd]
    simp only [if_pos fun h : some d = some 0 => hzero (Option.some.inj h)]
    exact hsleep.follow (leads_afterSleep alone_footing)

/-- The task is alone once it drops its alarm, which has rung. -/
def Expired (me a : Nat) (w : World ω) (k : Scheduler (World ω) Product) : Prop :=
  ∃ clock, Armed (fun w => Alone me spent w clock) me a true w k

theorem expired_footing : Footing (Expired me a : World ω → Scheduler (World ω) Product → Prop) where
  shared _ _ h := h.elim fun _ h => h.1
  put _ _ _ h := h.imp fun _ h => armed_footing.put _ _ _ h

/-- **A call is cut short** that would not have ended by the time at which the alarm is due. -/
theorem leads_make_cut (haim : Patient me aim) {c : OutsideCall ω α} (hdue : Binary64.snap due = due)
    (hnot : ¬ Due clock due)
    (hlate : ∀ finished, c.endsAt env clock = some finished → Due finished due) :
    Leads me aim 2 (At (Supervised me a t due clock) (Stand (· = env) calls free)) c.make fun r k =>
      r = .error .interrupted ∧ At (Expired me a) (Stand (fun _ => True) calls free) k := by
  unfold OutsideCall.make
  refine (leads_onEnv supervised_unmoved.toFooting c.start).follow (l := 2) ?_
  refine leads_at fun w hw next m k hk => ?_
  have hsnapped : Binary64.snap clock = clock := hk.1.time ▸ hk.1.snapped
  have hd : ∀ d, (c.start env).1 = some d → 0 < d ∧ Due (dueAfter clock d) due := by
    intro d hd
    have hends := hlate _ (Option.map_eq_some_iff.mpr ⟨d, hd, rfl⟩)
    refine ⟨not_le.mp fun hle => hnot ?_, hends⟩
    have hmono := Binary64.snap_mono (add_le_of_nonpos_right (a := clock) hle)
    rw [hsnapped] at hmono
    rwa [dueAfter, max_eq_left hmono] at hends
  have hzero : (c.start env).1 ≠ some 0 := fun h => lt_irrefl _ (hd 0 h).1
  simp only [if_pos hzero]
  have hcut : Leads me aim 2 (Supervised me a t due clock w) (Act.sleep (c.start env).1) fun r k =>
      r = .error .interrupted ∧ At (Expired me a) (Stand (fun _ => True) calls free) k :=
    (leads_cut haim hdue hd).weaken (fun _ h => h) fun r k h => ⟨h.1, w, hw.anywhere, h.2⟩
  exact hcut.stop next m k hk

/-- A call that does not end leaves nothing to do. -/
theorem leads_make_endless {c : OutsideCall ω α} (hp : ∀ x, ¬ p.late x)
    (hends : c.endsAt env clock = none)
    (haim : ∀ m k, Stand (fun _ => True) calls free k.shared → (k.statusOf me).isDone = false →
      k.round? = none → aim m k) :
    Leads me aim n (At (fun w => Alone me p w clock) (Stand (· = env) calls free)) c.make
      fun _ _ => False := by
  have hnone : (c.start env).1 = none := Option.map_eq_none_iff.mp hends
  unfold OutsideCall.make
  refine (leads_onEnv alone_footing c.start).follow (l := n) ?_
  refine leads_at fun w hw => ?_
  simp only [hnone]
  refine (leads_hang hp fun m k hk => haim m k ?_).never
  exact hk.symm ▸ hw.anywhere

/-! ### Runtimes -/

/-- What runtimes do, given the language, the code and the timeout. -/
abbrev Conduct (ω : Type) : Type :=
  Language → (code : Text) → (timeout : Binary64) → OutsideCall ω RunResult

/-- A runtime for each language.  None of them looks at the bindings. -/
def Conduct.runtimes (b : Conduct ω) : Runtimes ω :=
  Language.all.map fun l => (l, fun code _ timeout => (b l code timeout).make)

theorem Conduct.lookup_watched (b : Conduct ω) (i : Nat) (l : Language) :
    (watched i b.runtimes).lookup l = some (fun code bindings timeout => do
      Action.note (.entered i ⟨l, code, bindings, timeout⟩)
      (b l code timeout).make) := by
  cases l <;> rfl

/-! ### The pool -/

theorem comesTo_acquire {w : World ω} (hw : w.slots = ⟨free, []⟩) (hfree : free ≠ 0) :
    ComesTo (slotPlace.acquire : Action ω Unit) w (.ok ()) { w with slots := ⟨free - 1, []⟩ } := by
  refine (comesTo_gets _ _).bind ?_
  rw [show slotPlace.get w = ⟨free, []⟩ from hw]
  refine (comesTo_pure false w).bind ?_
  simp only [hfree, decide_false, Bool.or_self, Bool.false_eq_true, if_false]
  have hchange := comesTo_modify (ν := Product)
    (fun w : World ω => slotPlace.set { slotPlace.get w with free := (slotPlace.get w).free - 1 } w) w
  rw [show slotPlace.get w = ⟨free, []⟩ from hw] at hchange
  exact hchange

theorem comesTo_release {w : World ω} (hw : w.slots = ⟨free - 1, []⟩) :
    ComesTo (slotPlace.release : Action ω Unit) w (.ok ()) { w with slots := ⟨free, []⟩ } := by
  have hchange := comesTo_modify (ν := Product)
    (fun w : World ω => slotPlace.set { slotPlace.get w with free := (slotPlace.get w).free + 1 } w) w
  rw [show slotPlace.get w = ⟨free - 1, []⟩ from hw] at hchange
  simp only [sub_add_cancel] at hchange
  exact hchange.bind ((comesTo_gets _ _).bind ((comesTo_pure none _).bind (comesTo_pure () _)))

theorem leads_acquire (hS : Footing S) (hfree : free ≠ 0) :
    Leads me aim 0 (At S (Stand E calls free)) slotPlace.acquire fun r k =>
      r = .ok () ∧ At S (Stand E calls (free - 1)) k :=
  leads_brings hS fun _ h => ⟨_, comesTo_acquire h.slots hfree, h.env, h.calls, rfl⟩

theorem leads_release (hS : Footing S) :
    Leads me aim 0 (At S (Stand E calls (free - 1))) slotPlace.release fun r k =>
      r = .ok () ∧ At S (Stand E calls free) k :=
  leads_brings hS fun _ h => ⟨_, comesTo_release h.slots, h.env, h.calls, rfl⟩

theorem leads_changeActive (hS : Footing S) (f : Nat → Nat) :
    Leads me aim 0 (At S (Stand E calls free)) (changeActive f) fun r k =>
      r = .ok () ∧ At S (Stand E calls free) k :=
  leads_modify hS fun _ h => h.same rfl rfl rfl

/-- What is done with a slot held. -/
theorem leads_withSlot (hS : Footing S) (hS' : Footing S') (hfree : free ≠ 0)
    {run : Action ω RunResult} {r : Ending RunResult}
    (hrun : Leads me aim n (At S (Stand E calls (free - 1))) run fun r' k =>
      r' = r ∧ At S' (Stand (fun _ => True) calls' (free - 1)) k) :
    Leads me aim n (At S (Stand E calls free)) (withSlot run) fun r' k =>
      r' = r ∧ At S' (Stand (fun _ => True) calls' free) k := by
  have hattempt : Leads me aim n (At S (Stand E calls (free - 1))) (Act.attempt run) fun r' k =>
      r' = .ok r ∧ At S' (Stand (fun _ => True) calls' (free - 1)) k :=
    (hrun.weaken (fun _ h => h) fun r' k h => ⟨congrArg Except.ok h.1, h.2⟩).attempt
  refine (leads_acquire hS hfree).follow (l := n) ?_
  refine (leads_changeActive hS _).follow (l := n) ?_
  rw [← Nat.zero_add n]
  refine hattempt.follow (l := 0) ?_
  refine (leads_changeActive hS' _).follow (l := 0) ?_
  refine (leads_release hS').follow (l := 0) ?_
  exact leads_ofEnding fun k hk => ⟨rfl, hk⟩

/-- **A runtime is called** once, with the code and the timeout, and the call is noted. -/
theorem leads_execute (hS : Footing S) (hS' : Footing S') (hfree : free ≠ 0) {b : Conduct ω} {i : Nat}
    {l : Language} {code : Text} {bindings : Json} {timeout : Binary64} {r : Ending RunResult}
    (hmake : Leads me aim n (At S (Stand E (⟨l, code, bindings, timeout⟩ :: calls) (free - 1)))
      (b l code timeout).make fun r' k =>
        r' = r ∧ At S' (Stand (fun _ => True) (⟨l, code, bindings, timeout⟩ :: calls) (free - 1)) k) :
    Leads me aim n (At S (Stand E calls free))
      (execute (watched i b.runtimes) l code bindings timeout) fun r' k =>
        r' = r ∧ At S' (Stand (fun _ => True) (⟨l, code, bindings, timeout⟩ :: calls) free) k := by
  unfold execute
  rw [b.lookup_watched]
  refine leads_withSlot hS hS' hfree ?_
  have hnote : Leads me aim 0 (At S (Stand E calls (free - 1)))
      (Action.note (.entered i ⟨l, code, bindings, timeout⟩)) fun r k =>
        r = .ok () ∧ At S (Stand E (⟨l, code, bindings, timeout⟩ :: calls) (free - 1)) k :=
    leads_modify hS fun w h => ⟨h.env, h.calls ▸ List.filterMap_cons_some rfl, h.slots⟩
  exact hnote.follow hmake

/-! ### The work on a message -/

/-- An engine with the default limits but for the timeout of scripts, whose registry lists one
command. -/
def serving (timeout : Binary64) (c : Command) (sigil : Option Text) (b : Conduct ω) (clock : ω → Rat) :
    Setup ω where
  config := { timeout }
  registry := { commands := fun _ => pure [c], sigil := some fun _ => pure sigil }
  runtimes := b.runtimes
  review := fun label code =>
    .ok (({ maxBytes := ({ timeout } : Config).maxCodeBytes } : Reviewer).examine label code)
  reply := none
  audit := none
  clock

variable {timeout : Binary64} {c : Command} {sigil : Option Text} {b : Conduct ω} {watch : ω → Rat}
  {m : Message} {l : Language} {i : Nat} {q : Ending (Option RunResult)}
  {mid : Scheduler (World ω) Product → Prop}

theorem two_toRat? : (Binary64.ofInt 2).toRat? = some 2 := by decide +kernel

theorem leads_readRegistry (hS : Unmoved me clock S) (hdue : ¬ Due clock (Binary64.snap (clock + 2)))
    (tenant : Text) : Leads me aim 0 (At S (Stand E calls free))
      (readRegistry (serving timeout c sigil b watch) i tenant) fun r k =>
        r = .ok ([c], sigil) ∧ At S (Stand E calls free) k := by
  refine Leads.recover (leads_at fun w hw => ?_)
  have hread : ComesTo (do
      let commands ← pure [c]
      let sigil ← pure sigil
      Action.note (.listed i tenant commands sigil)
      pure (commands, sigil) : Action ω (List Command × Option Text)) w (.ok ([c], sigil))
        { w with deeds := .listed i tenant [c] sigil :: w.deeds } :=
    (comesTo_pure _ _).bind ((comesTo_pure _ _).bind ((comesTo_modify _ _).bind (comesTo_pure _ _)))
  rw [show (serving timeout c sigil b watch).config.registryTimeout.toRat? = some 2 from two_toRat?]
  refine (leads_within hS hread hdue).weaken (fun _ h => h) fun r k h => ⟨h.1, _, ?_, h.2⟩
  exact hw.same rfl (List.filterMap_cons_none rfl) rfl

theorem leads_reserve (hS : Footing S) (hcool : c.cooldownMs = 0) (e : Setup ω) :
    Leads me aim 0 (At S (Stand E calls free)) (reserve e m c) fun r k =>
      ∃ d, r = .ok d ∧ ((d.1.allowed = true ∧ ∃ reservation, d.2 = some reservation) ∧
        At S (Stand E calls free) k) := by
  refine leads_at fun w hw => (leads_comesTo hS (comesTo_change _ w)).weaken (fun _ h => h) ?_
  rintro r k ⟨rfl, hk⟩
  have hgranted : ∀ l : Cooldown.Limiter, ∀ now, ∃ l' reservation, l.reserve e.cooldowns
      (cooldownKey m c) c.cooldownMs now = (l', ⟨true, 0⟩, some reservation) :=
    fun l now => ⟨_, _, if_pos (le_of_eq hcool)⟩
  obtain ⟨l, reservation, heq⟩ := hgranted w.limiter (e.clock w.env)
  simp only [heq] at hk ⊢
  refine ⟨_, rfl, ⟨rfl, reservation, rfl⟩, _, ?_, hk⟩
  exact hw.same rfl (List.filterMap_cons_none rfl) rfl

theorem leads_of_fact {α : Type} {P : Prop} {pre : Scheduler (World ω) Product → Prop} {x : Action ω α}
    {post : Ending α → Scheduler (World ω) Product → Prop} (h : P → Leads me aim n pre x post) :
    Leads me aim n (fun k => P ∧ pre k) x post :=
  fun next m k hk hnext => h hk.1 next m k hk.2 hnext

/-- The work is over, and its progress is that of a granted run. -/
def Staging (c : Command) (q : Ending (Option RunResult)) (r : Ending Staged) : Prop :=
  ∃ reservation, r = .ok (⟨some c, some reservation, 0⟩, q)

/-- Such work comes to a value. -/
theorem leads_staged {pre : Scheduler (World ω) Product → Prop} {x : Action ω Staged}
    (h : Leads me aim n pre x fun r k => Staging c q r ∧ mid k) :
    Leads me aim n pre x fun r k => ∃ s, r = .ok s ∧ (Staging c q (.ok s) ∧ mid k) :=
  h.weaken (fun _ h => h) fun _ _ ⟨⟨reservation, hr⟩, hk⟩ => ⟨_, hr, ⟨reservation, rfl⟩, hk⟩

/-- A message that fires the command comes to the review. -/
theorem leads_work (hS : Unmoved me clock S) (hdue : ¬ Due clock (Binary64.snap (clock + 2)))
    (hcool : c.cooldownMs = 0)
    (hfirst : matched? (serving timeout c sigil b watch) m [c] sigil = some c)
    (hreview : ∀ reservation, Leads me aim n (At S (Stand E calls free))
      (reviewThen (serving timeout c sigil b watch) i m c (some reservation)) fun r k =>
        Staging c q r ∧ mid k) :
    Leads me aim n (At S (Stand E calls free)) (work (serving timeout c sigil b watch) i m)
      fun r k => Staging c q r ∧ mid k := by
  have hread : Leads me aim 0 (At S (Stand E calls free))
      (Act.attempt (readRegistry (serving timeout c sigil b watch) i m.tenant)) fun r k =>
        r = .ok (.ok ([c], sigil)) ∧ At S (Stand E calls free) k :=
    ((leads_readRegistry hS hdue m.tenant).weaken (fun _ h => h)
      fun r k h => ⟨congrArg Except.ok h.1, h.2⟩).attempt
  unfold work
  refine hread.follow (l := n) ?_
  simp only [hfirst]
  refine (leads_note hS.toFooting rfl).follow (l := n) ?_
  unfold requestRun
  refine (leads_reserve hS.toFooting hcool _).bind (l := n) ?_
  rintro ⟨d, r⟩
  refine leads_of_fact ?_
  rintro ⟨hallowed, reservation, rfl⟩
  have hallowed : d.allowed = true := hallowed
  simp only [hallowed, if_true]
  exact hreview reservation

/-- Code that the review refuses is not run. -/
theorem leads_reviewThen_refused (hS : Footing S) {e : Setup ω} {records : List LogRecord} {v : Verdict}
    (hreview : e.review c.language c.code = .ok (records, v)) (hv : v.ok = false)
    (reservation : Cooldown.Reservation) :
    Leads me aim 0 (At S (Stand E calls free)) (reviewThen e i m c (some reservation)) fun r k =>
      Staging c (.ok (some (rejected v))) r ∧ At S (Stand E calls free) k := by
  unfold reviewThen
  rw [hreview]
  refine (leads_logAll hS records).follow (l := 0) ?_
  simp only [hv, Bool.false_eq_true, if_false]
  refine (leads_log hS _ _ _ _).follow (l := 0) ?_
  exact leads_pure fun k hk => ⟨⟨reservation, rfl⟩, hk⟩

/-- Code that passes the review is run. -/
theorem leads_reviewThen_accepted (hS : Footing S) {e : Setup ω} {records : List LogRecord}
    {v : Verdict} (hreview : e.review c.language c.code = .ok (records, v)) (hv : v.ok = true)
    (hl : runtimeLanguage? e c = some l) {r : Ending RunResult}
    (hrun : Leads me aim n (At S (Stand E calls free)) (run e i m c l) fun r' k => r' = r ∧ mid k)
    (reservation : Cooldown.Reservation) :
    Leads me aim n (At S (Stand E calls free)) (reviewThen e i m c (some reservation)) fun r' k =>
      Staging c (r.map some) r' ∧ mid k := by
  have hattempt : Leads me aim n (At S (Stand E calls free)) (Act.attempt (run e i m c l)) fun r' k =>
      r' = .ok r ∧ mid k :=
    (hrun.weaken (fun _ h => h) fun r' k h => ⟨congrArg Except.ok h.1, h.2⟩).attempt
  unfold reviewThen
  rw [hreview]
  refine (leads_logAll hS records).follow (l := n) ?_
  simp only [hv, if_true]
  unfold start
  rw [hl]
  have hcommit : Leads me aim 0 (At S (Stand E calls free)) (commit e reservation) fun r k =>
      r = .ok () ∧ At S (Stand E calls free) k :=
    leads_modify hS fun _ h => h.same rfl (List.filterMap_cons_none rfl) rfl
  refine hcommit.follow (l := n) ?_
  refine (leads_note hS rfl).follow (l := n) ?_
  rw [← Nat.zero_add n]
  refine hattempt.follow (l := 0) ?_
  exact leads_pure fun k hk => ⟨⟨reservation, rfl⟩, hk⟩

/-! ### The deadline -/

/-- A stage that ends before the deadline. -/
theorem leads_bounded {d : Rat} {P P' : World ω → Prop} {clock' : Rat}
    (hdue : ¬ Due clock (Binary64.snap (clock + d))) (hp : ¬ p.rung)
    (hlate : ∀ t, p.late (Binary64.snap (clock + d), t)) {stage : Action ω Staged}
    (hstage : Leads me aim n (At (fun w => Alone me p w clock) P) stage fun r k =>
      Staging c q r ∧ At (fun w => Alone me p w clock') P' k) :
    Leads me aim n (At (fun w => Alone me p w clock) P) (bounded (some d) stage) fun r k =>
      Staging c q r ∧ At (fun w => Alone me p w clock') P' k := by
  have hset : Leads me aim 0 (At (fun w => Alone me p w clock) P) (Act.call (.setAlarm d)) fun r k =>
      ∃ a, r = .ok a ∧ At (fun w => Alone me p w clock) P k :=
    leads_at fun w hw => (leads_setAlarm hdue hlate).weaken (fun _ h => h)
      fun r k ⟨a, hr, hk⟩ => ⟨a, hr, w, hw, hk⟩
  have hdrop : ∀ a, Leads me aim 0 (At (fun w => Alone me p w clock') P')
      (Act.call (.dropAlarm a)) fun r k => r = .ok false ∧ At (fun w => Alone me p w clock') P' k :=
    fun a => leads_at fun w hw => leads_dropAlarm.weaken (fun k hk => armed_silent hp hk a)
      fun r k h => ⟨h.1, w, hw, h.2⟩
  unfold bounded
  refine hset.bind (l := n) fun a => ?_
  rw [← Nat.zero_add n]
  refine (leads_staged hstage).bind fun s => leads_of_fact ?_
  rintro ⟨reservation, hs⟩
  cases hs
  refine (hdrop a).follow (l := 0) ?_
  exact leads_pure fun k hk => ⟨⟨reservation, rfl⟩, hk⟩

/-- A stage that the deadline cuts short. -/
theorem leads_bounded_cut {d : Rat} {P P' : World ω → Prop}
    (hdue : ¬ Due clock (Binary64.snap (clock + d))) {stage : Action ω Staged}
    (hstage : ∀ a t, Leads me aim n (At (Supervised me a t (Binary64.snap (clock + d)) clock) P) stage
      fun r k => Staging c (.error .interrupted) r ∧ At (Expired me a) P' k) :
    Leads me aim n (At (fun w => Alone me ⟨fun _ => False, False⟩ w clock) P) (bounded (some d) stage)
      fun r k => Staging c (.error (.fault (.of .timeout []))) r ∧
        ∃ clock', At (fun w => Alone me spent w clock') P' k := by
  have hset : Leads me aim 0 (At (fun w => Alone me ⟨fun _ => False, False⟩ w clock) P)
      (Act.call (.setAlarm d)) fun r k => ∃ a, r = .ok a ∧ ∃ t,
        At (Supervised me a t (Binary64.snap (clock + d)) clock) P k :=
    leads_at fun w hw => (leads_supervise hdue).weaken (fun _ h => h)
      fun r k ⟨a, hr, t, hk⟩ => ⟨a, hr, t, w, hw, hk⟩
  have hdrop : ∀ a, Leads me aim 0 (At (Expired me a) P') (Act.call (.dropAlarm a)) fun r k =>
      r = .ok true ∧ ∃ clock', At (fun w => Alone me spent w clock') P' k := by
    rintro a next m k ⟨w, hw, clock', hk⟩ hnext
    exact leads_dropAlarm next m k hk fun r k' h => hnext r k' ⟨h.1, clock', w, hw, h.2⟩
  unfold bounded
  refine hset.bind (l := n) fun a => ?_
  rw [← Nat.zero_add n]
  rintro next j k ⟨t, hk⟩ hnext
  refine (leads_staged (hstage a t)).bind (fun s => leads_of_fact ?_) next j k hk hnext
  rintro ⟨reservation, hs⟩
  cases hs
  refine (hdrop a).follow (l := 0) ?_
  exact leads_pure fun k hk => ⟨⟨reservation, rfl⟩, hk⟩

end Engine

end ChatCommands
