import ChatCommands.Proofs.Concurrency.Reachable
import ChatCommands.Proofs.Engine.Ledger

/-!
Runs of a command by an author are a cooldown apart.

Whatever messages an engine handles at the same time and whatever its collaborators do, the books of
the cooldowns balance whenever no task has its turn: between two waits of a task a reservation is
made and either committed or released.  So in every reachable state the runs of a key that the pool
was asked for were admitted at least a cooldown apart.  Main statement: `runs_apart`.
-/

namespace ChatCommands.Engine

open Concurrency Cooldown Act

variable {ω : Type} {e : Setup ω} {key : Key} {cooldownMs : Int}

/-- The history is regular as to an engine. -/
abbrev Setup.Regular (e : Setup ω) (key : Key) (cooldownMs : Int) (deeds : List Deed) : Prop :=
  Engine.Regular e.config.cooldownMaxEntries key cooldownMs deeds

/-- The books balance if the history is regular. -/
def Books (e : Setup ω) (key : Key) (cooldownMs : Int) (flying : Option Reservation) (l : Ledger) :
    Prop :=
  e.Regular key cooldownMs l.deeds → Balanced e.cooldowns key cooldownMs flying l

/-- The books balance, with nothing in flight, and deeds are only added. -/
def cooldownRegime (e : Setup ω) (key : Key) (cooldownMs : Int) : Regime (World ω) where
  holds w := Books e key cooldownMs none w.ledger
  may w w' := w.ledger.deeds <:+ w'.ledger.deeds
  meanwhile w w' := w.ledger.deeds <:+ w'.ledger.deeds
  refl _ := List.suffix_refl _
  trans := List.IsSuffix.trans

theorem about_ledger (P : Ledger → Prop) :
    About (World.ledger : World ω → Ledger) fun w => P w.ledger := by
  intro w w' h hP
  rwa [h] at hP

theorem cooldownRegime_about : (cooldownRegime e key cooldownMs).About World.ledger where
  holds := about_ledger (Books e key cooldownMs none)
  may w w' h := by
    change w.ledger.deeds <:+ w'.ledger.deeds
    rw [h]

/-- What leaves the cooldowns alone keeps the books balanced, also while it waits. -/
theorem preserves_of_cooldownFree {α : Type} {x : Action ω α} (h : CooldownFree x) :
    Preserves (cooldownRegime e key cooldownMs) (cooldownRegime e key cooldownMs).holds x :=
  h _ _ cooldownRegime_about cooldownRegime_about.holds (Regime.stable_holds _)

/-! ### From one deed to the next -/

/-- The reservation was granted just now; without a cooldown it has left no trace. -/
def Admitted (e : Setup ω) (key : Key) (cooldownMs : Int) (m : Message) (c : Command)
    (r : Reservation) (l : Ledger) : Prop :=
  .asked m c r.issued (some r) ∈ l.deeds ∧
    (Books e key cooldownMs (some r) l ∨ r.cooldownMs ≤ 0 ∧
      (e.Regular key cooldownMs l.deeds → r.key ≠ key) ∧ Books e key cooldownMs none l)

/-- The reservation was committed just now. -/
def Committed (e : Setup ω) (key : Key) (cooldownMs : Int) (m : Message) (c : Command)
    (r : Reservation) (l : Ledger) : Prop :=
  .asked m c r.issued (some r) ∈ l.deeds ∧ Books e key cooldownMs none l ∧
    (e.Regular key cooldownMs l.deeds → Owed key l r)

/-- Nothing is in flight but, maybe, the reservation of the progress. -/
def Settleable (e : Setup ω) (key : Key) (cooldownMs : Int) (p : Progress) (l : Ledger) : Prop :=
  Books e key cooldownMs none l ∨
    ∃ r, p.reservation = some r ∧ Books e key cooldownMs (some r) l

section

variable {l : Ledger} {m : Message} {c : Command} {r : Reservation} {d : Deed} {now : Rat}

theorem suffix_cons (d : Deed) (ds : List Deed) : ds <:+ d :: ds := List.suffix_cons d ds

theorem Regular.tail {maxEntries : Int} {deeds : List Deed}
    (h : Engine.Regular maxEntries key cooldownMs (d :: deeds)) :
    Engine.Regular maxEntries key cooldownMs deeds :=
  h.of_sublist (List.sublist_cons_self d deeds)

/-- The last reading of the clock is not before the others. -/
theorem Regular.le_head {maxEntries : Int} {deeds : List Deed}
    (h : Engine.Regular maxEntries key cooldownMs (d :: deeds)) (hd : readAt? d = some now) :
    now ∈ (d :: deeds).filterMap readAt? ∧ ∀ t ∈ (d :: deeds).filterMap readAt?, t ≤ now := by
  have hsorted := h.sorted
  rw [List.filterMap_cons_some hd] at hsorted ⊢
  refine ⟨List.mem_cons_self, fun t ht => ?_⟩
  rcases List.mem_cons.mp ht with rfl | ht
  · exact le_rfl
  · exact (List.pairwise_cons.mp hsorted).1 t ht

/-- What the limiter answers, as to the books. -/
def AnswerOk (e : Setup ω) (key : Key) (cooldownMs : Int) (m : Message) (c : Command) (l : Ledger)
    (d : Decision) (r : Option Reservation) : Prop :=
  if d.allowed then
    ∃ r', r = some r' ∧ r'.key = cooldownKey m c ∧ Admitted e key cooldownMs m c r' l
  else Books e key cooldownMs none l

theorem Books.reserve (h : Books e key cooldownMs none l) (hC : 0 < cooldownMs) {limiter : Limiter}
    {answer : Decision} {reservation : Option Reservation}
    (hreserve : l.limiter.reserve e.cooldowns (cooldownKey m c) c.cooldownMs now =
      (limiter, answer, reservation)) :
    AnswerOk e key cooldownMs m c ⟨limiter, .asked m c now reservation :: l.deeds⟩
      answer reservation := by
  by_cases hfree : c.cooldownMs ≤ 0
  · rw [Limiter.reserve_of_nonpos hfree] at hreserve
    cases hreserve
    refine ⟨_, rfl, rfl, List.mem_cons_self, .inr ⟨le_rfl, fun hreg => ?_, fun hreg => ?_⟩⟩
    · rintro rfl
      have hpaid := hreg.constant m c _ _ List.mem_cons_self rfl
      omega
    · exact (h hreg.tail).read rfl rfl rfl rfl
  · have hpaid : 0 < c.cooldownMs := not_le.mp hfree
    cases hallowed : (Limiter.decisionOn e.cooldowns (l.limiter.table.get? (cooldownKey m c))
        c.cooldownMs now).allowed with
    | false =>
      rw [Limiter.reserve_of_denied hpaid hallowed] at hreserve
      cases hreserve
      simp only [AnswerOk, hallowed, Bool.false_eq_true, if_false]
      exact fun hreg => (h hreg.tail).read rfl rfl rfl rfl
    | true =>
      rw [Limiter.reserve_of_allowed hpaid hallowed] at hreserve
      cases hreserve
      simp only [AnswerOk, hallowed, if_true]
      refine ⟨_, rfl, rfl, List.mem_cons_self, .inl fun hreg => ?_⟩
      have hgap : Orderly e.cooldowns.gap IsReading := elapsed_orderly
      obtain ⟨hmem, hlast⟩ := hreg.le_head rfl
      have hread : Balanced e.cooldowns key cooldownMs none ⟨l.limiter, .asked m c now
          (some ⟨cooldownKey m c, c.cooldownMs, now, l.limiter.granted⟩) :: l.deeds⟩ :=
        (h hreg.tail).read rfl rfl rfl rfl
      exact hread.grant hgap hC hreg hmem hlast
        (List.mem_filterMap.mpr ⟨_, List.mem_cons_self, if_pos hpaid⟩) hpaid
        (fun hkey => hreg.constant m c _ _ List.mem_cons_self (congrArg Key.command hkey)) hallowed

theorem Admitted.commit (h : Admitted e key cooldownMs m c r l) :
    Committed e key cooldownMs m c r
      ⟨l.limiter.commitReservation e.cooldowns r, .committed r :: l.deeds⟩ := by
  obtain ⟨hasked, hflying | ⟨hfree, hkey, hbooks⟩⟩ := h
  · exact ⟨List.mem_cons_of_mem _ hasked, fun hreg => ((hflying hreg.tail).commit hreg.tail).1,
      fun hreg => ((hflying hreg.tail).commit hreg.tail).2⟩
  · rw [Limiter.commitReservation, if_pos hfree]
    refine ⟨List.mem_cons_of_mem _ hasked, fun hreg => ?_, fun hreg heq =>
      absurd heq (hkey hreg.tail)⟩
    have hbooks' := hbooks hreg.tail
    refine hbooks'.note rfl rfl (if_neg (hkey hreg.tail)) ?_ nofun
    rw [List.filterMap_cons_none rfl]
    exact hbooks'.runs

theorem Committed.run (h : Committed e key cooldownMs m c r l) (hkey : cooldownKey m c = r.key) :
    Books e key cooldownMs none ⟨l.limiter, .started m c (some r) :: l.deeds⟩ := by
  obtain ⟨hasked, hbooks, howed⟩ := h
  exact fun hreg => (hbooks hreg.tail).run hkey (howed hreg.tail) ⟨r, rfl, hasked⟩

theorem Admitted.settleable (h : Admitted e key cooldownMs m c r l) :
    Settleable e key cooldownMs ⟨some c, some r, 0⟩ l := by
  obtain ⟨-, hflying | ⟨-, -, hbooks⟩⟩ := h
  · exact .inr ⟨r, rfl, hflying⟩
  · exact .inl hbooks

theorem Settleable.release {p : Progress} (h : Settleable e key cooldownMs p l)
    (hr : p.reservation = some r) :
    Books e key cooldownMs none ⟨l.limiter.release r, .released r :: l.deeds⟩ := by
  intro hreg
  rcases h with hbooks | ⟨r', hr', hflying⟩
  · exact (hbooks hreg.tail).release_none r
  · cases hr.symm.trans hr'
    exact (hflying hreg.tail).release

theorem Books.prune (h : Books e key cooldownMs none l) (hC : 0 < cooldownMs)
    (hgrace : 1 ≤ e.config.cooldownGraceWindows) :
    Books e key cooldownMs none
      ⟨l.limiter.prune e.cooldowns now, .pruned now :: l.deeds⟩ := by
  intro hreg
  have hgap : Orderly e.cooldowns.gap IsReading := elapsed_orderly
  have hread : Balanced e.cooldowns key cooldownMs none ⟨l.limiter, .pruned now :: l.deeds⟩ :=
    (h hreg.tail).read rfl rfl rfl rfl
  obtain ⟨hmem, hlast⟩ := hreg.le_head rfl
  exact hread.prune hgap hC hgrace hreg hmem hlast

end

/-! ### The work on a message -/

section

variable {n : Nat} {m : Message} {c : Command} {r : Reservation}

/-- What the work on a message comes to, as to the books. -/
def StagedOk (e : Setup ω) (key : Key) (cooldownMs : Int) (l : Ledger) : Ending Staged → Prop
  | .ok (p, _) => Settleable e key cooldownMs p l
  | .error _ => Books e key cooldownMs none l

/-- From a state with `pre` the work on a message leaves at most its reservation in flight. -/
abbrev Works (e : Setup ω) (key : Key) (cooldownMs : Int) (pre : Ledger → Prop)
    (x : Action ω Staged) : Prop :=
  Meets (cooldownRegime e key cooldownMs) (fun w => pre w.ledger) x fun r w =>
    StagedOk e key cooldownMs w.ledger r

/-- Writing log records does not fail and leaves the cooldowns as they are. -/
theorem meets_written (P : Ledger → Prop) {f : World ω → World ω}
    (hf : ∀ w, (f w).ledger = w.ledger) :
    Meets (cooldownRegime e key cooldownMs) (fun w => P w.ledger) (modify f : Action ω Unit)
      fun r w => r = .ok () ∧ P w.ledger := by
  refine meets_change (fun w _ => ?_) fun w hw => ⟨rfl, ?_⟩
  · change w.ledger.deeds <:+ (f w).ledger.deeds
    rw [hf]
  · change P (f w).ledger
    rwa [hf]

/-- After a log record the work goes on. -/
theorem Works.after_log {P : Ledger → Prop} {f : World ω → World ω} {x : Action ω Staged}
    (hf : ∀ w, (f w).ledger = w.ledger) (hx : Works e key cooldownMs P x) :
    Works e key cooldownMs P (do modify f; x) :=
  meets_bind (meets_written P hf) (fun _ => hx.weaken (fun _ h => h.2) fun _ _ h => h)
    fun _ _ h => nomatch h.1

/-- Work that has come to its end. -/
theorem works_pure {P : Ledger → Prop} {p : Progress} {r : Ending (Option RunResult)}
    (hp : ∀ l, P l → Settleable e key cooldownMs p l) :
    Works e key cooldownMs P (pure (p, r)) :=
  fun _ _ w hw hk => hk _ w (hp _ hw)

theorem works_start (he : e.Confined) (hkey : cooldownKey m c = r.key) :
    Works e key cooldownMs (Admitted e key cooldownMs m c r) (start e n m c (some r)) := by
  unfold start
  split
  · exact Works.after_log (fun _ => rfl) (works_pure fun _ h => h.settleable)
  · rename_i l hl
    have hcommit : Meets (cooldownRegime e key cooldownMs)
        (fun w : World ω => Admitted e key cooldownMs m c r w.ledger) (commit e r)
        fun _ w => Committed e key cooldownMs m c r w.ledger :=
      meets_change (fun w _ => suffix_cons _ _) fun w h => h.commit
    have hnote : Meets (cooldownRegime e key cooldownMs)
        (fun w : World ω => Committed e key cooldownMs m c r w.ledger)
        (Action.note (.started m c (some r))) fun _ w => Books e key cooldownMs none w.ledger :=
      meets_change (fun w _ => suffix_cons _ _) fun w h => h.run hkey
    have hrun : Preserves (cooldownRegime e key cooldownMs) _ (attempt (run e n m c l)) :=
      preserves_of_cooldownFree (leaves_attempt (cooldownFree_run he n m c l))
    exact meets_bind hcommit (fun _ => meets_bind hnote (fun _ => meets_bind hrun
      (fun _ => works_pure fun _ h => .inl h) fun _ _ h => h) fun _ _ h => h) fun _ _ h => h.2.1

theorem works_reviewThen (he : e.Confined) (hkey : cooldownKey m c = r.key) :
    Works e key cooldownMs (Admitted e key cooldownMs m c r) (reviewThen e n m c (some r)) := by
  unfold reviewThen
  split
  · exact works_pure fun _ h => h.settleable
  · refine Works.after_log (fun _ => rfl) ?_
    split
    · exact works_start he hkey
    · exact Works.after_log (fun _ => rfl) (works_pure fun _ h => h.settleable)

theorem works_requestRun (he : e.Confined) (hC : 0 < cooldownMs) :
    Works e key cooldownMs (Books e key cooldownMs none) (requestRun e n m c) := by
  have hreserve : Meets (cooldownRegime e key cooldownMs)
      (fun w : World ω => Books e key cooldownMs none w.ledger) (reserve e m c)
      fun r w => ∃ d r', r = .ok (d, r') ∧ AnswerOk e key cooldownMs m c w.ledger d r' :=
    meets_change (fun w _ => suffix_cons _ _) fun w h => ⟨_, _, rfl, h.reserve hC rfl⟩
  refine meets_bind hreserve (fun answer k Q w hw hk => ?_) fun _ _ h => by simp at h
  obtain ⟨d, reservation, heq, hanswer⟩ := hw
  cases heq
  unfold AnswerOk at hanswer
  simp only []
  split
  · rename_i hallowed
    rw [if_pos hallowed] at hanswer
    obtain ⟨r, rfl, hkey, hadmitted⟩ := hanswer
    exact works_reviewThen he hkey.symm k Q w hadmitted hk
  · rename_i hdenied
    rw [if_neg hdenied] at hanswer
    refine Works.after_log ?_ (works_pure fun _ h => .inl h) k Q w hanswer hk
    exact fun _ => rfl

theorem works_work (he : e.Confined) (hC : 0 < cooldownMs) :
    Works e key cooldownMs (Books e key cooldownMs none) (work e n m) := by
  refine meets_bind (preserves_of_cooldownFree (leaves_attempt
    (cooldownFree_readRegistry he n m.tenant)))
    (fun answer => ?_) fun _ _ h => h
  cases answer with
  | error f => exact works_pure fun _ h => .inl h
  | ok known =>
    simp only []
    split
    · exact works_pure fun _ h => .inl h
    · exact Works.after_log (fun _ => by simp [World.ledger, Deed.aboutCooldowns])
        (works_requestRun he hC)

theorem Works.bounded {P : Ledger → Prop} {x : Action ω Staged} (hx : Works e key cooldownMs P x)
    (limit : Option Rat) : Works e key cooldownMs P (bounded limit x) := by
  cases limit with
  | none => exact hx
  | some d =>
    intro k Q w hw hk alarm
    refine hx _ Q w hw fun r w' hr => ?_
    cases r with
    | error f => exact hk _ w' hr
    | ok staged =>
      obtain ⟨p, r⟩ := staged
      intro expired
      match expired, r with
      | true, .error .interrupted => exact hk _ w' hr
      | true, .error (.fault _) | true, .ok _ | false, _ => exact hk _ w' hr

theorem meets_release (p : Progress) :
    Meets (cooldownRegime e key cooldownMs) (fun w => Settleable e key cooldownMs p w.ledger)
      (release p.reservation : Action ω Unit) fun _ => (cooldownRegime e key cooldownMs).holds := by
  cases hr : p.reservation with
  | none =>
    refine (preserves_pure ()).weaken (fun w h => ?_) fun _ _ h => h
    rcases h with hbooks | ⟨r, hr', -⟩
    · exact hbooks
    · simp [hr] at hr'
  | some r => exact meets_change (fun w _ => suffix_cons _ _) fun w h => h.release hr

/-- After the work on a message its reservation is given back. -/
theorem meets_settle_release (m : Message) (p : Progress) (r : Ending (Option RunResult)) :
    Meets (cooldownRegime e key cooldownMs) (fun w => Settleable e key cooldownMs p w.ledger)
      (ensuring (settle e m p r) (release p.reservation))
      fun _ => (cooldownRegime e key cooldownMs).holds := by
  have hsettle : Preserves (cooldownRegime e key cooldownMs) _ (settle e m p r) :=
    quiet_settle m p r _ _ cooldownRegime_about (about_ledger (Settleable e key cooldownMs p))
  have hattempt : Meets (cooldownRegime e key cooldownMs) _ (attempt (settle e m p r))
      fun r' w => (∃ a, r' = .ok a) ∧ Settleable e key cooldownMs p w.ledger :=
    meets_attempt (hsettle.weaken (fun _ h => h) fun a _ h => ⟨⟨a, rfl⟩, h⟩)
  exact meets_bind hattempt (fun _ => meets_bind ((meets_release p).weaken (fun _ h => h.2)
    fun _ _ h => h) (fun _ => preserves_ofEnding _) fun _ _ h => h) fun _ _ h => by simp at h

/-- **Handling a message** keeps the books balanced at each of its waits. -/
theorem preserves_handle (he : e.Confined) (hC : 0 < cooldownMs) (m : Message) :
    Preserves (cooldownRegime e key cooldownMs) (cooldownRegime e key cooldownMs).holds
      (handle e m) := by
  refine preserves_bind (preserves_of_cooldownFree (cooldownFree_receive m)) fun taken =>
    preserves_ite ?_ (preserves_ite ?_ ?_)
  · exact preserves_bind (preserves_of_cooldownFree cooldownFree_log) fun _ => preserves_pure none
  · exact preserves_pure none
  · refine meets_bind ((works_work he hC).bounded _) (fun staged => ?_) fun _ _ h => h
    obtain ⟨p, r⟩ := staged
    refine meets_bind (meets_settle_release m p r) (fun r => ?_) fun _ _ h => h
    split
    · exact preserves_bind (preserves_of_cooldownFree (cooldownFree_note rfl)) fun _ =>
        preserves_map (preserves_of_cooldownFree (cooldownFree_closed.conclude he.within.reply he.within.audit _ _ _ _))
    · exact preserves_pure none

end

/-! ### The life of an engine -/

section

variable {α : Type}

theorem preserves_prune (hC : 0 < cooldownMs) (hgrace : 1 ≤ e.config.cooldownGraceWindows) :
    Preserves (cooldownRegime e key cooldownMs) (cooldownRegime e key cooldownMs).holds
      (prune e) := by
  refine preserves_bind (preserves_change (fun w _ => suffix_cons _ _)
    fun w h => Books.prune h hC hgrace) fun counts => ?_
  exact preserves_ite (preserves_bind (preserves_of_cooldownFree cooldownFree_log)
    fun _ => preserves_pure _) (preserves_pure _)

theorem preserves_sweep (hC : 0 < cooldownMs) (hgrace : 1 ≤ e.config.cooldownGraceWindows) :
    Preserves (cooldownRegime e key cooldownMs) (cooldownRegime e key cooldownMs).holds
      (sweep e) :=
  preserves_bind (preserves_sleep (Regime.stable_holds _) _) fun _ =>
    preserves_bind (preserves_prune hC hgrace) fun _ => preserves_pure ()

theorem preserves_dispatch (he : e.Confined) (hC : 0 < cooldownMs) (m : Message) :
    Preserves (cooldownRegime e key cooldownMs) (cooldownRegime e key cooldownMs).holds
      (dispatch e m) := by
  exact preserves_bind (preserves_spawn (Regime.stable_holds _) (preserves_handle he hC m))
    fun t => preserves_of_cooldownFree (cooldownFree_closed.afterDispatch t)

theorem preserves_startSweeper (hC : 0 < cooldownMs)
    (hgrace : 1 ≤ e.config.cooldownGraceWindows) :
    Preserves (cooldownRegime e key cooldownMs) (cooldownRegime e key cooldownMs).holds
      (startSweeper e) := by
  refine preserves_bind (preserves_gets _) fun sweeper => preserves_ite ?_ (preserves_pure ())
  exact preserves_bind (preserves_spawnForever (Regime.stable_holds _)
    (preserves_sweep hC hgrace)) fun t => preserves_of_cooldownFree (cooldownFree_closed.afterStart t)

/-- A task that comes to an engine: one that has the engine do something, or any other that leaves
the cooldowns alone. -/
inductive Setup.Arrival (e : Setup ω) : Task (World ω) Product → Prop
  | handle (toValue : Option Outcome → Product) (m : Message) :
    e.Arrival (toTask toValue (Engine.handle e m))
  | dispatch (toValue : Unit → Product) (m : Message) :
    e.Arrival (toTask toValue (Engine.dispatch e m))
  | prune (toValue : Nat → Product) : e.Arrival (toTask toValue (Engine.prune e))
  | startSweeper (toValue : Unit → Product) :
    e.Arrival (toTask toValue (Engine.startSweeper e))
  | stop (toValue : Unit → Product) : e.Arrival (toTask toValue Engine.stop)
  | other {α : Type} (toValue : α → Product) {x : Action ω α} (hx : CooldownFree x) :
    e.Arrival (toTask toValue x)

theorem Setup.Arrival.keeps (he : e.Confined) (hC : 0 < cooldownMs)
    (hgrace : 1 ≤ e.config.cooldownGraceWindows) {body : Task (World ω) Product}
    (h : e.Arrival body) (w : World ω) (hw : (cooldownRegime e key cooldownMs).holds w) :
    body.Keeps (cooldownRegime e key cooldownMs) w := by
  have hkeeps : ∀ {α : Type} {toValue : α → Product} {x : Action ω α},
      Preserves (cooldownRegime e key cooldownMs) (cooldownRegime e key cooldownMs).holds x →
        (toTask toValue x).Keeps (cooldownRegime e key cooldownMs) w := fun hx =>
    keeps_toTask (Regime.stable_holds _) hx hw hw (Regime.refl _ w)
  cases h with
  | handle toValue m => exact hkeeps (preserves_handle he hC m)
  | dispatch toValue m => exact hkeeps (preserves_dispatch he hC m)
  | prune toValue => exact hkeeps (preserves_prune hC hgrace)
  | startSweeper toValue => exact hkeeps (preserves_startSweeper hC hgrace)
  | stop toValue => exact hkeeps (preserves_of_cooldownFree cooldownFree_closed.stop)
  | other toValue hx => exact hkeeps (preserves_of_cooldownFree hx)

end

/-! ### Runs of an engine -/

/-- The pool was asked to run the command of the key for its author. -/
def IsRun (key : Key) : Deed → Prop
  | .started m c _ => cooldownKey m c = key
  | _ => False

/-- The time at which the limiter has admitted the run that the pool was asked for. -/
def AdmittedAt (deeds : List Deed) (t : Rat) : Deed → Prop
  | .started m c (some r) => r.issued = t ∧ .asked m c t (some r) ∈ deeds
  | _ => False

/-- Any two runs of the key were admitted at least a cooldown apart. -/
def RunsApart (key : Key) (cooldownMs : Int) (deeds : List Deed) : Prop :=
  deeds.Pairwise fun later earlier => IsRun key later → IsRun key earlier →
    ∃ t₁ t₂, AdmittedAt deeds t₁ earlier ∧ AdmittedAt deeds t₂ later ∧
      t₁ ≤ t₂ ∧ (cooldownMs : Rat) ≤ elapsed t₂ t₁

/-- The states that an engine with a new limiter comes to, whatever tasks come to it. -/
abbrev Setup.Reachable (e : Setup ω) : Scheduler (World ω) Product → Prop :=
  Scheduler.Reachable (fun w => w.limiter = {} ∧ w.deeds = []) e.Arrival

theorem filterMap_aboutCooldowns {α : Type} {f : Deed → Option α}
    (hf : ∀ d, d.aboutCooldowns = false → f d = none) (deeds : List Deed) :
    (deeds.filter Deed.aboutCooldowns).filterMap f = deeds.filterMap f := by
  induction deeds with
  | nil => rfl
  | cons d deeds ih =>
    cases hd : d.aboutCooldowns with
    | false => simp [hd, hf d hd, ih]
    | true => simp [hd, List.filterMap_cons, ih]

theorem filterMap_run_ledger (w : World ω) :
    w.ledger.deeds.filterMap (run? key) = w.deeds.filterMap (run? key) :=
  filterMap_aboutCooldowns (fun d hd => by cases d <;> first | rfl | cases hd) w.deeds

/-- The pool is asked for a run only after the limiter has granted it. -/
theorem Balanced.admittedAt {s : Cooldown.Settings} {flying : Option Reservation} {l : Ledger} {d : Deed}
    (h : Balanced s key cooldownMs flying l) (hmem : d ∈ l.deeds) (hrun : IsRun key d) :
    ∃ t, run? key d = some t ∧ AdmittedAt l.deeds t d := by
  cases d with
  | started m c r =>
    obtain ⟨r', rfl, hasked⟩ := h.accounted m c r hmem
    exact ⟨r'.issued, if_pos hrun, rfl, hasked⟩
  | received | listed | matched | asked | committed | released | entered | concluded | pruned
  | recorded | answered => cases hrun

theorem AdmittedAt.mono {deeds deeds' : List Deed} {t : Rat} {d : Deed}
    (h : AdmittedAt deeds t d) (hsub : deeds ⊆ deeds') : AdmittedAt deeds' t d := by
  cases d with
  | started m c r =>
    cases r with
    | none => exact h
    | some r => exact ⟨h.1, hsub h.2⟩
  | received | listed | matched | asked | committed | released | entered | concluded | pruned
  | recorded | answered => exact h

/-- **Any two runs of a command for an author are admitted a cooldown apart.**  The engine handles
any messages at the same time, in any order, with collaborators that do as they like. -/
theorem runs_apart (he : e.Confined) (hgrace : 1 ≤ e.config.cooldownGraceWindows)
    (hC : 0 < cooldownMs) {k : Scheduler (World ω) Product} (hk : e.Reachable k)
    (hreg : e.Regular key cooldownMs k.shared.deeds) :
    RunsApart key cooldownMs k.shared.deeds := by
  have hsub : k.shared.ledger.deeds.Sublist k.shared.deeds := List.filter_sublist
  have hstart : ∀ w : World ω, w.limiter = {} ∧ w.deeds = [] →
      (cooldownRegime e key cooldownMs).holds w := by
    rintro w ⟨hlimiter, hdeeds⟩ -
    rw [World.ledger, hlimiter, hdeeds]
    exact .start
  have hbooks := hk.holds (fun _ _ h => h) hstart fun body hbody w hw => hbody.keeps he hC hgrace w hw
  have hbalanced := hbooks (hreg.of_sublist hsub)
  have hapart := hbalanced.apart.sublist hbalanced.runs
  rw [filterMap_run_ledger, List.pairwise_filterMap] at hapart
  refine hapart.imp_of_mem fun {later earlier} hlater hearlier hgap hrun hrun' => ?_
  have hledger : ∀ d ∈ k.shared.deeds, IsRun key d → d ∈ k.shared.ledger.deeds := by
    intro d hd hrun
    refine List.mem_filter.mpr ⟨hd, ?_⟩
    cases d <;> first | rfl | cases hrun
  obtain ⟨t₂, ht₂, hadm₂⟩ := hbalanced.admittedAt (hledger _ hlater hrun) hrun
  obtain ⟨t₁, ht₁, hadm₁⟩ := hbalanced.admittedAt (hledger _ hearlier hrun') hrun'
  obtain ⟨hle, hgap⟩ := hgap t₂ ht₂ t₁ ht₁
  exact ⟨t₁, t₂, hadm₁.mono hsub.subset, hadm₂.mono hsub.subset, hle, hgap⟩

/-! ### Two runs of one command -/

/-- A command that says hello, at most once a second. -/
def hello : Command where
  id := text "hello"
  tenant := text "tenant"
  trigger := text "hi"
  mode := .exact
  language := text "python"
  code := text "print('hello')"
  cooldownMs := 1000

/-- A message that fires the command. -/
def greeting : Message where
  tenant := text "tenant"
  author := text "author"
  channel := text "channel"
  content := text "hi"

/-- An engine with this command; its environment is the clock. -/
def greeter : Setup Rat where
  config := { caseInsensitive := false }
  registry := { commands := fun _ => pure [hello], sigil := none }
  runtimes := [(.python, fun _ _ _ => pure { status := .success })]
  review := fun _ _ => .ok ([], { ok := true })
  reply := none
  audit := none
  clock := id

theorem greeter_confined : greeter.Confined where
  commands _ := leaves_pure _
  sigil := nofun
  runtimes l run hrun code bindings timeout := by
    obtain ⟨-, rfl⟩ := Prod.mk.inj (List.mem_singleton.mp hrun)
    exact leaves_pure _
  reply := nofun
  audit := nofun

/-- The greeting comes in and is handled. -/
def greeted (k : Scheduler (World Rat) Product) : Scheduler (World Rat) Product :=
  (k.addTask false (toTask .outcome (handle greeter greeting))).2.collect.doReady

/-- The clock is set. -/
def clockedAt (t : Rat) (k : Scheduler (World Rat) Product) : Scheduler (World Rat) Product :=
  (k.addTask false
    (toTask (fun _ => .nothing) (Action.onEnv fun _ => ((), t)))).2.collect.doReady

/-- The engine after two greetings a second apart. -/
def greetedTwice : Scheduler (World Rat) Product :=
  greeted (clockedAt 1000 (greeted { shared := { env := 0 } }))

theorem greetedTwice_reachable : greeter.Reachable greetedTwice := by
  have hstart : greeter.Reachable { shared := { env := 0 } } := .start ⟨rfl, rfl⟩
  have hclock : greeter.Arrival
      (toTask (fun _ => .nothing) (Action.onEnv fun _ => ((), 1000))) :=
    .other _ (leaves_change fun _ => rfl)
  have hfirst := Scheduler.Reachable.after hstart (.handle .outcome greeting) (by decide +kernel)
  have hlater := Scheduler.Reachable.after hfirst hclock (by decide +kernel)
  exact Scheduler.Reachable.after hlater (.handle .outcome greeting) (by decide +kernel)

/-- The cooldown of the command that the limiter was asked about. -/
def askedCooldown? : Deed → Option Int
  | .asked _ c _ _ => some c.cooldownMs
  | _ => none

theorem greetedTwice_regular :
    greeter.Regular (cooldownKey greeting hello) 1000 greetedTwice.shared.deeds where
  readings := by decide +kernel
  sorted := by decide +kernel
  room := by decide +kernel
  constant m c now r hmem _ := by
    have hall : ∀ i ∈ greetedTwice.shared.deeds.filterMap askedCooldown?, i = 1000 := by
      decide +kernel
    exact hall _ (List.mem_filterMap.mpr ⟨_, hmem, rfl⟩)

theorem runs_apart_greetedTwice :
    greetedTwice.shared.deeds.filterMap (run? (cooldownKey greeting hello)) = [1000, 0] ∧
      RunsApart (cooldownKey greeting hello) 1000 greetedTwice.shared.deeds :=
  ⟨by decide +kernel, runs_apart greeter_confined (by decide) (by decide) greetedTwice_reachable
    greetedTwice_regular⟩

end ChatCommands.Engine
