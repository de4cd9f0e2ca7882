import ChatCommands.Proofs.Concurrency.Companions

/-!
What the only task of a scheduler comes to.

The rules go through its program once: what is done at once, what is done under an alarm, sleep, and
two tasks that are started and waited for.  Main statements: `leads_sleep`, `leads_gather`.
-/

namespace ChatCommands.Concurrency

namespace Act

open Scheduler

variable {σ ν α β γ : Type} {p : Peace} {me n l : Nat} {w w' : σ} {clock d : Rat}
  {aim : Nat → Scheduler σ ν → Prop} {pre pre' mid : Scheduler σ ν → Prop}
  {S S' : σ → Scheduler σ ν → Prop}
  {post post' : Ending α → Scheduler σ ν → Prop} {x : Act σ ν α}

/-- From a state with `pre` the task `me` comes to an ending of the computation with `post`, at most
`n` rounds later: what is aimed at is reached if it is reached from there. -/
def Leads (me : Nat) (aim : Nat → Scheduler σ ν → Prop) (n : Nat) (pre : Scheduler σ ν → Prop)
    (x : Act σ ν α) (post : Ending α → Scheduler σ ν → Prop) : Prop :=
  ∀ (next : Ending α → Task σ ν) (m : Nat) (k : Scheduler σ ν), pre k →
    (∀ r k', post r k' → Aimed aim m (exec me (next r) k')) → Aimed aim (m + n) (exec me (x next) k)

theorem Leads.weaken (h : Leads me aim n pre x post) (hpre : ∀ k, pre' k → pre k)
    (hpost : ∀ r k, post r k → post' r k) : Leads me aim n pre' x post' :=
  fun next m k hk hnext => h next m k (hpre k hk) fun r k' hr => hnext r k' (hpost r k' hr)

theorem leads_ofEnding {r : Ending α} (h : ∀ k, pre k → post r k) :
    Leads me aim 0 pre (ofEnding r) post :=
  fun _ _ k hk hnext => hnext r k (h k hk)

theorem leads_pure {a : α} (h : ∀ k, pre k → post (.ok a) k) :
    Leads me aim 0 pre (pure a : Act σ ν α) post :=
  leads_ofEnding h

/-- One part after another. -/
theorem Leads.bind {mid : β → Scheduler σ ν → Prop} {y : Act σ ν β} {f : β → Act σ ν α}
    (hy : Leads me aim n pre y fun r k => ∃ b, r = .ok b ∧ mid b k)
    (hf : ∀ b, Leads me aim l (mid b) (f b) post) : Leads me aim (l + n) pre (y >>= f) post := by
  intro next m k hk hnext
  rw [← Nat.add_assoc]
  refine hy _ (m + l) k hk ?_
  rintro _ k' ⟨b, rfl, hb⟩
  exact hf b next m k' hb hnext

/-- One part after another, of which the first can come to one thing only. -/
theorem Leads.follow {y : Act σ ν β} {b : β} {f : β → Act σ ν α}
    (hy : Leads me aim n pre y fun r k => r = .ok b ∧ mid k) (hf : Leads me aim l mid (f b) post) :
    Leads me aim (l + n) pre (y >>= f) post := by
  intro next m k hk hnext
  rw [← Nat.add_assoc]
  refine hy _ (m + l) k hk ?_
  rintro _ k' ⟨rfl, hmid⟩
  exact hf next m k' hmid hnext

/-- A part that fails is the last. -/
theorem Leads.stop {y : Act σ ν β} {e : Failure} {f : β → Act σ ν α}
    (hy : Leads me aim n pre y fun r k => r = .error e ∧ mid k) :
    Leads me aim n pre (y >>= f) fun r k => r = .error e ∧ mid k := by
  intro next m k hk hnext
  refine hy _ m k hk ?_
  rintro _ k' ⟨rfl, hmid⟩
  exact hnext _ k' ⟨rfl, hmid⟩

/-- A part that does not end is the last. -/
theorem Leads.never {y : Act σ ν β} {f : β → Act σ ν α}
    (hy : Leads me aim n pre y fun _ _ => False) : Leads me aim n pre (y >>= f) post :=
  fun _ m k hk _ => hy _ m k hk fun _ _ h => h.elim

theorem Leads.map {y : Act σ ν β} {b : β} (f : β → α)
    (hy : Leads me aim n pre y fun r k => r = .ok b ∧ mid k) :
    Leads me aim n pre (f <$> y) fun r k => r = .ok (f b) ∧ mid k := by
  intro next m k hk hnext
  refine hy _ m k hk ?_
  rintro _ k' ⟨rfl, hmid⟩
  exact hnext _ k' ⟨rfl, hmid⟩

theorem Leads.recover {a : α} {handle : Fault → Act σ ν α}
    (h : Leads me aim n pre x fun r k => r = .ok a ∧ mid k) :
    Leads me aim n pre (recover x handle) fun r k => r = .ok a ∧ mid k := by
  intro next m k hk hnext
  refine h _ m k hk ?_
  rintro _ k' ⟨rfl, hmid⟩
  exact hnext _ k' ⟨rfl, hmid⟩

/-- What is done in the end does not change what has come of it. -/
theorem Leads.ensuring {r : Ending α} {last : Act σ ν Unit} {end' : Scheduler σ ν → Prop}
    (hx : Leads me aim n pre x fun r' k => r' = r ∧ mid k)
    (hlast : Leads me aim l mid last fun r' k => r' = .ok () ∧ end' k) :
    Leads me aim (l + n) pre (ensuring x last) fun r' k => r' = r ∧ end' k := by
  intro next m k hk hnext
  rw [← Nat.add_assoc]
  refine hx _ (m + l) k hk ?_
  rintro _ k' ⟨rfl, hmid⟩
  refine hlast _ m k' hmid ?_
  rintro _ k'' ⟨rfl, hend⟩
  exact hnext _ k'' ⟨rfl, hend⟩

/-- It may take longer. -/
theorem Leads.slower (haim : Patient me aim) (h : Leads me aim n pre x post) :
    Leads me aim (n + 1) pre x post := by
  intro next m k hk hnext
  have hled := h next m k hk hnext
  exact ⟨hled.1, haim.more _ _ hled.2⟩

theorem Leads.attempt {post : Ending (Ending α) → Scheduler σ ν → Prop}
    (h : Leads me aim n pre x fun r => post (.ok r)) : Leads me aim n pre (attempt x) post :=
  fun _ m k hk hnext => h _ m k hk fun r k' hr => hnext (.ok r) k' hr

/-- States in which a task has its turn, one for each shared state, so that the task may change the
shared state. -/
structure Footing (S : σ → Scheduler σ ν → Prop) : Prop where
  shared : ∀ w k, S w k → k.shared = w
  put : ∀ w w' k, S w k → S w' { k with shared := w' }

theorem alone_footing : Footing fun w (k : Scheduler σ ν) => Alone me p w clock k where
  shared _ _ h := h.shared
  put _ _ _ h := ⟨h.toHushed.same rfl rfl rfl rfl, rfl, h.time, h.idle, h.mine⟩

/-- What comes to an end at once. -/
theorem leads_comesTo (hS : Footing S) {r : Ending α} (hx : ComesTo x w r w') :
    Leads me aim 0 (S w) x fun r' k => r' = r ∧ S w' k := by
  intro next m k hk hnext
  rw [hx next me k (hS.shared w k hk)]
  exact hnext r _ ⟨rfl, hS.put w w' k hk⟩

/-- The task has its turn in such a state, and something is known of the shared state. -/
def At (S : σ → Scheduler σ ν → Prop) (P : σ → Prop) (k : Scheduler σ ν) : Prop := ∃ s, P s ∧ S s k

theorem leads_at {P : σ → Prop} (h : ∀ s, P s → Leads me aim n (S s) x post) :
    Leads me aim n (At S P) x post :=
  fun next m k ⟨s, hs, hk⟩ hnext => h s hs next m k hk hnext

theorem leads_brings (hS : Footing S) {r : Ending α} {P Q : σ → Prop}
    (hx : ∀ s, P s → ∃ s', ComesTo x s r s' ∧ Q s') :
    Leads me aim 0 (At S P) x fun r' k => r' = r ∧ At S Q k := by
  refine leads_at fun s hs => ?_
  obtain ⟨s', hcomes, hs'⟩ := hx s hs
  exact (leads_comesTo hS hcomes).weaken (fun _ h => h) fun r' k h => ⟨h.1, s', hs', h.2⟩

theorem leads_change (hS : Footing S) {f : σ → α × σ} {a : α} {P Q : σ → Prop}
    (hf : ∀ s, P s → (f s).1 = a ∧ Q (f s).2) :
    Leads me aim 0 (At S P) (change f) fun r k => r = .ok a ∧ At S Q k :=
  leads_brings hS fun s hs => ⟨_, (hf s hs).1 ▸ comesTo_change f s, (hf s hs).2⟩

theorem leads_modify (hS : Footing S) {f : σ → σ} {P Q : σ → Prop} (hf : ∀ s, P s → Q (f s)) :
    Leads me aim 0 (At S P) (modify f) fun r k => r = .ok () ∧ At S Q k :=
  leads_change hS fun s hs => ⟨rfl, hf s hs⟩

/-! ### Sleep -/

theorem sleep_eq_yield (hd : d ≤ 0) (next : Ending Unit → Task σ ν) :
    (Act.sleep (some d) : Act σ ν Unit) next = .wait .turn fun answer => next (ofAnswer answer) := by
  simp only [Act.sleep, if_pos hd]
  refine congrArg (Task.wait _) (funext fun answer => ?_)
  cases answer <;> rfl

theorem sleep_eq (hd : 0 < d) (next : Ending Unit → Task σ ν) :
    (Act.sleep (some d) : Act σ ν Unit) next = .call (.newSignal 1 []) fun signal =>
      .call (.fireAfter d signal) fun timer => .wait (.cell signal) fun answer =>
        .call (.dropTimer timer) fun _ => next (ofAnswer answer) := by
  simp only [Act.sleep, if_neg (not_le.mpr hd)]
  refine congrArg (Task.call _) (funext fun signal => congrArg (Task.call _) (funext fun timer =>
    congrArg (Task.wait _) (funext fun answer => ?_)))
  cases answer <;> rfl

/-- **A sleep** ends when it is to, if no alarm is due before. -/
theorem leads_sleep (haim : Patient me aim)
    (hlate : ∀ x, p.late x → ¬ Due (dueAfter clock d) x.1) :
    Leads me aim 2 (Alone me p w clock) (Act.sleep (some d)) fun r k =>
      r = .ok () ∧ Alone me p w (dueAfter clock d) k := by
  intro next m k hk hnext
  rcases le_or_gt d 0 with hd | hd
  · have hnow : dueAfter clock d = clock := by
      have hmono := Binary64.snap_mono (add_le_of_nonpos_right (a := k.clock) hd)
      rw [hk.snapped, hk.time] at hmono
      exact max_eq_left hmono
    rw [sleep_eq_yield hd]
    have hyield := hk.yield haim (n := m) (fun answer => next (ofAnswer answer)) fun k' hk' =>
      hnext (.ok ()) k' ⟨rfl, hnow.symm ▸ hk'⟩
    exact ⟨hyield.1, haim.more _ _ hyield.2⟩
  · rw [sleep_eq hd]
    exact hk.sleep haim hd hlate fun k' hk' => hnext (.ok ()) k' ⟨rfl, hk'⟩

theorem hang_eq (next : Ending Unit → Task σ ν) :
    (Act.sleep none : Act σ ν Unit) next = .call (.newSignal 1 []) fun signal =>
      .wait (.cell signal) fun answer => next (ofAnswer answer) := by
  refine congrArg (Task.call _) (funext fun signal => congrArg (Task.wait _) (funext fun answer => ?_))
  cases answer <;> rfl

/-- A sleep that does not end. -/
theorem leads_hang (hlate : ∀ x, ¬ p.late x)
    (haim : ∀ m k, k.shared = w → (k.statusOf me).isDone = false → k.round? = none → aim m k) :
    Leads me aim n (Alone me p w clock) (Act.sleep none) fun _ _ => False := by
  intro next m k hk _
  obtain ⟨k', hexec, habed, hqueue, htimers, halarms⟩ := hk.hang fun answer => next (ofAnswer answer)
  have hhushed : Hushed p k' := hk.toHushed.same (habed.time.trans hk.time.symm) hqueue htimers halarms
  rw [hang_eq, hexec]
  exact ⟨rfl, haim _ k' habed.shared habed.pending (hhushed.idle hlate habed.idle)⟩

/-! ### Alarms -/

/-- An alarm that is not due yet has a timer in the queue. -/
theorem setAlarm_later (me : Nat) {k : Scheduler σ ν}
    (hdue : ¬ Due k.clock (Binary64.snap (k.clock + d))) :
    ∃ alarm : Alarm, alarm.rung = false ∧ alarm.timer = k.timers.size ∧
      k.setAlarm me d = (k.alarms.size, { (k.addTimer d (.ring k.alarms.size)).2 with
        alarms := k.alarms.push alarm }) := by
  have hlater : ¬ Binary64.snap (k.clock + d) ≤ k.clock := fun hle => hdue (.inl hle)
  refine ⟨⟨me, ((k.task? me).map (·.requests)).getD 0, k.timers.size, false⟩, rfl, rfl, ?_⟩
  unfold Scheduler.setAlarm
  simp only [if_neg hlater]
  rfl

/-- An alarm is set that is due late. -/
theorem leads_setAlarm (hdue : ¬ Due clock (Binary64.snap (clock + d)))
    (hlate : ∀ t, p.late (Binary64.snap (clock + d), t)) :
    Leads me aim 0 (Alone me p w clock) (call (.setAlarm d)) fun r k =>
      ∃ a, r = .ok a ∧ Alone me p w clock k := by
  intro next m k hk hnext
  obtain ⟨alarm, hrung, -, heq⟩ := setAlarm_later me (hk.time.symm ▸ hdue)
  change Aimed aim m (exec me (next (.ok (k.setAlarm me d).1)) (k.setAlarm me d).2)
  rw [heq]
  refine hnext _ _ ⟨_, rfl, ?_, hk.shared, hk.time, hk.idle, hk.mine⟩
  refine hk.toHushed.push { action := .ring k.alarms.size } (hk.time.symm ▸ hdue)
    (fun _ => hk.time.symm ▸ hlate _) rfl rfl rfl fun a ha hrung' => ?_
  rcases Array.mem_push.mp ha with ha | rfl
  · exact hk.silent a ha hrung'
  · rw [hrung] at hrung'
    cases hrung'

/-- The task has its turn in such a state once it drops an alarm, which has rung or has not. -/
def Armed (S : σ → Scheduler σ ν → Prop) (me a : Nat) (rung : Bool) (w : σ) (k : Scheduler σ ν) :
    Prop :=
  k.shared = w ∧ ∀ s, (Scheduler.dropAlarm { k with shared := s } me a).1 = rung ∧
    S s (Scheduler.dropAlarm { k with shared := s } me a).2

theorem armed_footing {a : Nat} {rung : Bool} : Footing (Armed S me a rung) where
  shared _ _ h := h.1
  put _ _ _ h := ⟨rfl, h.2⟩

theorem leads_dropAlarm {a : Nat} {rung : Bool} :
    Leads me aim 0 (Armed S me a rung w) (call (.dropAlarm a)) fun r k => r = .ok rung ∧ S w k := by
  rintro next m k ⟨rfl, hk⟩ hnext
  change Aimed aim m (exec me (next (.ok (k.dropAlarm me a).1)) (k.dropAlarm me a).2)
  rw [(hk k.shared).1]
  exact hnext _ _ ⟨rfl, (hk k.shared).2⟩

/-- No alarm has rung. -/
theorem armed_silent (hp : ¬ p.rung) {k : Scheduler σ ν} (h : Alone me p w clock k) (a : Nat) :
    Armed (fun w => Alone me p w clock) me a false w k := by
  refine ⟨h.shared, fun s => ?_⟩
  have hs : Alone me p s clock { k with shared := s } := alone_footing.put w s k h
  unfold Scheduler.dropAlarm
  cases halarm : k.alarms[a]? with
  | none => exact ⟨rfl, hs⟩
  | some alarm =>
    have hrung : alarm.rung = false := Bool.eq_false_iff.mpr fun hrung =>
      hp (h.silent alarm (Array.mem_of_getElem? halarm) hrung)
    simp only [hrung, Bool.false_eq_true, if_false]
    exact ⟨trivial, hs.dropTimer _⟩

/-- An alarm that is set and dropped at the same time changes nothing. -/
structure Unmoved (me : Nat) (clock : Rat) (S : σ → Scheduler σ ν → Prop) : Prop
    extends Footing S where
  arm : ∀ w k d, ¬ Due clock (Binary64.snap (clock + d)) → S w k →
    Armed S me (k.setAlarm me d).1 false w (k.setAlarm me d).2

theorem alone_unmoved : Unmoved me clock fun w (k : Scheduler σ ν) => Alone me p w clock k where
  toFooting := alone_footing
  arm w k d hdue hk := by
    obtain ⟨alarm, hrung, htimer, heq⟩ := setAlarm_later me (hk.time.symm ▸ hdue)
    rw [heq]
    refine ⟨hk.shared, fun s => ?_⟩
    have hdrop : ∀ k₁ : Scheduler σ ν, k₁.alarms = k.alarms.push alarm →
        k₁.dropAlarm me k.alarms.size = (false, k₁.dropTimer k.timers.size) := by
      intro k₁ halarms
      unfold Scheduler.dropAlarm
      rw [halarms, Array.getElem?_push_size]
      simp only [hrung, Bool.false_eq_true, if_false, htimer]
    rw [hdrop _ rfl]
    have hdrops := Scheduler.dropsTimer { (k.addTimer d (.ring k.alarms.size)).2 with
      alarms := k.alarms.push alarm, shared := s } k.timers.size
    refine ⟨rfl, ?_, hdrops.shared, hdrops.clock.trans hk.time, hdrops.ready.trans hk.idle, ?_⟩
    · refine hk.toHushed.pushDropped { action := .ring k.alarms.size }
        (hk.time.symm ▸ hdue) rfl rfl rfl fun a ha hrung' => ?_
      rcases Array.mem_push.mp ha with ha | rfl
      · exact hk.silent a ha hrung'
      · rw [hrung] at hrung'
        cases hrung'
    · simp only [hdrops.cells]
      exact hk.mine

/-- **A time limit** does nothing to what comes to an end at once. -/
theorem leads_within (hS : Unmoved me clock S) {r : Ending α} (hx : ComesTo x w r w')
    (hdue : ¬ Due clock (Binary64.snap (clock + d))) :
    Leads me aim 0 (S w) (within (some d) x) fun r' k => r' = r ∧ S w' k := by
  have harm : Leads me aim 0 (S w) (call (.setAlarm d)) fun r k =>
      ∃ a, r = .ok a ∧ Armed S me a false w k :=
    fun next m k hk hnext => hnext _ _ ⟨_, rfl, hS.arm w k d hdue hk⟩
  refine harm.bind fun a => (leads_comesTo armed_footing hx.attempt).follow
    (leads_dropAlarm.follow (leads_ofEnding fun k hk => ⟨rfl, hk⟩))

/-! ### Companions -/

/-- Two tasks that have come to their values. -/
def Both (me : Nat) (p : Peace) (w : σ) (clock : Rat) (a b : Nat) (u v : ν)
    (k : Scheduler σ ν) : Prop :=
  Alone me p w clock k ∧ k.statusOf a = .ended (.ok u) ∧ k.statusOf b = .ended (.ok v)

/-- How a computation goes on after a wait. -/
def resuming (x : Act σ ν α) (next : Ending α → Task σ ν) : Option Failure → Task σ ν
  | none => x next
  | some failure => next (.error failure)

/-- **Two tasks that come to their ends at once** keep the task that waits for both for three
rounds. -/
theorem leads_gather {x : Act σ ν α} {y : Act σ ν β} {f : α → ν} {g : β → ν} {u : α} {v : β}
    {value : ν} {w₁ w₂ : σ} {F : Nat → Nat → Act σ ν γ} {post : Ending γ → Scheduler σ ν → Prop}
    (hx : ComesTo x w (.ok u) w₁) (hy : ComesTo y w₁ (.ok v) w₂) (haim : Patient me aim)
    (hF : ∀ a b, Leads me aim l (Both me p w₂ clock a b (f u) (g v)) (F a b) post) :
    Leads me aim (l + 3) (Alone me p w clock) (do
      let a ← spawn f x
      let b ← spawn g y
      gather value false [a, b]
      F a b) post := by
  intro next m k hk hnext
  obtain ⟨n, k', hexec, hwaits, hfirst, hsecond⟩ :=
    hk.starts (toTask f x) (toTask g y) value fun a b => resuming (F a b) next
  have hstep : exec me ((do
      let a ← spawn f x
      let b ← spawn g y
      gather value false [a, b]
      F a b : Act σ ν γ) next) k = (none, k') := by
    rw [← hexec]
    refine congrArg (fun task => exec me task k) ?_
    refine congrArg (Task.spawn _ _) (funext fun a => congrArg (Task.spawn _ _) (funext fun b => ?_))
    refine congrArg (Task.call _) (funext fun s => congrArg (Task.watch _ _) (funext fun _ =>
      congrArg (Task.watch _ _) (funext fun _ => congrArg (Task.wait _) (funext fun answer => ?_))))
    cases answer <;> rfl
  rw [hstep]
  refine ⟨rfl, ?_⟩
  rw [← Nat.add_assoc]
  refine hwaits.goesOn hfirst hsecond hx hy haim fun k' hk' ha hb => ?_
  exact hF n (n + 1) next m k' ⟨hk', ha, hb⟩ hnext

/-- The value of a task that has come to one. -/
theorem leads_valueOf (ofValue : ν → Option α) {t : Nat} {v : ν} {a : α}
    (hv : ofValue v = some a) (hpre : ∀ k, pre k → k.statusOf t = .ended (.ok v)) :
    Leads me aim 0 pre (valueOf ofValue t) fun r k => r = .ok a ∧ pre k := by
  have hstatus : Leads me aim 0 pre (call (.status t)) fun r k => r = .ok (.ended (.ok v)) ∧ pre k :=
    fun next m k hk hnext => hnext _ k ⟨congrArg Except.ok (hpre k hk), hk⟩
  refine hstatus.follow ?_
  simp only [hv]
  exact leads_pure fun k hk => ⟨rfl, hk⟩

/-! ### Whole programs -/

/-- A program comes to its end. -/
theorem Leads.reaches {f : α → ν} {goal : Scheduler σ ν → Prop} (h : Leads me (Reaches me goal) n
      (Alone me p w clock) x fun r k => ∃ q w' clock', Alone me q w' clock' k ∧
        ∀ k', k'.statusOf me = .ended (r.map f) → k'.shared = w' → goal k')
    {k : Scheduler σ ν} (hk : Alone me p w clock k) :
    Aimed (Reaches me goal) n (exec me (toTask f x) k) := by
  have hends := h (fun r => .finish (r.map f)) 0 k hk ?_
  · rwa [Nat.zero_add] at hends
  · rintro r k' ⟨q, w', clock', halone, hgoal⟩
    obtain ⟨hexec, hstatus, hshared, -⟩ := halone.finish (r.map f)
    rw [hexec]
    exact ⟨rfl, reaches_done (by rw [hstatus]; rfl) (hgoal _ hstatus hshared)⟩

/-- **A whole run** of one program. -/
theorem Leads.run {s : σ} {f : α → ν} {goal : Scheduler σ ν → Prop}
    (h : Leads 0 (Reaches 0 goal) n (Alone 0 p s 0) x fun r k => ∃ q w' clock',
      Alone 0 q w' clock' k ∧
        ∀ k', k'.statusOf 0 = .ended (r.map f) → k'.shared = w' → goal k')
    (hn : n < maxRounds) : goal (Scheduler.run s (toTask f x)) := by
  obtain ⟨next, hnext, hcalled⟩ := called_first (ν := ν) p s (toTask f x)
  refine hcalled.goesOn (patient_reaches goal) (fun k hk _ => ?_) maxRounds hn
  rw [hnext]
  exact h.reaches hk

end Act

end ChatCommands.Concurrency
