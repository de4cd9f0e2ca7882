import ChatCommands.Proofs.Concurrency.Alarms
import ChatCommands.Proofs.Concurrency.Minding

/-!
Invariants of the state that tasks share, where time counts.

At each moment a program can rely on what was fixed before: when the alarms are due that were set, and
when those events came about that the shared state counts.  Later moments do not change it.  What a
timetable says holds whenever no task has its turn, and a task that learns that an alarm has expired
knows that the alarm was due.

`Task.Obeys` is to a timetable what `Task.Ends` is to a regime, and the rules for `Act.Achieves` are to
`Task.Obeys` what those for `Act.Meets` are to `Task.Ends`.
-/

namespace ChatCommands.Concurrency

variable {σ ν α β τ : Type}

/-- What a program can rely on when it has its turn. -/
structure Moment (σ : Type) where
  shared : σ
  clock : Rat := 0
  /-- When the alarms are due that were set so far. -/
  dues : List Rat := []
  /-- When the events came about that the shared state counts. -/
  stamps : List Rat := []
  /-- The number of cells. -/
  size : Nat := 0
  /-- The signals that nobody ends with a fault. -/
  firm : Nat → Prop := fun _ => False

namespace Moment

variable {m m' m'' : Moment σ}

/-- The moment `m'` is not before `m`. -/
structure Later (m m' : Moment σ) : Prop where
  clock : m.clock ≤ m'.clock
  dues : m.dues <+: m'.dues
  stamps : m.stamps <+: m'.stamps
  since : ∀ n t, m.stamps.length ≤ n → m'.stamps[n]? = some t → m.clock ≤ t
  size : m.size ≤ m'.size
  firm : ∀ c < m.size, m'.firm c ↔ m.firm c

theorem Later.refl (m : Moment σ) : m.Later m := by
  refine ⟨le_refl _, List.prefix_refl _, List.prefix_refl _, fun n t hn ht => ?_, Nat.le_refl _,
    fun _ _ => .rfl⟩
  rw [List.getElem?_eq_none hn] at ht
  cases ht

theorem getElem?_of_prefix {times times' : List Rat} (h : times <+: times') {i : Nat} {t : Rat}
    (hi : times[i]? = some t) : times'[i]? = some t := by
  obtain ⟨new, rfl⟩ := h
  rw [List.getElem?_append_left (List.getElem?_eq_some_iff.mp hi).1]
  exact hi

theorem Later.due (h : m.Later m') {a : Nat} {due : Rat} (ha : m.dues[a]? = some due) :
    m'.dues[a]? = some due :=
  getElem?_of_prefix h.dues ha

theorem Later.stamp (h : m.Later m') {n : Nat} {t : Rat} (hn : m.stamps[n]? = some t) :
    m'.stamps[n]? = some t :=
  getElem?_of_prefix h.stamps hn

theorem Later.trans (h : m.Later m') (h' : m'.Later m'') : m.Later m'' := by
  refine ⟨h.clock.trans h'.clock, h.dues.trans h'.dues, h.stamps.trans h'.stamps,
    fun n t hn ht => ?_, Nat.le_trans h.size h'.size, fun c hc => ?_⟩
  · rcases Nat.lt_or_ge n m'.stamps.length with hlt | hge
    · have hsame := h'.stamp (List.getElem?_eq_getElem hlt)
      rw [ht] at hsame
      cases hsame
      exact h.since n _ hn (List.getElem?_eq_getElem hlt)
    · exact h.clock.trans (h'.since n t hge ht)
  · exact (h'.firm c (Nat.lt_of_lt_of_le hc h.size)).trans (h.firm c hc)

/-- There is one more cell. -/
def cell (m : Moment σ) (isFirm : Prop) : Moment σ :=
  { m with size := m.size + 1, firm := Function.update m.firm m.size isFirm }

/-- There is one more alarm. -/
def alarm (m : Moment σ) (delay : Rat) : Moment σ :=
  { m with dues := m.dues ++ [Binary64.snap (m.clock + delay)] }

theorem later_cell (m : Moment σ) (isFirm : Prop) : m.Later (m.cell isFirm) := by
  refine { Later.refl m with size := Nat.le_succ _, firm := fun c hc => ?_ }
  change Function.update m.firm m.size isFirm c ↔ m.firm c
  rw [Function.update_of_ne (Nat.ne_of_lt hc)]

theorem later_alarm (m : Moment σ) (delay : Rat) : m.Later (m.alarm delay) :=
  { Later.refl m with dues := List.prefix_append _ _ }

end Moment

/-- What holds whenever no task has its turn, of the shared state and of when the events came about
that it counts. -/
structure Timetable (σ : Type) where
  count : σ → Nat
  holds : Moment σ → Prop
  /-- It goes on to hold while the time moves on. -/
  lasts : ∀ {m m' : Moment σ}, holds m → m.Later m' → m'.shared = m.shared →
    m'.stamps = m.stamps → holds m'

namespace Timetable

variable (R : Timetable σ) {m : Moment σ}

/-- The shared state is another one; the events that it counts in addition come about now. -/
def put (m : Moment σ) (s : σ) : Moment σ :=
  { m with
    shared := s
    stamps := m.stamps ++ List.replicate (R.count s - R.count m.shared) m.clock }

/-- The timetable is about a part of the shared state. -/
structure About (view : σ → τ) : Prop where
  count : ∀ s s', view s = view s' → R.count s = R.count s'
  holds : ∀ m s, view m.shared = view s → R.holds m → R.holds { m with shared := s }

variable {R}

theorem later_put (m : Moment σ) (s : σ) : m.Later (R.put m s) := by
  refine { Moment.Later.refl m with stamps := List.prefix_append _ _, since := fun n t hn ht => ?_ }
  change (m.stamps ++ _)[n]? = some t at ht
  rw [List.getElem?_append_right hn] at ht
  exact (List.eq_of_mem_replicate (List.mem_of_getElem? ht)).ge

theorem put_of_count_eq {s : σ} (h : R.count m.shared = R.count s) :
    R.put m s = { m with shared := s } := by
  unfold put
  rw [h, Nat.sub_self, List.replicate_zero, List.append_nil]

theorem About.put {view : σ → τ} (hR : R.About view) {s : σ} (h : view m.shared = view s)
    (hm : R.holds m) : R.holds (R.put m s) := by
  rw [put_of_count_eq (hR.count _ _ h)]
  exact hR.holds m s h hm

end Timetable

/-- Nobody ends a firm signal with a fault. -/
def Call.Respects : Call ν → Moment σ → Prop
  | .fail s (.fault _), m => s < m.size ∧ ¬ m.firm s
  | _, _ => True

/-- What a primitive step answers, and the moment after it; a new signal may be firm. -/
def Call.Gives (isFirm : Prop) : (c : Call ν) → Moment σ → c.Reply → Moment σ → Prop
  | .newSignal .., m, reply, m' => reply = m.size ∧ m' = m.cell isFirm
  | .setAlarm delay, m, reply, m' => reply = m.dues.length ∧ m' = m.alarm delay
  | .dropAlarm a, m, reply, m' =>
    (reply = true → ∃ due, m.dues[a]? = some due ∧ Scheduler.Due m.clock due) ∧ m' = m
  | .now, m, _, m' | .fire _, m, _, m' | .fail .., m, _, m' | .status _, m, _, m'
  | .fireAfter .., m, _, m' | .dropTimer _, m, _, m' | .interrupt _, m, _, m'
  | .unwatch .., m, _, m' => m' = m

/-- With what someone who waits may go on. -/
def Awaited.Allows : Awaited → Moment σ → Option Failure → Prop
  | .turn, _, _ => True
  | .cell c, m, answer => m.firm c → ∀ f, answer ≠ some (.fault f)

/-- The task obeys the timetable from the moment `m` on, and whenever it comes to its end, `Q` holds of
its ending and the moment then. -/
def Task.Obeys (R : Timetable σ) : Task σ ν → (Q : Ending ν → Moment σ → Prop) → (m : Moment σ) → Prop
  | .finish r, Q, m => Q r m
  | .look next, Q, m => (next m.shared).Obeys R Q m
  | .put s next, Q, m => next.Obeys R Q (R.put m s)
  | .call c next, Q, m => c.Respects m ∧ ∃ isFirm, ∀ reply m', c.Gives isFirm m reply m' →
    (next reply).Obeys R Q m'
  | .spawn _ body next, Q, m =>
    (∀ m', R.holds m' → m.Later m' → body.Obeys R (fun _ => R.holds) m') ∧
      (next m.size).Obeys R Q (m.cell False)
  | .watch _ reaction next, Q, m => (∀ status, (reaction status).Prompt) ∧
    (∀ status m', R.holds m' → m.Later m' → (reaction status).Obeys R (fun _ => R.holds) m') ∧
      ∀ w, (next w).Obeys R Q m
  | .wait what next, Q, m => R.holds m ∧ ∀ answer m', R.holds m' → m.Later m' →
    what.Allows m' answer → (next answer).Obeys R Q m'

theorem Call.Gives.later {isFirm : Prop} {c : Call ν} {m m' : Moment σ} {reply : c.Reply}
    (h : c.Gives isFirm m reply m') : m.Later m' := by
  cases c with
  | newSignal => exact h.2 ▸ m.later_cell _
  | setAlarm => exact h.2 ▸ m.later_alarm _
  | dropAlarm => exact h.2 ▸ .refl m
  | now | fire | fail | status | fireAfter | dropTimer | interrupt | unwatch => exact h ▸ .refl m

theorem Call.Gives.same {isFirm : Prop} {c : Call ν} {m m' : Moment σ} {reply : c.Reply}
    (h : c.Gives isFirm m reply m') : m'.shared = m.shared ∧ m'.stamps = m.stamps := by
  cases c with
  | newSignal | setAlarm | dropAlarm => exact h.2 ▸ ⟨rfl, rfl⟩
  | now | fire | fail | status | fireAfter | dropTimer | interrupt | unwatch => exact h ▸ ⟨rfl, rfl⟩

theorem Call.respects (c : Call ν) (hc : c.endsInFault = false) (m : Moment σ) : c.Respects m := by
  match c with
  | .fail _ (.fault _) => cases hc
  | .fail _ .interrupted => trivial
  | .now | .newSignal .. | .fire _ | .status _ | .fireAfter .. | .dropTimer _ | .setAlarm _
  | .dropAlarm _ | .interrupt _ | .unwatch .. => trivial

/-- **Who minds one's own business obeys the timetable.** -/
theorem obeys_of_minds {R : Timetable σ} {view : σ → τ} (hR : R.About view)
    {exits : (Nat → Prop) → Task σ ν → Prop} {known : Nat → Prop} {s : σ} {t : Task σ ν}
    (h : t.Minds view exits known s) : ∀ {Q : Ending ν → Moment σ → Prop} {m : Moment σ}, R.holds m →
      m.shared = s → (∀ c, known c → c < m.size ∧ ¬ m.firm c) →
      (∀ t known m', exits known t → R.holds m' → m.Later m' → t.Obeys R Q m') → t.Obeys R Q m := by
  have hknows : ∀ {m m' : Moment σ} {known : Nat → Prop}, m.Later m' →
      (∀ c, known c → c < m.size ∧ ¬ m.firm c) → ∀ c, known c → c < m'.size ∧ ¬ m'.firm c := by
    intro m m' known hlater hknown c hc
    obtain ⟨hlt, hfirm⟩ := hknown c hc
    exact ⟨Nat.lt_of_lt_of_le hlt hlater.size, fun h => hfirm ((hlater.firm c hlt).mp h)⟩
  have hend : ∀ (t : Task σ ν) (known : Nat → Prop) (m : Moment σ), (∃ r, t = .finish r) →
      R.holds m → t.Obeys R (fun _ => R.holds) m := by
    rintro _ _ m ⟨r, rfl⟩ hm
    exact hm
  induction h with
  | exit h => exact fun hm _ _ hexit => hexit _ _ _ h hm (.refl _)
  | look _ ih =>
    intro Q m hm hs hknown hexit
    subst hs
    exact ih hm rfl hknown hexit
  | @put _ _ _ s' _ heq _ ih =>
    intro Q m hm hs hknown hexit
    subst hs
    have hlater : m.Later (R.put m s') := Timetable.later_put m s'
    exact ih (hR.put heq hm) rfl (hknows hlater hknown) fun t known m' hr hm' h' =>
      hexit t known m' hr hm' (hlater.trans h')
  | @call _ known _ c _ hc _ ih =>
    intro Q m hm hs hknown hexit
    subst hs
    refine ⟨?_, False, fun reply m' hgives => ?_⟩
    · cases c with
      | fail s f =>
        cases f with
        | fault => exact hknown s (hc s rfl)
        | interrupted => trivial
      | _ => trivial
    · have hlater := hgives.later
      refine ih reply (R.lasts hm hlater hgives.same.1 hgives.same.2) hgives.same.1 ?_
        fun t known m'' hr hm'' h' => hexit t known m'' hr hm'' (hlater.trans h')
      cases c with
      | newSignal count members =>
        obtain ⟨rfl, rfl⟩ := hgives
        rintro i (hi | rfl)
        · exact hknows hlater hknown i hi
        · refine ⟨Nat.lt_succ_self _, ?_⟩
          change ¬ Function.update m.firm m.size False m.size
          rw [Function.update_self]
          exact id
      | _ => exact hknows hlater hknown
  | spawn _ _ ihbody ih =>
    intro Q m hm hs hknown hexit
    subst hs
    refine ⟨fun m' hm' hlater => ?_, ?_⟩
    · exact ihbody m'.shared hm' rfl (hknows hlater hknown) fun t known m'' hr hm'' _ =>
        hend t known m'' hr hm''
    · have hlater := m.later_cell False
      exact ih m.size (R.lasts hm hlater rfl rfl) rfl (hknows hlater hknown)
        fun t known m' hr hm' h' => hexit t known m' hr hm' (hlater.trans h')
  | watch hprompt _ _ ihreaction ih =>
    intro Q m hm hs hknown hexit
    subst hs
    refine ⟨hprompt, fun status m' hm' hlater => ?_, fun w => ih w hm rfl hknown hexit⟩
    exact ihreaction status m'.shared hm' rfl (hknows hlater hknown) fun t known m'' hr hm'' _ =>
      hend t known m'' hr hm''
  | wait _ ih =>
    intro Q m hm hs hknown hexit
    refine ⟨hm, fun answer m' hm' hlater _ => ?_⟩
    exact ih answer m'.shared hm' rfl (hknows hlater hknown) fun t known m'' hr hm'' h' =>
      hexit t known m'' hr hm'' (hlater.trans h')

namespace Act

variable {R : Timetable σ} {pre pre' : Moment σ → Prop} {post post' : Ending α → Moment σ → Prop}
  {x : Act σ ν α}

/-- From a moment with `pre` the computation obeys the timetable and ends as `post` says. -/
def Achieves (R : Timetable σ) (pre : Moment σ → Prop) (x : Act σ ν α)
    (post : Ending α → Moment σ → Prop) : Prop :=
  ∀ (k : Ending α → Task σ ν) (Q : Ending ν → Moment σ → Prop) (m : Moment σ), pre m →
    (∀ r m', post r m' → (k r).Obeys R Q m') → (x k).Obeys R Q m

theorem Achieves.weaken (h : Achieves R pre x post) (hpre : ∀ m, pre' m → pre m)
    (hpost : ∀ r m, post r m → post' r m) : Achieves R pre' x post' :=
  fun k Q m hm hk => h k Q m (hpre m hm) fun r m' hr => hk r m' (hpost r m' hr)

theorem Achieves.of_pre (h : Achieves R pre x post) (hpre : ∀ m, pre' m → pre m) :
    Achieves R pre' x post :=
  h.weaken hpre fun _ _ h => h

theorem Achieves.of_post (h : Achieves R pre x post) (hpost : ∀ r m, post r m → post' r m) :
    Achieves R pre x post' :=
  h.weaken (fun _ h => h) hpost

/-- What holds before is known. -/
theorem achieves_of_pre (h : ∀ m, pre m → Achieves R (· = m) x post) : Achieves R pre x post :=
  fun k Q m hm hk => h m hm k Q m rfl hk

theorem achieves_of_fact {p : Prop} (h : p → Achieves R pre x post) :
    Achieves R (fun m => p ∧ pre m) x post :=
  fun k Q m ⟨hp, hm⟩ hk => h hp k Q m hm hk

theorem achieves_ofEnding (r : Ending α) : Achieves R (post r) (ofEnding r : Act σ ν α) post :=
  fun _ _ m hm hk => hk r m hm

theorem achieves_bind {mid : Ending α → Moment σ → Prop} {f : α → Act σ ν β}
    {post : Ending β → Moment σ → Prop} (hx : Achieves R pre x mid)
    (hf : ∀ a, Achieves R (mid (.ok a)) (f a) post)
    (herr : ∀ e m, mid (.error e) m → post (.error e) m) : Achieves R pre (x >>= f) post := by
  intro k Q m hm hk
  refine hx _ Q m hm fun r m' hr => ?_
  cases r with
  | ok a => exact hf a k Q m' hr hk
  | error e => exact hk _ m' (herr e m' hr)

/-- However a computation ends, what comes after it sees the ending. -/
theorem achieves_attempt_bind {mid : Ending α → Moment σ → Prop} {f : Ending α → Act σ ν β}
    {post : Ending β → Moment σ → Prop} (hx : Achieves R pre x mid)
    (hf : ∀ r, Achieves R (mid r) (f r) post) : Achieves R pre (attempt x >>= f) post :=
  fun k Q m hm hk => hx _ Q m hm fun r m' hr => hf r k Q m' hr hk

theorem achieves_change_bind {f : σ → α × σ} {g : α → Act σ ν β} {mid : α → Moment σ → Prop}
    {post : Ending β → Moment σ → Prop}
    (h : ∀ m, pre m → mid (f m.shared).1 (R.put m (f m.shared).2))
    (hg : ∀ a, Achieves R (mid a) (g a) post) : Achieves R pre (change f >>= g) post :=
  fun k Q m hm hk => hg _ k Q _ (h m hm) hk

theorem achieves_modify_bind {f : σ → σ} {y : Act σ ν β} {mid : Moment σ → Prop}
    {post : Ending β → Moment σ → Prop} (h : ∀ m, pre m → mid (R.put m (f m.shared)))
    (hy : Achieves R mid y post) : Achieves R pre (do modify f; y) post :=
  fun k Q m hm hk => hy k Q _ (h m hm) hk

theorem obeys_toTask {toValue : α → ν} (hx : Achieves R pre x fun _ => R.holds) {m : Moment σ}
    (hm : pre m) : (toTask toValue x).Obeys R (fun _ => R.holds) m :=
  hx _ _ m hm fun _ _ h => h

/-! ### What is not lost -/

/-- At the moment `m`, which is not before `m₀`, no task need have its turn. -/
def Since (R : Timetable σ) (m₀ m : Moment σ) : Prop := R.holds m ∧ m₀.Later m

/-- The computation keeps what the timetable says. -/
def Steady (R : Timetable σ) (x : Act σ ν α) : Prop :=
  ∀ m₀, Achieves R (Since R m₀) x fun _ => Since R m₀

theorem Steady.achieves (h : Steady R x) : Achieves R R.holds x fun _ => R.holds := by
  refine achieves_of_pre fun m hm => (h m).weaken ?_ fun _ _ h => h.1
  rintro _ rfl
  exact ⟨hm, .refl _⟩

theorem Minds.steady {view : σ → τ} (h : Minds view (fun _ => False) x) (hR : R.About view) :
    Steady R x := by
  intro m₀ k Q m ⟨hm, hlater⟩ hk
  refine obeys_of_minds hR (h k _ m.shared fun _ hc => hc) hm rfl (fun _ => False.elim) ?_
  rintro _ _ m' ⟨⟨r, rfl⟩, -⟩ hm' hlater'
  exact hk r m' ⟨hm', hlater.trans hlater'⟩

theorem steady_composed {view : σ → τ} (hR : R.About view) :
    Composed (ν := ν) view fun x => Steady R x where
  ofEnding r _ := fun _ _ m hm hk => hk r m hm
  bind hx hf m₀ := achieves_bind (hx m₀) (fun a => hf a m₀) fun _ _ h => h
  attempt hx m₀ := fun _ Q m hm hk => hx m₀ _ Q m hm fun _ m' h => hk _ m' h
  gets _ _ := fun _ _ m hm hk => hk _ m hm
  change hf _ := fun _ _ _ hm hk =>
    hk _ _ ⟨hR.put (hf _) hm.1, hm.2.trans (Timetable.later_put _ _)⟩
  wait what _ := by
    refine fun _ _ _ hm hk => ⟨hm.1, fun answer m' hm' hl _ => ?_⟩
    cases answer with
    | none => exact hk _ m' ⟨hm', hm.2.trans hl⟩
    | some f => exact hk _ m' ⟨hm', hm.2.trans hl⟩
  spawn hx := fun _ _ _ m hm hk => ⟨fun _ hm' _ => obeys_toTask hx.achieves hm', hk _ _
    ⟨R.lasts hm.1 (m.later_cell False) rfl rfl, hm.2.trans (m.later_cell False)⟩⟩
  spawnForever hx := fun _ _ _ m hm hk => ⟨fun _ hm' _ => obeys_toTask hx.achieves hm', hk _ _
    ⟨R.lasts hm.1 (m.later_cell False) rfl rfl, hm.2.trans (m.later_cell False)⟩⟩
  watch hprompt hx := fun _ _ _ m hm hk => ⟨fun status => hprompt status _ fun _ => trivial,
    fun status _ hm' _ => obeys_toTask (hx status).achieves hm', fun _ => hk _ m hm⟩

theorem steady_closed {view : σ → τ} (hR : R.About view) :
    Closed (ν := ν) view fun x => Steady R x where
  toComposed := steady_composed hR
  call c hc := fun _ _ _ m hm hk => ⟨c.respects hc m, False, fun _ _ hgives => hk _ _
    ⟨R.lasts hm.1 hgives.later hgives.same.1 hgives.same.2, hm.2.trans hgives.later⟩⟩
  gather value passOver tasks := (minds_gather value passOver tasks).steady hR

/-- The computation comes to a value at once, and all that holds of the part of the shared state which
it leaves alone goes on to hold. -/
def Brisk (R : Timetable σ) (view : σ → τ) (x : Act σ ν α) : Prop :=
  ∀ (R' : Timetable σ) (m₀ : Moment σ), R'.count = R.count → R'.About view →
    Achieves R (Since R' m₀) x fun r m => (∃ a, r = .ok a) ∧ Since R' m₀ m

section

variable {view : σ → τ}

theorem brisk_pure (a : α) : Brisk R view (pure a : Act σ ν α) :=
  fun _ _ _ _ => (achieves_ofEnding _).of_pre fun _ h => ⟨⟨a, rfl⟩, h⟩

theorem Brisk.achieves_bind (hx : Brisk R view x) {R' : Timetable σ} {m₀ : Moment σ}
    (hR' : R'.About view) (hcount : R'.count = R.count) {f : α → Act σ ν β}
    {post : Ending β → Moment σ → Prop} (hf : ∀ a, Achieves R (Since R' m₀) (f a) post) :
    Achieves R (Since R' m₀) (x >>= f) post := by
  refine Act.achieves_bind (hx R' m₀ hcount hR') (fun a => (hf a).of_pre fun _ h => h.2) ?_
  rintro _ _ ⟨⟨_, h⟩, _⟩
  cases h

theorem Brisk.bind {f : α → Act σ ν β} (hx : Brisk R view x) (hf : ∀ a, Brisk R view (f a)) :
    Brisk R view (x >>= f) :=
  fun R' m₀ hcount hR' => hx.achieves_bind hR' hcount fun a => hf a R' m₀ hcount hR'

theorem brisk_gets (f : σ → α) : Brisk R view (gets f : Act σ ν α) :=
  fun _ _ _ _ _ _ m hm hk => hk _ m ⟨⟨_, rfl⟩, hm⟩

theorem brisk_change {f : σ → α × σ} (hf : ∀ s, view s = view (f s).2) :
    Brisk R view (change f : Act σ ν α) := by
  intro R' m₀ hcount hR' k Q m hm hk
  have hsame : R.put m (f m.shared).2 = R'.put m (f m.shared).2 := by
    rw [Timetable.put, Timetable.put, hcount]
  change (k (.ok (f m.shared).1)).Obeys R Q (R.put m (f m.shared).2)
  rw [hsame]
  exact hk _ _ ⟨⟨_, rfl⟩, hR'.put (hf _) hm.1, hm.2.trans (Timetable.later_put _ _)⟩

theorem brisk_call (c : Call ν) (hc : c.endsInFault = false) :
    Brisk R view (call c : Act σ ν c.Reply) :=
  fun R' _ _ _ _ _ m hm hk => ⟨c.respects hc m, False, fun reply _ hgives => hk _ _ ⟨⟨reply, rfl⟩,
    R'.lasts hm.1 hgives.later hgives.same.1 hgives.same.2, hm.2.trans hgives.later⟩⟩

end

/-- **A wait for a firm signal** ends in no fault. -/
theorem achieves_wait_firm {m₀ : Moment σ} {c : Nat} (hc : c < m₀.size) (hfirm : m₀.firm c) :
    Achieves R (Since R m₀) (wait (.cell c) : Act σ ν Unit) fun r m =>
      (∀ f, r ≠ .error (.fault f)) ∧ Since R m₀ m := by
  intro k Q m ⟨hm, hlater⟩ hk
  refine ⟨hm, fun answer m' hm' hlater' hallows => ?_⟩
  have hafter := hlater.trans hlater'
  have hanswer := hallows ((hafter.firm c hc).mpr hfirm)
  cases answer with
  | none => exact hk _ m' ⟨nofun, hm', hafter⟩
  | some f =>
    refine hk _ m' ⟨fun g heq => ?_, hm', hafter⟩
    cases heq
    exact hanswer g rfl

/-! ### How computations end -/

/-- However the computation ends, its ending has the property. -/
def EndsIn (p : Ending α → Prop) (x : Act σ ν α) : Prop :=
  ∀ k k' : Ending α → Task σ ν, (∀ r, p r → k r = k' r) → x k = x k'

/-- The ending is not in a fault. -/
abbrev Faultless (r : Ending α) : Prop := ∀ f, r ≠ .error (.fault f)

theorem endsIn_ofEnding {p : Ending α → Prop} {r : Ending α} (h : p r) :
    EndsIn p (ofEnding r : Act σ ν α) :=
  fun _ _ hk => hk r h

theorem EndsIn.imp {p q : Ending α → Prop} (h : EndsIn p x) (hpq : ∀ r, p r → q r) : EndsIn q x :=
  fun k k' hk => h k k' fun r hr => hk r (hpq r hr)

theorem endsIn_bind {p : Ending α → Prop} {q : Ending β → Prop} {f : α → Act σ ν β}
    (hx : EndsIn p x) (hf : ∀ a, p (.ok a) → EndsIn q (f a))
    (herr : ∀ e, p (.error e) → q (.error e)) : EndsIn q (x >>= f) := by
  intro k k' hk
  refine hx _ _ fun r hr => ?_
  cases r with
  | ok a => exact hf a hr k k' hk
  | error e => exact hk _ (herr e hr)

/-- The computation comes to a value. -/
abbrev Succeeds (x : Act σ ν α) : Prop := EndsIn (fun r => ∃ a, r = .ok a) x

theorem Succeeds.bind {q : Ending β → Prop} {f : α → Act σ ν β} (hx : Succeeds x)
    (hf : ∀ a, EndsIn q (f a)) : EndsIn q (x >>= f) :=
  endsIn_bind hx (fun a _ => hf a) fun _ ⟨_, h⟩ => nomatch h

theorem Succeeds.faultless (hx : Succeeds x) : EndsIn Faultless x :=
  hx.imp fun _ ⟨_, heq⟩ _ hf => nomatch heq.symm.trans hf

theorem succeeds_pure (a : α) : Succeeds (pure a : Act σ ν α) := endsIn_ofEnding ⟨a, rfl⟩

theorem succeeds_attempt (x : Act σ ν α) : Succeeds (attempt x) :=
  fun _ _ hk => congrArg x (funext fun r => hk (.ok r) ⟨r, rfl⟩)

theorem succeeds_change (f : σ → α × σ) : Succeeds (change f : Act σ ν α) := by
  intro k k' hk
  change Task.look (fun s => Task.put (f s).2 (k (.ok (f s).1))) =
    Task.look fun s => Task.put (f s).2 (k' (.ok (f s).1))
  exact congrArg Task.look (funext fun s => by rw [hk _ ⟨_, rfl⟩])

/-- What is known of the ending of a computation is known after it. -/
theorem EndsIn.achieves {p : Ending α → Prop} (hx : EndsIn p x) {r₀ : Ending α} (hr₀ : p r₀)
    {P : Moment σ → Prop} (h : Achieves R pre x fun _ => P) :
    Achieves R pre x fun r m => p r ∧ P m := by
  classical
  intro k Q m hm hk
  -- as the computation does not end in another way, it does not matter what comes after that
  let usual (r : Ending α) : Ending α := if p r then r else r₀
  have husual : ∀ r, p (usual r) := by
    intro r
    by_cases hr : p r
    · simpa only [usual, if_pos hr] using hr
    · simpa only [usual, if_neg hr] using hr₀
  rw [hx k (fun r => k (usual r)) fun r hr => by simp only [usual, if_pos hr]]
  exact h _ Q m hm fun r m' hm' => hk _ m' ⟨husual r, hm'⟩

end Act

end ChatCommands.Concurrency
