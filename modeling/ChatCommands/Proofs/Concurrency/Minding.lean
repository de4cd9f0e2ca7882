import ChatCommands.Proofs.Concurrency.Commons

/-!
Those who mind their own business.

Such a computation leaves a part of the shared state alone and settles no cells but those that it
knows; it knows the signals that it has made.  If a commons is about that part, and the cells are
loose, then the computation tends the commons, whatever else it does and however it is interrupted.
-/

namespace ChatCommands.Concurrency

variable {σ ν κ : Type}

/-- The cells that are known after a step. -/
def Call.learnt : (c : Call ν) → (known : Nat → Prop) → c.Reply → Nat → Prop
  | .newSignal .., known, reply => fun i => known i ∨ i = reply
  | _, known, _ => known

/-- From the state `s` on the task, which knows some cells, comes to one of the `exits` by steps that
leave a part of the shared state alone and settle only cells that it knows; what it starts does the
same up to its end. -/
inductive Task.Minds {τ : Type} (view : σ → τ) :
    (exits : (Nat → Prop) → Task σ ν → Prop) → (known : Nat → Prop) → σ → Task σ ν → Prop
  | exit {exits known s t} (h : exits known t) : Minds view exits known s t
  | look {exits known s next} (h : Minds view exits known s (next s)) :
    Minds view exits known s (.look next)
  | put {exits known s s' next} (hview : view s = view s') (h : Minds view exits known s' next) :
    Minds view exits known s (.put s' next)
  | call {exits known s c next} (hc : ∀ i, c.target? = some i → known i)
    (h : ∀ reply, Minds view exits (c.learnt known reply) s (next reply)) :
    Minds view exits known s (.call c next)
  | spawn {exits known s repeated body next}
    (hbody : ∀ s', Minds view (fun _ t => ∃ r, t = .finish r) known s' body)
    (h : ∀ t, Minds view exits known s (next t)) : Minds view exits known s (.spawn repeated body next)
  | watch {exits known s cell reaction next} (hprompt : ∀ status, (reaction status).Prompt)
    (hreaction : ∀ status s', Minds view (fun _ t => ∃ r, t = .finish r) known s' (reaction status))
    (h : ∀ w, Minds view exits known s (next w)) :
    Minds view exits known s (.watch cell reaction next)
  | wait {exits known s what next} (h : ∀ answer s', Minds view exits known s' (next answer)) :
    Minds view exits known s (.wait what next)

namespace Task

variable {τ : Type} {view : σ → τ} {exits exits' : (Nat → Prop) → Task σ ν → Prop}
  {known : Nat → Prop} {s : σ} {t : Task σ ν}

/-- One exit after another. -/
theorem Minds.trans (h : t.Minds view exits known s)
    (hexit : ∀ known s t, exits known t → t.Minds view exits' known s) :
    t.Minds view exits' known s := by
  induction h with
  | exit h => exact hexit _ _ _ h
  | look _ ih => exact .look (ih hexit)
  | put hview _ ih => exact .put hview (ih hexit)
  | call hc _ ih => exact .call hc fun reply => ih reply hexit
  | spawn hbody _ _ ih => exact .spawn hbody fun t => ih t hexit
  | watch hprompt hreaction _ _ ih => exact .watch hprompt hreaction fun w => ih w hexit
  | wait _ ih => exact .wait fun answer s' => ih answer s' hexit

theorem Minds.mono (h : t.Minds view exits known s)
    (hexit : ∀ known t, exits known t → exits' known t) : t.Minds view exits' known s :=
  h.trans fun _ _ _ h => .exit (hexit _ _ h)

end Task

namespace Commons

variable {C : Commons σ ν κ} {τ : Type} {view : σ → τ}

/-- What is not lost while one minds one's own business. -/
structure Steady (C : Commons σ ν κ) (view : σ → τ) (P : Share σ ν κ → Prop) : Prop where
  holds : ∀ x, P x → C.holds x.scene x.total
  wait : ∀ x x', P x → C.holds x'.scene x'.total → x'.own = x.own →
    C.Later x.scene x.total x'.scene x'.total → P x'
  put : ∀ x s, P x → view x.scene.shared = view s → P (x.put s x.own)
  drift : ∀ x sc, P x → x.scene.Drifts (C.loose x.scene.size x.total) sc → P { x with scene := sc }

/-- The commons is about a part of the shared state. -/
def About (C : Commons σ ν κ) (view : σ → τ) : Prop :=
  ∀ sc s g, view sc.shared = view s → C.holds sc g → C.holds (sc.put s) g

theorem steady_holds (hC : C.Lawful) (hview : C.About view) (own : Multiset κ) :
    C.Steady view fun x => C.holds x.scene x.total ∧ x.own = own where
  holds _ h := h.1
  wait _ _ h hh hown _ := ⟨hh, hown.trans h.2⟩
  put _ s h heq := ⟨hview _ s _ heq h.1, h.2⟩
  drift _ _ h hdrift := ⟨hC.drift h.1 hdrift, h.2⟩

/-- **Who minds one's own business tends the commons.** -/
theorem tends_of_minds (hC : C.Lawful) (hview : C.About view)
    {exits : (Nat → Prop) → Task σ ν → Prop} {known : Nat → Prop} {s : σ} {t : Task σ ν}
    (h : t.Minds view exits known s) : ∀ {P : Share σ ν κ → Prop}
    {Q : Ending ν → Share σ ν κ → Prop} {x : Share σ ν κ}, C.Steady view P → P x →
      x.scene.shared = s → (∀ c, known c → C.loose x.scene.size x.total c) →
      (∀ t known x, exits known t → P x → (∀ c, known c → C.loose x.scene.size x.total c) →
        t.Tends C Q x) → t.Tends C Q x := by
  -- what it starts has no stakes, and ends with none
  have hend : ∀ (t : Task σ ν) (known : Nat → Prop) (x : Share σ ν κ), (∃ r, t = .finish r) →
      C.holds x.scene x.total ∧ x.own = 0 → (∀ c, known c → C.loose x.scene.size x.total c) →
      t.Tends C C.Ended x := by
    rintro _ _ x ⟨r, rfl⟩ ⟨hh, hown⟩ -
    change C.holds x.scene x.rest
    rwa [Share.total, hown, Multiset.zero_add] at hh
  have hsteady := steady_holds hC hview 0
  induction h with
  | exit h => exact fun _ hx _ hknown hexit => hexit _ _ _ h hx hknown
  | look _ ih =>
    intro P Q x hP hx hs hknown hexit
    subst hs
    exact ih hP hx rfl hknown hexit
  | put heq _ ih =>
    intro P Q x hP hx hs hknown hexit
    subst hs
    exact ⟨x.own, fun _ h => h, ih hP (hP.put x _ hx heq) rfl hknown hexit⟩
  | @call exits known s c next hc _ ih =>
    intro P Q x hP hx hs hknown hexit
    subst hs
    refine ⟨x.own, fun _ h => h, fun i hi => hknown i (hc i ?_), fun reply sc hsc => ?_⟩
    · cases c <;> first | exact hi | cases hi
    · have hdrift := (hsc.drifts hc).mono hknown
      refine ih reply hP (hP.drift x sc hx hdrift) hdrift.shared (fun i hi => ?_) hexit
      cases c with
      | newSignal count members =>
        obtain ⟨rfl, rfl⟩ := hsc
        rcases hi with hi | rfl
        · exact hC.grow hdrift.size (hknown i hi)
        · exact hC.fresh (hP.holds x hx)
      | _ => exact hC.grow hdrift.size (hknown i hi)
  | spawn _ _ ihbody ih =>
    intro P Q x hP hx hs hknown hexit
    subst hs
    have hh := hP.holds x hx
    have hdrift : x.scene.Drifts (C.loose x.scene.size x.total) (x.scene.push .pending True) :=
      (Scene.drifts_push ..).mono fun _ => False.elim
    refine ⟨0, x.own, (Multiset.zero_add _).symm, fun _ => rfl,
      fun _ _ h => by rwa [Multiset.zero_add] at h, hC.fresh hh, fun x' hh' hown hl => ?_, ?_⟩
    · exact ihbody x'.scene.shared hsteady ⟨hh', hown⟩ rfl (fun c hc => hl.loose c (hknown c hc))
        fun t known x hr hx hk => hend t known x hr hx hk
    · rw [Multiset.zero_add]
      exact ih x.scene.size hP (hP.drift x _ hx hdrift) rfl
        (fun c hc => hC.grow hdrift.size (hknown c hc)) hexit
  | watch hprompt _ _ ihreaction ih =>
    intro P Q x hP hx hs hknown hexit
    refine ⟨hprompt, fun status x' hh hown hl => ?_, fun w => ih w hP hx hs hknown hexit⟩
    exact ihreaction status x'.scene.shared hsteady ⟨hh, hown⟩ rfl
      (fun c hc => hl.loose c (hknown c hc)) fun t known x hr hx hk => hend t known x hr hx hk
  | wait _ ih =>
    intro P Q x hP hx hs hknown hexit
    refine ⟨hP.holds x hx, fun answer x' hh hown hl _ => ?_⟩
    exact ih answer _ hP (hP.wait x x' hx hh hown hl) rfl (fun c hc => hl.loose c (hknown c hc)) hexit

end Commons

namespace Act

variable {C : Commons σ ν κ} {τ α β : Type} {view : σ → τ} {known : Nat → Prop} {x : Act σ ν α}

/-- Knowing some cells, the computation leaves a part of the shared state alone and settles only
cells that it knows, and so does what it starts. -/
def Minds (view : σ → τ) (known : Nat → Prop) (x : Act σ ν α) : Prop :=
  ∀ (k : Ending α → Task σ ν) (known' : Nat → Prop) (s : σ), (∀ c, known c → known' c) →
    (x k).Minds view (fun known'' t => (∃ r, t = k r) ∧ ∀ c, known' c → known'' c) known' s

/-- A computation that minds its own business. -/
theorem Minds.manages (h : Minds view known x) (hC : C.Lawful) (hview : C.About view)
    {P : Share σ ν κ → Prop} (hP : C.Steady view P)
    (hknown : ∀ c, known c → ∀ n g, C.loose n g c) : Manages C P x fun _ => P := by
  intro k Q s hs hk
  refine Commons.tends_of_minds hC hview (h k known s.scene.shared fun _ hc => hc) hP hs rfl
    (fun c hc => hknown c hc _ _) ?_
  rintro _ _ x ⟨⟨r, rfl⟩, -⟩ hx -
  exact hk r x hx

/-- What is known for good is not lost either. -/
theorem steady_fact {P : Share σ ν κ → Prop} (hP : C.Steady view P) (p : Prop) :
    C.Steady view fun s => p ∧ P s where
  holds x h := hP.holds x h.2
  wait x x' h hh hown hl := ⟨h.1, hP.wait x x' h.2 hh hown hl⟩
  put x s h heq := ⟨h.1, hP.put x s h.2 heq⟩
  drift x sc h hdrift := ⟨h.1, hP.drift x sc h.2 hdrift⟩

/-- A primitive step that settles nothing. -/
theorem manages_steady_call_bind {P : Share σ ν κ → Prop} (hP : C.Steady view P) {c : Call ν}
    (htarget : c.target? = none) (htimed : c.timed? = none) {f : c.Reply → Act σ ν β}
    {post : Ending β → Share σ ν κ → Prop} (hf : ∀ reply, Manages C P (f reply) post) :
    Manages C P (call c >>= f) post := by
  refine manages_call_bind (fun s hs => ?_) hf
  refine ⟨s.own, fun _ h => h, fun i hi => ?_, fun reply sc hsc => hP.drift s sc hs ?_⟩
  · rw [htimed] at hi
    cases hi
  · refine hsc.drifts fun i hi => ?_
    rw [htarget] at hi
    cases hi

/-- Under a time limit a computation ends as it does by itself, or with a timeout if it has been
interrupted. -/
theorem manages_within {pre : Share σ ν κ → Prop} {mid : Ending α → Share σ ν κ → Prop}
    (hpre : C.Steady view pre) (hmid : ∀ r, C.Steady view (mid r)) (hx : Manages C pre x mid)
    (htimeout : ∀ s, mid (.error .interrupted) s → mid (.error (.fault (.of .timeout []))) s)
    (limit : Option Rat) : Manages C pre (within limit x) mid := by
  cases limit with
  | none => exact hx
  | some d =>
    refine manages_steady_call_bind hpre rfl rfl fun a => manages_attempt_bind hx fun r =>
      manages_steady_call_bind (hmid r) rfl rfl fun expired => ?_
    split
    · exact manages_ofEnding _ htimeout
    · exact manages_ofEnding _ fun s hs => hs

/-! ### What is put together -/

variable {β : Type}

theorem minds_ofEnding (r : Ending α) : Minds view known (ofEnding r : Act σ ν α) :=
  fun _ _ _ _ => .exit ⟨⟨r, rfl⟩, fun _ hc => hc⟩

theorem minds_pure (a : α) : Minds view known (pure a : Act σ ν α) := minds_ofEnding _

theorem minds_bind {f : α → Act σ ν β} (hx : Minds view known x) (hf : ∀ a, Minds view known (f a)) :
    Minds view known (x >>= f) := by
  intro k known' s hknown
  refine (hx _ known' s hknown).trans ?_
  rintro known'' s' _ ⟨⟨r, rfl⟩, hmore⟩
  cases r with
  | ok a =>
    refine (hf a k known'' s' fun c hc => hmore c (hknown c hc)).mono ?_
    exact fun _ _ ⟨hr, hmore'⟩ => ⟨hr, fun c hc => hmore' c (hmore c hc)⟩
  | error e => exact .exit ⟨⟨.error e, rfl⟩, hmore⟩

theorem minds_attempt (hx : Minds view known x) : Minds view known (attempt x) :=
  fun _ known' s hknown => (hx _ known' s hknown).mono fun _ _ ⟨⟨r, hr⟩, hmore⟩ =>
    ⟨⟨.ok r, hr⟩, hmore⟩

theorem minds_change {f : σ → α × σ} (hf : ∀ s, view s = view (f s).2) :
    Minds view known (change f : Act σ ν α) :=
  fun _ _ s _ => .look (.put (hf s) (.exit ⟨⟨.ok (f s).1, rfl⟩, fun _ hc => hc⟩))

theorem minds_call {c : Call ν} (hc : ∀ i, c.target? = some i → known i) :
    Minds view known (call c : Act σ ν c.Reply) := by
  refine fun k known' s hknown => .call (fun i hi => hknown i (hc i hi)) fun reply => ?_
  refine .exit ⟨⟨.ok reply, rfl⟩, fun i hi => ?_⟩
  cases c with
  | newSignal => exact .inl hi
  | _ => exact hi

/-- A signal that one has made is known. -/
theorem minds_newSignal_bind {count : Nat} {members : List Nat} {f : Nat → Act σ ν β}
    (hf : ∀ s, Minds view (fun i => known i ∨ i = s) (f s)) :
    Minds view known (call (.newSignal count members) >>= f) := by
  intro k known' s hknown
  refine .call nofun fun (reply : Nat) => ?_
  refine (hf reply k _ s fun i hi => hi.imp_left (hknown i)).mono ?_
  exact fun _ _ ⟨hr, hmore⟩ => ⟨hr, fun i hi => hmore i (.inl hi)⟩

theorem minds_wait (what : Awaited) : Minds view known (wait what : Act σ ν Unit) := by
  refine fun k known' s _ => .wait fun answer s' => ?_
  cases answer with
  | none => exact .exit ⟨⟨.ok (), rfl⟩, fun _ hc => hc⟩
  | some f => exact .exit ⟨⟨.error f, rfl⟩, fun _ hc => hc⟩

theorem Minds.toTask {toValue : α → ν} (h : Minds view known x) {known' : Nat → Prop}
    (hknown : ∀ c, known c → known' c) (s : σ) :
    (toTask toValue x).Minds view (fun _ t => ∃ r, t = .finish r) known' s :=
  (h _ known' s hknown).mono fun _ _ ⟨⟨r, hr⟩, _⟩ => ⟨r.map toValue, hr⟩

theorem minds_spawn {toValue : α → ν} (hx : Minds view known x) :
    Minds view known (spawn toValue x : Act σ ν Nat) :=
  fun _ _ _ hknown => .spawn (fun s' => hx.toTask hknown s') fun t =>
    .exit ⟨⟨.ok t, rfl⟩, fun _ hc => hc⟩

theorem minds_spawnForever {value : ν} {x : Act σ ν Unit} (hx : Minds view known x) :
    Minds view known (spawnForever value x : Act σ ν Nat) :=
  fun _ _ _ hknown => .spawn (fun s' => hx.toTask hknown s') fun t =>
    .exit ⟨⟨.ok t, rfl⟩, fun _ hc => hc⟩

theorem minds_watch {value : ν} {cell : Nat} {x : CellStatus ν → Act σ ν Unit}
    (hprompt : ∀ status, (x status).Prompt) (hx : ∀ status, Minds view known (x status)) :
    Minds view known (watch value cell x : Act σ ν Nat) :=
  fun _ _ _ hknown => .watch (fun status => hprompt status _ fun _ => trivial)
    (fun status s' => (hx status).toTask hknown s') fun w => .exit ⟨⟨.ok w, rfl⟩, fun _ hc => hc⟩

/-- Whoever sleeps settles no cell but the signal that it has made for that. -/
theorem minds_sleep (d : Option Rat) : Minds view known (sleep d : Act σ ν Unit) := by
  unfold sleep
  split
  · exact minds_newSignal_bind fun s => minds_wait _
  · split
    · exact minds_wait _
    · refine minds_newSignal_bind fun s => minds_bind (minds_call fun i hi => .inr ?_) fun t => ?_
      · exact (Option.some.inj hi).symm
      · exact minds_bind (minds_attempt (minds_wait _)) fun r =>
          minds_bind (minds_call nofun) fun _ => minds_ofEnding r

theorem minds_composed : Composed (ν := ν) view fun x => Minds view known x where
  ofEnding r := minds_ofEnding r
  bind hx hf := minds_bind hx hf
  attempt hx := minds_attempt hx
  gets f := fun _ _ s _ => .look (.exit ⟨⟨.ok (f s), rfl⟩, fun _ hc => hc⟩)
  change hf := minds_change hf
  wait what := minds_wait what
  spawn hx := minds_spawn hx
  spawnForever hx := minds_spawnForever hx
  watch hprompt hx := minds_watch hprompt hx

/-- Whoever waits for tasks settles no cell but the signal that it has made for that. -/
theorem minds_gather (value : ν) (passOver : Bool) (tasks : List Nat) :
    Minds view known (gather value passOver tasks : Act σ ν Unit) := by
  have hcount : ∀ (known : Nat → Prop) (s : Nat), known s → ∀ status,
      Minds view known (countEnd passOver s status : Act σ ν Unit) := by
    intro known s hs status
    have htarget : ∀ {c : Call ν}, c.target? = some s → ∀ i, c.target? = some i → known i := by
      intro c hc i hi
      cases hc.symm.trans hi
      exact hs
    match status with
    | .ended (.error _) => exact minds_composed.ite (minds_call (htarget rfl)) (minds_call (htarget rfl))
    | .pending | .fired | .ended (.ok _) => exact minds_call (htarget rfl)
  refine minds_newSignal_bind fun s => minds_bind (minds_composed.forM (fun _ => ?_) tasks) fun _ =>
    minds_composed.ite (minds_wait _) (minds_pure _)
  exact minds_bind (minds_watch (prompt_countEnd _ _) (hcount _ s (.inr rfl))) fun _ => minds_pure _

/-- Computations that leave a part of the shared state alone make up others that do, if all cells
may be settled. -/
theorem minds_closed : Closed (ν := ν) view fun x => Minds view (fun _ => True) x :=
  minds_composed.closed fun _ => minds_call fun _ _ => trivial

end Act

end ChatCommands.Concurrency
