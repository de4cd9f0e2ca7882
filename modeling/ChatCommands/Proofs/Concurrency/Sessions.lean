import ChatCommands.Proofs.Concurrency.Rounds
import ChatCommands.Proofs.Concurrency.Reachable

/-!
Runs of tasks that wait for nothing but the time.

Tasks come in at any time, each under a number of its own, and rounds are run.  Each task keeps the
pact, so from any state on the rounds come to an end, and then all tasks are over.  Main statements:
`Session.settles`, `run_ends`.
-/

namespace ChatCommands.Concurrency.Scheduler

variable {σ ν : Type} {P : Pact σ ν} {k k' : Scheduler σ ν} {crew : List Nat} {st : Nat → Stance}
  {t : Nat}

/-! ### The end of all rounds -/

/-- **The rounds come to an end.** -/
theorem Rhythm.settles (hP : P.Lawful) (hholds : P.holds k.shared) (h : Rhythm P crew st none [] k) :
    ∃ n st', P.holds (k.rounds n).shared ∧ Rhythm P crew st' none [] (k.rounds n) ∧
      (k.rounds n).round? = none := by
  -- by induction on what is left to do
  generalize hleft : leftToDo crew st [] k = left
  induction left using WellFoundedLT.induction generalizing k st with
  | _ left ih =>
    cases hround : k.round? with
    | none => exact ⟨0, st, hholds, h, hround⟩
    | some k' =>
      obtain ⟨hholds', st', h', hlt⟩ := h.round hP hholds hround
      obtain ⟨n, st'', hend⟩ := ih _ (hleft ▸ hlt) hholds' h' rfl
      refine ⟨n + 1, st'', ?_⟩
      rw [Scheduler.rounds, hround]
      exact hend

/-- **A task that is waited for comes to its end.** -/
theorem Rhythm.runUntil (hP : P.Lawful) (hholds : P.holds k.shared) (h : Rhythm P crew st none [] k)
    (ht : t ∈ crew) : ∃ k', (∃ n, ∀ m, n ≤ m → k.runUntil t m = k') ∧
      ∃ r, k'.statusOf t = .ended r ∧ P.done t r k'.shared := by
  generalize hleft : leftToDo crew st [] k = left
  induction left using WellFoundedLT.induction generalizing k st with
  | _ left ih =>
    have hover : Over P k t (st t) → ∃ r, k.statusOf t = .ended r ∧ P.done t r k.shared := by
      intro hover
      obtain ⟨cell, r, hcell, -, hended, hdone⟩ := hover.ended
      exact ⟨r, by rw [statusOf, hcell]; exact hended, hdone⟩
    rcases h.stand ht with ⟨cell, ts, hr⟩ | hended
    · have hpending : (k.statusOf t).isDone = false := by
        rw [statusOf, hr.found]
        simp only [hr.task.status]
        rfl
      cases hround : k.round? with
      | none =>
        obtain ⟨r, hended, -⟩ := hover (h.idle hround ht)
        rw [hended] at hpending
        cases hpending
      | some k' =>
        obtain ⟨hholds', st', h', hlt⟩ := h.round hP hholds hround
        obtain ⟨k'', ⟨n, hn⟩, hend⟩ := ih _ (hleft ▸ hlt) hholds' h' rfl
        refine ⟨k'', ⟨n + 1, fun m hm => ?_⟩, hend⟩
        obtain ⟨m, rfl⟩ := Nat.exists_eq_add_of_lt (Nat.lt_of_lt_of_le (Nat.lt_succ_self n) hm)
        rw [Scheduler.runUntil, hpending, hround]
        exact hn _ (Nat.le_add_right n m)
    · obtain ⟨r, hend, hdone⟩ := hover hended
      refine ⟨k, ⟨0, fun m _ => ?_⟩, r, hend, hdone⟩
      cases m with
      | zero => rfl
      | succ m =>
        rw [Scheduler.runUntil, hend]
        rfl

/-! ### Tasks that come in -/

theorem Rhythm.lt_size (h : Rhythm P crew st none [] k) (ht : t ∈ crew) : t < k.cells.size := by
  rcases h.stand ht with ⟨cell, ts, hr⟩ | hover
  · exact (Array.getElem?_eq_some_iff.mp hr.found).1
  · obtain ⟨cell, r, hcell, -⟩ := hover.ended
    exact (Array.getElem?_eq_some_iff.mp hcell).1

theorem leavesBe_addTask (hP : P.Lawful) (k : Scheduler σ ν) (t : Nat) (body : Task σ ν) :
    LeavesBe P t [] [] k (k.addTask false body).2 := by
  have hcells : ∀ (c : Nat) cell, k.cells[c]? = some cell →
      (k.addTask false body).2.cells[c]? = some cell := by
    intro c cell hcell
    refine (Array.getElem?_push ..).trans ?_
    rw [if_neg (Nat.ne_of_lt (Array.getElem?_eq_some_iff.mp hcell).1)]
    exact hcell
  exact ⟨hcells t, fun c cell hcell _ _ => hcells c cell hcell, fun _ _ h _ => ⟨h, id⟩,
    fun _ _ dropped h => ⟨dropped, h⟩, fun _ _ h _ => h, fun _ h => h,
    fun _ h => Array.mem_push_of_mem _ h, fun _ => id, rfl, hP.refl t _⟩

/-- **A task comes in.** -/
theorem Rhythm.addTask (hP : P.Lawful) (hholds : P.holds k.shared) (h : Rhythm P crew st none [] k)
    (halone : P.alone → crew = []) (body : Task σ ν) {n : Nat}
    (hbody : ∀ s, P.holds s → P.fresh k.cells.size s →
      body.Paced P k.cells.size n ⟨s, k.clock, .clean⟩) :
    ∃ st', P.holds (k.addTask false body).2.shared ∧
      Rhythm P (k.cells.size :: crew) st' none [] (k.addTask false body).2 := by
  let new : Stance := { since := k.clock, rests := n + 1 }
  have hfresh : P.fresh k.cells.size k.shared :=
    h.fresh _ fun hin => Nat.lt_irrefl _ (h.lt_size hin)
  have hother : ∀ t ∈ crew, Function.update st k.cells.size new t = st t := fun t ht =>
    Function.update_of_ne (Nat.ne_of_lt (h.lt_size ht)) ..
  have htimers : timersOf (k.addTask false body).2.ready.toList = timersOf k.ready.toList := by
    change timersOf (k.ready.push _).toList = _
    rw [Array.toList_push, timersOf_append]
    exact List.append_nil _
  have hcalls : calls [] (k.addTask false body).2 = calls [] k := by
    unfold calls
    rw [timersOf_append, timersOf_append, htimers]
    rfl
  refine ⟨Function.update st k.cells.size new, hholds, ?_, ?_, fun j hj => ?_, fun t ht _ => ?_,
    fun i hi => ?_, fun i hi action hduty => ?_, fun hal => ⟨?_, fun hw => absurd rfl hw, ?_⟩⟩
  · rw [waitsFor_update]
    exact h.orderly.addTask nofun false body
  · refine h.clockwork.same rfl rfl le_rfl ?_
    rw [timersOf_append, timersOf_append, htimers]
  · rw [List.nil_append, Array.mem_toList_iff] at hj
    rcases Array.mem_push.mp hj with hj | rfl
    · have hcrew := h.jobs j (Array.mem_toList_iff.mpr hj)
      cases j with
      | turn t x => exact List.mem_cons_of_mem _ hcrew
      | run c program => exact hcrew
      | timer i => trivial
    · exact List.mem_cons_self
  · rcases List.mem_cons.mp ht with rfl | ht
    · -- the task waits for its first turn
      rw [Function.update_self]
      refine .inl ⟨_, _, Array.getElem?_push_size, ⟨rfl, rfl, rfl, rfl⟩, trivial, nofun,
        ⟨_, n, rfl, rfl, fun answer j' hh hm hw => ?_⟩,
        .roused ⟨rfl, rfl, nofun, rfl, .inl ⟨?_, rfl⟩⟩⟩
      · obtain ⟨s, clock, hand⟩ := j'
        cases hw
        exact hbody s hh (hP.fresh hm hfresh)
      · exact mem_wakes.mpr (Array.mem_toList_iff.mpr Array.mem_push_self)
    · rw [hother t ht]
      have hleft := leavesBe_addTask hP k t body
      exact (h.stand ht).imp (·.spared hP hleft) (·.spared hP hleft)
  · exact h.fresh i fun hin => hi (List.mem_cons_of_mem _ hin)
  · rw [hcalls] at hi
    obtain ⟨t, ht, howns⟩ := h.owned i hi action hduty
    refine ⟨t, List.mem_cons_of_mem _ ht, ?_⟩
    rw [hother t ht]
    exact howns.congr fun _ _ ha => ha
  · rw [halone hal]
    intro t ht t' ht'
    rw [List.mem_singleton.mp ht, List.mem_singleton.mp ht']
  · rw [htimers]
    refine .inr ((h.lone hal).kept.resolve_left fun ⟨t, ht, _⟩ => ?_)
    rw [halone hal] at ht
    cases ht

theorem rhythm_start {s : σ} (hfresh : ∀ n, P.fresh n s) (st : Nat → Stance) :
    Rhythm P [] st none [] ({ shared := s } : Scheduler σ ν) := by
  have hnocell : ∀ {c : Nat} {cell : Cell σ ν}, (#[] : Array (Cell σ ν))[c]? ≠ some cell := by simp
  have hdead : ∀ t, ¬ ({ shared := s } : Scheduler σ ν).Live t := by
    intro t ht
    obtain ⟨cell, hc, -⟩ := live_iff.mp ht
    exact hnocell hc
  refine ⟨⟨fun _ _ hc => absurd hc hnocell, fun _ _ hc => absurd hc hnocell,
    fun _ _ hc => absurd hc hnocell, fun _ hw => absurd hw List.not_mem_nil,
    fun t ht => absurd ht (hdead t)⟩, ⟨TimerHeap.inOrder_empty, ?_, fun _ hx => ?_, fun _ hi => ?_, ?_⟩,
    fun _ hj => absurd hj List.not_mem_nil, fun _ ht => absurd ht List.not_mem_nil, fun n _ => hfresh n,
    fun _ hi => absurd hi List.not_mem_nil, fun _ => ⟨?_, fun hw => absurd rfl hw, .inr nofun⟩⟩
  · exact Binary64.snap_zero
  · exact absurd hx (Array.not_mem_empty _)
  · exact absurd hi List.not_mem_nil
  · exact List.nodup_nil
  · exact fun _ ht => absurd ht List.not_mem_nil

/-! ### Runs -/

/-- The states of runs that begin with a shared state of `start`.  The tasks with the numbers `crew`
have come in, the latest first; each of them is among the `arrivals` for its number. -/
inductive Session (start : σ → Prop) (arrivals : Nat → Task σ ν → Prop) :
    List Nat → Scheduler σ ν → Prop
  | start {s : σ} (h : start s) : Session start arrivals [] { shared := s }
  | arrive {crew : List Nat} {k : Scheduler σ ν} {body : Task σ ν} (h : Session start arrivals crew k)
    (hbody : arrivals k.cells.size body) :
    Session start arrivals (k.cells.size :: crew) (k.addTask false body).2
  | round {crew : List Nat} {k k' : Scheduler σ ν} (h : Session start arrivals crew k)
    (hround : k.round? = some k') : Session start arrivals crew k'

variable {start : σ → Prop} {arrivals : Nat → Task σ ν → Prop}

theorem Session.rounds (h : Session start arrivals crew k) (count : Nat) :
    Session start arrivals crew (k.rounds count) := by
  induction count generalizing k with
  | zero => exact h
  | succ count ih =>
    unfold Scheduler.rounds
    cases hround : k.round? with
    | none => exact h
    | some k' => exact ih (h.round hround)

/-- **Every run keeps the rhythm** if every task that comes in keeps the pact. -/
theorem Session.rhythm (hP : P.Lawful) (hmany : ¬ P.alone)
    (hstart : ∀ s, start s → P.holds s ∧ ∀ n, P.fresh n s)
    (harrivals : ∀ me body, arrivals me body → ∃ n, ∀ s clock, P.holds s → P.fresh me s →
      body.Paced P me n ⟨s, clock, .clean⟩)
    (h : Session start arrivals crew k) : P.holds k.shared ∧ ∃ st, Rhythm P crew st none [] k := by
  induction h with
  | start hs => exact ⟨(hstart _ hs).1, fun _ => {}, rhythm_start (hstart _ hs).2 _⟩
  | arrive _ hbody ih =>
    obtain ⟨hholds, st, hr⟩ := ih
    obtain ⟨n, hn⟩ := harrivals _ _ hbody
    obtain ⟨st', hholds', hr'⟩ := hr.addTask hP hholds (fun hal => absurd hal hmany)
      _ fun s hh hf => hn s _ hh hf
    exact ⟨hholds', st', hr'⟩
  | round _ hround ih =>
    obtain ⟨hholds, st, hr⟩ := ih
    obtain ⟨hholds', st', hr', -⟩ := hr.round hP hholds hround
    exact ⟨hholds', st', hr'⟩

/-- Every task that comes in has a number of its own. -/
theorem Session.nodup (hP : P.Lawful) (hmany : ¬ P.alone)
    (hstart : ∀ s, start s → P.holds s ∧ ∀ n, P.fresh n s)
    (harrivals : ∀ me body, arrivals me body → ∃ n, ∀ s clock, P.holds s → P.fresh me s →
      body.Paced P me n ⟨s, clock, .clean⟩)
    (h : Session start arrivals crew k) : crew.Nodup := by
  induction h with
  | start _ => exact List.nodup_nil
  | arrive h _ ih =>
    obtain ⟨-, st, hr⟩ := h.rhythm hP hmany hstart harrivals
    exact List.nodup_cons.mpr ⟨fun hin => Nat.lt_irrefl _ (hr.lt_size hin), ih⟩
  | round _ _ ih => exact ih

/-- **Every run comes to its end** once no more tasks come in, and then all tasks are over. -/
theorem Session.settles (hP : P.Lawful) (hmany : ¬ P.alone)
    (hstart : ∀ s, start s → P.holds s ∧ ∀ n, P.fresh n s)
    (harrivals : ∀ me body, arrivals me body → ∃ n, ∀ s clock, P.holds s → P.fresh me s →
      body.Paced P me n ⟨s, clock, .clean⟩)
    (h : Session start arrivals crew k) : ∃ n, (k.rounds n).round? = none := by
  obtain ⟨hholds, st, hr⟩ := h.rhythm hP hmany hstart harrivals
  obtain ⟨n, -, -, -, hnone⟩ := hr.settles hP hholds
  exact ⟨n, hnone⟩

/-- A task that has ended has done what it was to do; one that has not goes on. -/
theorem Session.ended (hP : P.Lawful) (hmany : ¬ P.alone)
    (hstart : ∀ s, start s → P.holds s ∧ ∀ n, P.fresh n s)
    (harrivals : ∀ me body, arrivals me body → ∃ n, ∀ s clock, P.holds s → P.fresh me s →
      body.Paced P me n ⟨s, clock, .clean⟩)
    (h : Session start arrivals crew k) (ht : t ∈ crew) :
    (∃ r, k.statusOf t = .ended r ∧ P.done t r k.shared) ∨
      k.statusOf t = .pending ∧ k.round? ≠ none := by
  obtain ⟨hholds, st, hr⟩ := h.rhythm hP hmany hstart harrivals
  have hover : Over P k t (st t) → ∃ r, k.statusOf t = .ended r ∧ P.done t r k.shared := by
    intro hover
    obtain ⟨cell, r, hcell, -, hended, hdone⟩ := hover.ended
    exact ⟨r, by rw [statusOf, hcell]; exact hended, hdone⟩
  rcases hr.stand ht with ⟨cell, ts, hrests⟩ | hended
  · have hpending : k.statusOf t = .pending := by
      rw [statusOf, hrests.found]
      exact hrests.task.status
    refine .inr ⟨hpending, fun hnone => ?_⟩
    obtain ⟨r, hended, -⟩ := hover (hr.idle hnone ht)
    cases hpending.symm.trans hended
  · exact .inl (hover hended)

/-- **A task that runs alone comes to its end.** -/
theorem run_ends (hP : P.Lawful) {s : σ} (hholds : P.holds s) (hfresh : ∀ n, P.fresh n s)
    (main : Task σ ν) {n : Nat}
    (hmain : ∀ s, P.holds s → P.fresh 0 s → main.Paced P 0 n ⟨s, 0, .clean⟩) :
    ∃ k, (∃ n, ∀ m, n ≤ m → (({ shared := s } : Scheduler σ ν).addTask false main).2.runUntil 0 m = k) ∧
      ∃ r, k.statusOf 0 = .ended r ∧ P.done 0 r k.shared := by
  have hstart := rhythm_start (ν := ν) hfresh fun _ => {}
  obtain ⟨st, hholds', hr⟩ := hstart.addTask hP hholds (fun _ => rfl) main hmain
  exact hr.runUntil hP hholds' List.mem_cons_self

end Scheduler

/-! ### Tasks that run alone -/

/-- The pact of the only task: nobody changes the shared state while it rests.  If it is `exact` the
task sets at most one alarm between two rests, and rests as long as it is to and no longer. -/
def Pact.solo {σ ν : Type} (exact : Prop) (start : σ) (post : Ending ν → σ → Prop) : Pact σ ν where
  holds _ := True
  meanwhile n s s' := n = 0 → s' = s
  fresh n s := n = 0 → s = start
  done n r s := n = 0 → post r s
  alone := exact

variable {σ ν α β : Type} {exact : Prop} {start : σ} {post : Ending ν → σ → Prop} {d : Rat}

theorem Pact.solo_lawful (exact : Prop) (start : σ) (post : Ending ν → σ → Prop) :
    (Pact.solo exact start post).Lawful :=
  ⟨fun _ _ _ => rfl, fun h h' hn => (h' hn).trans (h hn), fun h hf hn => (h hn).trans (hf hn),
    fun h hd hn => h hn ▸ hd hn⟩

/-- **The only task comes to its end.** -/
theorem Scheduler.solo_ends {main : Task σ ν} {n : Nat}
    (hmain : main.Paced (.solo exact start post) 0 n ⟨start, 0, .clean⟩) : ∃ k,
      (∃ n, ∀ m, n ≤ m → (Scheduler.addTask { shared := start } false main).2.runUntil 0 m = k) ∧
        ∃ r, k.statusOf 0 = .ended r ∧ post r k.shared := by
  obtain ⟨k, hruns, r, hr, hdone⟩ := Scheduler.run_ends (Pact.solo_lawful exact start post) trivial
    (fun _ _ => rfl) main fun s _ hf => by rw [hf rfl]; exact hmain
  exact ⟨k, hruns, r, hr, hdone rfl⟩

namespace Act

variable {j : Juncture σ}

theorem solo_change {f : σ → α × σ} : Paces (Pact.solo exact start post : Pact σ ν) 0 0 (· = j) (change f)
    fun r j' => r = .ok (f j.shared).1 ∧ j' = { j with shared := (f j.shared).2 } :=
  change_at fun _ ho h => absurd h ho

theorem solo_now : Paces (Pact.solo exact start post : Pact σ ν) 0 0 (· = j) now
    fun r j' => r = .ok j.clock ∧ j' = j :=
  paces_now fun _ hj => hj ▸ ⟨rfl, rfl⟩

theorem solo_gets {f : σ → α} : Paces (Pact.solo exact start post : Pact σ ν) 0 0 (· = j) (gets f)
    fun r j' => r = .ok (f j.shared) ∧ j' = j :=
  paces_gets fun _ hj => hj ▸ ⟨rfl, rfl⟩

/-- What is due after at least the resolution of the clock is not due now. -/
theorem eq_dueAfter {clock clock' : Rat} (hd : Scheduler.resolution ≤ d)
    (hdue : Scheduler.Due clock' (dueAfter clock d))
    (hclock : clock' = clock ∨ clock' = dueAfter clock d) : clock' = dueAfter clock d := by
  refine hclock.elim (fun heq => ?_) id
  subst heq
  rcases hdue with hle | hlt
  · exact le_antisymm (le_max_left ..) hle
  · refine absurd hlt (not_lt.mpr (le_trans ?_ (le_max_right ..)))
    exact Binary64.snap_mono (by linarith)

/-- The only task sleeps until it is due to go on. -/
theorem solo_nap (hexact : exact) (hd : Scheduler.resolution ≤ d) (hpos : 0 < d) (hhand : j.hand.Unarmed) :
    Paces (Pact.solo exact start post : Pact σ ν) 0 1 (· = j) (Act.sleep (some d)) fun r j' =>
      r = .ok () ∧ j' = ⟨j.shared, dueAfter j.clock d, .clean⟩ := by
  refine (paces_nap d (fun _ _ => trivial) fun _ hj => hj ▸ hhand).weaken (fun _ h => h)
    fun r j' hr => ?_
  obtain ⟨hok, hclean, -, j, rfl, hm, hw⟩ := hr
  obtain ⟨s, clock, hand⟩ := j'
  obtain rfl := hm rfl
  obtain rfl := hclean
  rw [Repose.ofDelay, if_neg (not_le.mpr hpos)] at hw
  refine ⟨hok, ?_⟩
  generalize j.hand = before at hw hhand
  cases hw with
  | rested _ hdue _ halone => exact congrArg (Juncture.mk _ · _) (eq_dueAfter hd hdue (halone hexact))

end Act

end ChatCommands.Concurrency
