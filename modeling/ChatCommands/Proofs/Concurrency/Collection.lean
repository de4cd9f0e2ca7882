import ChatCommands.Proofs.Concurrency.Queue

/-!
What a round begins with.

Before a round the dropped timers go that are in the way, the clock moves on to the first timer if
nothing is ready, and the timers that are due then become ready.  So each timer that was in the queue
is gone because it was dropped, or is due and ready, or is not yet due and still in the queue.  Main
statement: `collected`.
-/

namespace ChatCommands.Concurrency.Scheduler

variable {σ ν : Type} {k k' k'' : Scheduler σ ν}

/-- What a timer is for, and whether it is dropped. -/
def duty? (k : Scheduler σ ν) (t : Nat) : Option (TimerAction × Bool) :=
  k.timers[t]?.map fun timer => (timer.action, timer.dropped)

theorem isDropped_eq (k : Scheduler σ ν) (t : Nat) :
    k.isDropped t = ((k.duty? t).map Prod.snd).getD true := by
  unfold isDropped duty?
  rw [Option.map_map]
  rfl

/-- The timers are for the same as before, and only jobs have come up. -/
structure Passes (k k' : Scheduler σ ν) : Prop where
  shared : k'.shared = k.shared
  cells : k'.cells = k.cells
  alarms : k'.alarms = k.alarms
  duty : ∀ t, k'.duty? t = k.duty? t

theorem Passes.refl (k : Scheduler σ ν) : Passes k k := ⟨rfl, rfl, rfl, fun _ => rfl⟩

theorem Passes.trans (h : Passes k k') (h' : Passes k' k'') : Passes k k'' :=
  ⟨h'.shared.trans h.shared, h'.cells.trans h.cells, h'.alarms.trans h.alarms,
    fun t => (h'.duty t).trans (h.duty t)⟩

theorem Passes.isDropped (h : Passes k k') (t : Nat) : k'.isDropped t = k.isDropped t := by
  rw [isDropped_eq, isDropped_eq, h.duty]

theorem passes_unqueue (k : Scheduler σ ν) (t : Nat) : Passes k (k.unqueue t) := by
  refine ⟨rfl, rfl, rfl, fun i => ?_⟩
  unfold duty? unqueue
  rw [Array.getElem?_modify]
  split
  · rw [Option.map_map]
    rfl
  · rfl

/-! ### Dropped timers -/

/-- Dropped timers have gone from the queue, and the first one that is left is not dropped. -/
structure Tidied (k k' : Scheduler σ ν) : Prop extends Passes k k' where
  clock : k'.clock = k.clock
  ready : k'.ready = k.ready
  order : TimerHeap.InOrder k.queue → TimerHeap.InOrder k'.queue
  queue : ∃ gone, k.queue.toList.Perm (gone ++ k'.queue.toList) ∧ ∀ x ∈ gone, k.isDropped x.2 = true
  first : ∀ x, k'.queue.first? = some x → k.isDropped x.2 = false

theorem size_removeFirst {h : TimerHeap} {x : Rat × Nat} (hx : h.first? = some x) :
    h.removeFirst.size + 1 = h.size := by
  have hlength := (TimerHeap.perm_removeFirst hx).length_eq
  rwa [List.length_cons, Array.length_toList, Array.length_toList] at hlength

theorem tidied_skipDropped (fuel : Nat) : ∀ k : Scheduler σ ν, k.queue.size ≤ fuel →
    Tidied k (skipDropped fuel k) := by
  induction fuel with
  | zero =>
    intro k hfuel
    have hnone : k.queue = #[] := Array.eq_empty_of_size_eq_zero (Nat.le_zero.mp hfuel)
    refine ⟨.refl k, rfl, rfl, id, ⟨[], .refl _, nofun⟩, fun x hx => ?_⟩
    change k.queue.first? = some x at hx
    rw [hnone] at hx
    cases hx
  | succ fuel ih =>
    intro k hfuel
    unfold skipDropped
    split
    · rename_i time t hfirst
      split
      · rename_i hdropped
        -- the first timer goes, and the rest is tidied
        have hsize := size_removeFirst hfirst
        have hremoved : Passes k { k.unqueue t with
            queue := k.queue.removeFirst, droppedQueued := k.droppedQueued - 1 } :=
          ⟨rfl, rfl, rfl, (k.passes_unqueue t).duty⟩
        have h := ih { k.unqueue t with
          queue := k.queue.removeFirst, droppedQueued := k.droppedQueued - 1 }
          (by change k.queue.removeFirst.size ≤ fuel; omega)
        obtain ⟨gone, hperm, hgone⟩ := h.queue
        refine ⟨hremoved.trans h.toPasses, h.clock, h.ready, fun ho => h.order ho.removeFirst,
          ⟨(time, t) :: gone, ?_, fun x hx => ?_⟩, fun x hx => ?_⟩
        · exact (TimerHeap.perm_removeFirst hfirst).symm.trans (hperm.cons _)
        · rcases List.mem_cons.mp hx with rfl | hx
          · exact hdropped
          · exact (hremoved.isDropped x.2).symm.trans (hgone x hx)
        · exact (hremoved.isDropped x.2).symm.trans (h.first x hx)
      · rename_i hkept
        refine ⟨.refl k, rfl, rfl, id, ⟨[], .refl _, nofun⟩, fun x hx => ?_⟩
        cases hfirst.symm.trans hx
        exact Bool.eq_false_iff.mpr hkept
    · rename_i hfirst
      refine ⟨.refl k, rfl, rfl, id, ⟨[], .refl _, nofun⟩, fun x hx => ?_⟩
      cases hfirst.symm.trans hx

theorem passes_unqueueAll (xs : List (Rat × Nat)) : ∀ k : Scheduler σ ν,
    Passes k (xs.foldl (fun k x => k.unqueue x.2) k) ∧
      (xs.foldl (fun k x => k.unqueue x.2) k).clock = k.clock ∧
      (xs.foldl (fun k x => k.unqueue x.2) k).ready = k.ready := by
  induction xs with
  | nil => exact fun k => ⟨.refl k, rfl, rfl⟩
  | cons x xs ih => exact fun k => ⟨(k.passes_unqueue x.2).trans (ih _).1, (ih _).2⟩

theorem tidied_tidy (k : Scheduler σ ν) : Tidied k k.tidy := by
  unfold tidy
  split
  · -- all dropped timers go at once
    obtain ⟨hgone, hclock, hready⟩ :=
      passes_unqueueAll (k.queue.filter fun x => k.isDropped x.2).toList k
    rw [Array.foldl_toList] at hgone hclock hready
    refine ⟨⟨hgone.shared, hgone.cells, hgone.alarms, hgone.duty⟩, hclock, hready,
      fun _ => TimerHeap.inOrder_ofArray _,
      ⟨(k.queue.filter fun x => k.isDropped x.2).toList, ?_, fun x hx => ?_⟩, fun x hx => ?_⟩
    · refine .trans ?_ ((TimerHeap.perm_ofArray _).symm.append_left _)
      rw [Array.toList_filter, Array.toList_filter]
      exact (List.filter_append_perm (fun x : Rat × Nat => k.isDropped x.2) k.queue.toList).symm
    · exact (Array.mem_filter.mp (Array.mem_toList_iff.mp hx)).2
    · have hmem := (TimerHeap.mem_ofArray _).mp (TimerHeap.mem_of_first? hx)
      simpa using (Array.mem_filter.mp hmem).2
  · exact k.tidied_skipDropped _ (le_refl _)

/-! ### Timers that are due -/

/-- The timers that are due by now, or before `limit`, are ready, and the others are in the queue. -/
structure Released (limit : Rat) (k k' : Scheduler σ ν) : Prop extends Passes k k' where
  clock : k'.clock = k.clock
  order : TimerHeap.InOrder k'.queue
  queue : ∃ out, k.queue.toList.Perm (out ++ k'.queue.toList) ∧
    k'.ready.toList = k.ready.toList ++ out.map (fun x => .timer x.2) ∧
    ∀ x ∈ out, x.1 ≤ k.clock ∨ x.1 < limit
  later : ∀ x ∈ k'.queue, ¬ (x.1 ≤ k.clock ∨ x.1 < limit)

theorem released_release (limit : Rat) (fuel : Nat) : ∀ k : Scheduler σ ν, k.queue.size ≤ fuel →
    TimerHeap.InOrder k.queue → Released limit k (release limit fuel k) := by
  induction fuel with
  | zero =>
    intro k hfuel ho
    have hnone : k.queue = #[] := Array.eq_empty_of_size_eq_zero (Nat.le_zero.mp hfuel)
    refine ⟨.refl k, rfl, ho, ⟨[], .refl _, by simp [release], nofun⟩, fun x hx => ?_⟩
    change x ∈ k.queue at hx
    rw [hnone] at hx
    exact absurd hx (Array.not_mem_empty _)
  | succ fuel ih =>
    intro k hfuel ho
    unfold release
    split
    · rename_i time t hfirst
      split
      · rename_i hdue
        have hsize := size_removeFirst hfirst
        have h := ih { k.unqueue t with
          queue := k.queue.removeFirst, ready := k.ready.push (.timer t) }
          (by change k.queue.removeFirst.size ≤ fuel; omega) ho.removeFirst
        obtain ⟨out, hperm, hready, hout⟩ := h.queue
        have hremoved : Passes k { k.unqueue t with
            queue := k.queue.removeFirst, ready := k.ready.push (.timer t) } :=
          ⟨rfl, rfl, rfl, (k.passes_unqueue t).duty⟩
        refine ⟨hremoved.trans h.toPasses, h.clock, h.order,
          ⟨(time, t) :: out, ?_, ?_, fun x hx => ?_⟩, h.later⟩
        · exact (TimerHeap.perm_removeFirst hfirst).symm.trans (hperm.cons _)
        · rw [hready]
          simp
        · rcases List.mem_cons.mp hx with rfl | hx
          · simpa using hdue
          · exact hout x hx
      · rename_i hlater
        rw [Bool.or_eq_true, decide_eq_true_eq, decide_eq_true_eq] at hlater
        refine ⟨.refl k, rfl, ho, ⟨[], .refl _, by simp, nofun⟩, fun x hx hdue => hlater ?_⟩
        have hle : time ≤ x.1 := ho.first_le hfirst hx
        exact hdue.imp hle.trans hle.trans_lt
    · rename_i hfirst
      refine ⟨.refl k, rfl, ho, ⟨[], .refl _, by simp, nofun⟩, fun x hx => ?_⟩
      have hnone : k.queue.size = 0 := by
        by_contra hsome
        have hpos : 0 < k.queue.size := Nat.pos_of_ne_zero hsome
        cases hfirst.symm.trans (Array.getElem?_eq_getElem hpos)
      rw [Array.eq_empty_of_size_eq_zero hnone] at hx
      exact absurd hx (Array.not_mem_empty _)

/-! ### The next round -/

/-- What the next round begins with. -/
structure Collected (k k' : Scheduler σ ν) : Prop extends Passes k k' where
  order : TimerHeap.InOrder k'.queue
  queue : ∃ gone out, k.queue.toList.Perm (gone ++ (out ++ k'.queue.toList)) ∧
    k'.ready.toList = k.ready.toList ++ out.map (fun x => .timer x.2) ∧
    (∀ x ∈ gone, k.isDropped x.2 = true) ∧ (∀ x ∈ out, Due k'.clock x.1) ∧
    ∀ x ∈ out ++ k'.queue.toList, k.clock ≤ x.1 → k'.clock ≤ x.1
  later : ∀ x ∈ k'.queue, ¬ Due k'.clock x.1
  /-- The clock stands still while something is ready. -/
  stands : k.ready.isEmpty = false → k'.clock = k.clock
  /-- The clock shows the time of a timer that was not dropped. -/
  moves : k.ready.isEmpty = true → k'.ready.isEmpty = false →
    ∃ x ∈ k.queue, k.isDropped x.2 = false ∧ k'.clock = max k.clock x.1
  /-- If nothing is to be done no timer is left that was not dropped. -/
  ends : k'.ready.isEmpty = true → ∀ x ∈ k.queue, k.isDropped x.2 = true

theorem collected (ho : TimerHeap.InOrder k.queue) : Collected k k.collect := by
  have htidied := k.tidied_tidy
  have hadvanced : Passes k.tidy k.tidy.advance ∧ k.tidy.advance.queue = k.tidy.queue ∧
      k.tidy.advance.ready = k.tidy.ready := by
    unfold advance
    split
    · exact ⟨⟨rfl, rfl, rfl, fun _ => rfl⟩, rfl, rfl⟩
    · exact ⟨.refl _, rfl, rfl⟩
  obtain ⟨hpasses, hqueue, hready⟩ := hadvanced
  have hreleased : Released (Binary64.snap (k.tidy.advance.clock + resolution)) k.tidy.advance
      k.collect :=
    released_release _ _ _ (le_refl _) (hqueue ▸ htidied.order ho)
  obtain ⟨gone, hgone, hdropped⟩ := htidied.queue
  obtain ⟨out, hout, hnew, hdue⟩ := hreleased.queue
  rw [hqueue] at hout
  have hmoved : ∀ time t, k.ready.isEmpty = true → k.tidy.queue.first? = some (time, t) →
      k.tidy.advance.clock = max k.clock time := by
    intro time t hnone hfirst
    unfold advance
    rw [htidied.ready, hnone, hfirst]
    simp only []
    rw [htidied.clock, max_def]
  have hstill : k.ready.isEmpty = false → k.tidy.advance.clock = k.clock := by
    intro hsome
    unfold advance
    rw [htidied.ready, hsome]
    exact htidied.clock
  have hempty : k.tidy.queue.first? = none → k.tidy.queue = #[] ∧ k.tidy.advance.clock = k.clock := by
    intro hnone
    refine ⟨Array.eq_empty_of_size_eq_zero ?_, ?_⟩
    · exact Nat.le_zero.mp (Array.getElem?_eq_none_iff.mp hnone)
    · unfold advance
      rw [hnone]
      split
      · rename_i heq
        cases heq
      · exact htidied.clock
  have hclock : k.collect.clock = k.tidy.advance.clock := hreleased.clock
  refine ⟨(htidied.toPasses.trans hpasses).trans hreleased.toPasses, hreleased.order,
    ⟨gone, out, hgone.trans (hout.append_left gone), ?_, hdropped, fun x hx => ?_, ?_⟩,
    fun x hx => ?_, fun hsome => hclock.trans (hstill hsome), ?_, ?_⟩
  · exact hnew.trans (by rw [hready, htidied.ready])
  · rw [hclock]
    exact hdue x hx
  · intro x hx hle
    rw [hclock]
    cases hsome : k.ready.isEmpty with
    | false => rwa [hstill hsome]
    | true =>
      cases hfirst : k.tidy.queue.first? with
      | none => rwa [(hempty hfirst).2]
      | some y =>
        rw [hmoved y.1 y.2 hsome hfirst]
        exact max_le hle ((htidied.order ho).first_le hfirst
          (Array.mem_toList_iff.mp (hout.mem_iff.mpr hx)))
  · rw [hclock]
    exact hreleased.later x hx
  · intro hnone hsome
    cases hfirst : k.tidy.queue.first? with
    | none =>
      -- nothing was ready, and nothing has become ready
      have hnil := (hempty hfirst).1
      rw [hnil] at hout
      obtain rfl : out = [] := (List.append_eq_nil_iff.mp (List.nil_perm.mp hout)).1
      rw [List.map_nil, List.append_nil, hready, htidied.ready, Array.isEmpty_iff.mp hnone] at hnew
      rw [← Array.isEmpty_toList] at hsome
      exact absurd (hsome.symm.trans (congrArg List.isEmpty hnew)) nofun
    | some y =>
      refine ⟨y, ?_, htidied.first y hfirst, hclock.trans (hmoved y.1 y.2 hnone hfirst)⟩
      have hy := Array.mem_toList_iff.mpr (TimerHeap.mem_of_first? hfirst)
      exact Array.mem_toList_iff.mp (hgone.mem_iff.mpr (List.mem_append_right gone hy))
  · intro hnone x hx
    have hnil : k.collect.ready.toList = [] := by simpa using hnone
    obtain ⟨hold, hnil'⟩ := List.append_eq_nil_iff.mp (hnew.symm.trans hnil)
    cases hfirst : k.tidy.queue.first? with
    | none =>
      rw [(hempty hfirst).1, List.append_nil] at hgone
      exact hdropped x (hgone.mem_iff.mp (Array.mem_toList_iff.mpr hx))
    | some y =>
      -- the first timer would be due
      have hempty' : k.ready.isEmpty = true := by
        rw [hready, htidied.ready] at hold
        simpa using hold
      have hy := Array.mem_toList_iff.mpr (TimerHeap.mem_of_first? hfirst)
      rw [List.map_eq_nil_iff.mp hnil', List.nil_append] at hout
      refine absurd (.inl ?_) (hreleased.later y (Array.mem_toList_iff.mp (hout.mem_iff.mp hy)))
      rw [hmoved y.1 y.2 hempty' hfirst]
      exact le_max_right _ _

end ChatCommands.Concurrency.Scheduler
