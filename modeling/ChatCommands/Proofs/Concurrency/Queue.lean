import ChatCommands.Proofs.Concurrency.Alarms

/-!
The queue of timers gives out the timer that is due first.

An item that is moved towards the root or towards a leaf leaves a gap in the order: every other item
is due after its parent, and the items below the gap are due after the one above it.  Once the item
has come to its place the queue is in order, and then nothing in it is due before its first item.
Main statements: `InOrder.first_le`, `InOrder.push`, `InOrder.removeFirst`, `inOrder_ofArray`.
-/

namespace ChatCommands.Concurrency.TimerHeap

variable {h : TimerHeap} {lo gap i j : Nat}

/-- No item whose parent is at `lo` or after it is due before its parent. -/
def OrderedFrom (lo : Nat) (h : TimerHeap) : Prop :=
  ∀ j, 0 < j → j < h.size → lo ≤ (j - 1) / 2 → h.due ((j - 1) / 2) ≤ h.due j

/-- No item is due before its parent. -/
def InOrder (h : TimerHeap) : Prop := OrderedFrom 0 h

/-- The index is `top` or below it in the tree. -/
inductive Under (top : Nat) : Nat → Prop
  | root : Under top top
  | child {i p : Nat} (hp : Under top p) (hi : 0 < i) (hparent : (i - 1) / 2 = p) : Under top i

theorem Under.le {top : Nat} (h : Under top i) : top ≤ i := by
  induction h with
  | root => exact le_refl top
  | child _ hi hparent ih => omega

theorem Under.parent {top : Nat} (h : Under top i) (hlt : top < i) : Under top ((i - 1) / 2) := by
  cases h with
  | root => exact absurd hlt (lt_irrefl _)
  | child hp _ hparent => exact hparent ▸ hp

/-- The items below the gap are due after the one above it. -/
def Bridged (lo gap : Nat) (h : TimerHeap) : Prop :=
  lo < gap → ∀ j, 0 < j → j < h.size → (j - 1) / 2 = gap → h.due ((gap - 1) / 2) ≤ h.due j

/-- All but the item at the gap are due after their parents. -/
structure Rising (lo gap : Nat) (h : TimerHeap) : Prop where
  edge : ∀ j, 0 < j → j < h.size → lo ≤ (j - 1) / 2 → j ≠ gap → h.due ((j - 1) / 2) ≤ h.due j
  bridge : Bridged lo gap h

/-- All but the item at the gap and those below it are due after their parents. -/
structure Sinking (lo gap : Nat) (h : TimerHeap) : Prop where
  edge : ∀ j, 0 < j → j < h.size → lo ≤ (j - 1) / 2 → j ≠ gap → (j - 1) / 2 ≠ gap →
    h.due ((j - 1) / 2) ≤ h.due j
  bridge : Bridged lo gap h

theorem size_swap (h : TimerHeap) (i j : Nat) : (h.swapIfInBounds i j).size = h.size := by
  rw [Array.swapIfInBounds_def]
  split
  · split
    · exact Array.size_swap ..
    · rfl
  · rfl

theorem due_swap (hi : i < h.size) (hj : j < h.size) (n : Nat) :
    due (h.swapIfInBounds i j) n = if n = i then h.due j else if n = j then h.due i else h.due n := by
  unfold due
  rw [Array.swapIfInBounds_def, dif_pos hi, dif_pos hj, Array.getElem?_swap]
  by_cases hni : n = i
  · subst hni
    by_cases hnj : n = j
    · subst hnj
      simp [hi]
    · simp [hj, Ne.symm hnj]
  · by_cases hnj : n = j
    · subst hnj
      simp [hi, hni]
    · simp [hni, hnj, Ne.symm hni, Ne.symm hnj]

/-! ### Items that rise -/

theorem Rising.swap (hr : Rising lo gap h) (hu : Under lo gap) (hgap : gap < h.size) (hlo : lo < gap)
    (hlt : h.due gap < h.due ((gap - 1) / 2)) :
    Rising lo ((gap - 1) / 2) (h.swapIfInBounds gap ((gap - 1) / 2)) := by
  have hup := hu.parent hlo
  have hp : (gap - 1) / 2 < h.size := by omega
  have hdue := due_swap hgap hp
  constructor
  · intro j hj hsize hfrom hne
    rw [size_swap] at hsize
    rw [hdue, hdue]
    by_cases hjg : j = gap
    · subst hjg
      rw [if_neg (by omega), if_pos rfl, if_pos rfl]
      exact hlt.le
    · rw [if_neg hjg, if_neg hne]
      by_cases hpg : (j - 1) / 2 = gap
      · rw [if_pos hpg]
        exact hr.bridge hlo j hj hsize hpg
      · rw [if_neg hpg]
        by_cases hpp : (j - 1) / 2 = (gap - 1) / 2
        · rw [if_pos hpp]
          exact hlt.le.trans (hpp ▸ hr.edge j hj hsize hfrom hjg)
        · rw [if_neg hpp]
          exact hr.edge j hj hsize hfrom hjg
  · intro hlo' j hj hsize hpj
    rw [size_swap] at hsize
    have hfar := (hup.parent hlo').le
    have hgrand := hr.edge _ (by omega) hp hfar (by omega)
    rw [hdue, hdue, if_neg (by omega), if_neg (by omega)]
    by_cases hjg : j = gap
    · rw [if_pos hjg]
      exact hgrand
    · rw [if_neg hjg, if_neg (by omega)]
      exact hgrand.trans (hpj ▸ hr.edge j hj hsize (by omega) hjg)

/-- An item that is due after its parent has come to its place. -/
theorem Rising.finish (hr : Rising lo gap h)
    (hstop : lo ≤ (gap - 1) / 2 → 0 < gap → h.due ((gap - 1) / 2) ≤ h.due gap) :
    OrderedFrom lo h := by
  intro j hj hsize hfrom
  by_cases hjg : j = gap
  · subst hjg
    exact hstop hfrom hj
  · exact hr.edge j hj hsize hfrom hjg

theorem orderedFrom_riseTo (lo : Nat) (h : TimerHeap) (i : Nat) (hr : Rising lo i h)
    (hu : Under lo i) (hi : i < h.size) : OrderedFrom lo (settle.riseTo lo h i) := by
  induction h, i using settle.riseTo.induct lo with
  | case1 h i hlo parent hlt ih =>
    rw [settle.riseTo, dif_pos hlo, if_pos hlt]
    refine ih (hr.swap hu hi hlo hlt) (hu.parent hlo) ?_
    rw [size_swap]
    omega
  | case2 h i hlo parent hlt =>
    rw [settle.riseTo, dif_pos hlo, if_neg hlt]
    exact hr.finish fun _ _ => not_lt.mp hlt
  | case3 h i hlo =>
    rw [settle.riseTo, dif_neg hlo]
    refine hr.finish fun hfrom hpos => ?_
    have := hu.le
    omega

theorem rise_eq_riseTo (h : TimerHeap) (i : Nat) : h.rise i = settle.riseTo 0 h i := by
  induction h, i using rise.induct with
  | case1 h i hi parent hlt ih =>
    rw [rise, settle.riseTo, dif_pos hi, dif_pos hi, if_pos hlt, if_pos hlt]
    exact ih
  | case2 h i hi parent hlt =>
    rw [rise, settle.riseTo, dif_pos hi, dif_pos hi, if_neg hlt, if_neg hlt]
  | case3 h i hi => rw [rise, settle.riseTo, dif_neg hi, dif_neg hi]

theorem under_zero (i : Nat) : Under 0 i := by
  induction i using Nat.strongRecOn with
  | ind i ih =>
    rcases Nat.eq_zero_or_pos i with rfl | hi
    · exact .root
    · exact .child (ih ((i - 1) / 2) (by omega)) hi rfl

/-! ### Items that sink -/

/-- An item sinks past the earlier of its children. -/
theorem sinkChild?_eq_some {child : Nat} (hc : h.sinkChild? i = some child) :
    child < h.size ∧ 0 < child ∧ (child - 1) / 2 = i ∧
      ∀ j, 0 < j → j < h.size → (j - 1) / 2 = i → h.due child ≤ h.due j := by
  unfold sinkChild? at hc
  simp only [] at hc
  split at hc
  · rename_i hleft
    split at hc
    · rename_i hright
      obtain rfl := Option.some.inj hc
      simp only [Bool.and_eq_true, decide_eq_true_eq, Bool.not_eq_true', decide_eq_false_iff_not,
        not_lt] at hright
      refine ⟨hright.1, by omega, by omega, fun j hj hsize hp => ?_⟩
      obtain rfl | rfl : j = 2 * i + 1 ∨ j = 2 * i + 1 + 1 := by omega
      · exact hright.2
      · exact le_refl _
    · rename_i hright
      obtain rfl := Option.some.inj hc
      refine ⟨hleft, by omega, by omega, fun j hj hsize hp => ?_⟩
      obtain rfl | rfl : j = 2 * i + 1 ∨ j = 2 * i + 1 + 1 := by omega
      · exact le_refl _
      · simp only [Bool.and_eq_true, decide_eq_true_eq, Bool.not_eq_true',
          decide_eq_false_iff_not, not_and, not_not] at hright
        exact (hright hsize).le
  · cases hc

theorem sinkChild?_eq_none (hc : h.sinkChild? i = none) (hj : 0 < j) (hp : (j - 1) / 2 = i) :
    h.size ≤ j := by
  unfold sinkChild? at hc
  simp only [] at hc
  split at hc
  · split at hc <;> cases hc
  · omega

theorem Sinking.swap (hs : Sinking lo gap h) (hlo : lo ≤ gap) (hu : Under lo gap)
    (hgap : gap < h.size) {child : Nat} (hc : h.sinkChild? gap = some child) :
    Sinking lo child (h.swapIfInBounds gap child) := by
  obtain ⟨hsize, hpos, hparent, hmin⟩ := sinkChild?_eq_some hc
  have hdue := due_swap hgap hsize
  constructor
  · intro j hj hjs hfrom hne hpne
    rw [size_swap] at hjs
    rw [hdue, hdue, if_neg hpne, if_neg hne]
    by_cases hjg : j = gap
    · subst hjg
      rw [if_pos rfl, if_neg (by omega)]
      have hlt : lo < j := by omega
      exact hs.bridge hlt child hpos hsize hparent
    · rw [if_neg hjg]
      by_cases hpg : (j - 1) / 2 = gap
      · rw [if_pos hpg]
        exact hmin j hj hjs hpg
      · rw [if_neg hpg]
        exact hs.edge j hj hjs hfrom hjg hpg
  · intro hlt j hj hjs hpj
    rw [size_swap] at hjs
    rw [hdue, hdue, hparent, if_pos rfl, if_neg (by omega), if_neg (by omega)]
    have hedge := hs.edge j hj hjs (by omega) (by omega) (by omega)
    rwa [hpj] at hedge

/-- An item sinks to a leaf. -/
theorem rising_sink (fuel : Nat) : ∀ {h : TimerHeap} {i : Nat}, Sinking lo i h → Under lo i →
    i < h.size → h.size ≤ fuel + i →
    Rising lo (h.sink i fuel).2 (h.sink i fuel).1 ∧ Under lo (h.sink i fuel).2 ∧
      (h.sink i fuel).2 < (h.sink i fuel).1.size := by
  induction fuel with
  | zero =>
    intro h i _ _ hi hfuel
    omega
  | succ fuel ih =>
    intro h i hs hu hi hfuel
    unfold sink
    split
    · rename_i child hc
      obtain ⟨hsize, hpos, hparent, -⟩ := sinkChild?_eq_some hc
      have hsame := size_swap h i child
      exact ih (hs.swap hu.le hu hi hc) (.child hu hpos hparent) (hsame ▸ hsize)
        (by rw [hsame]; omega)
    · rename_i hleaf
      refine ⟨⟨fun j hj hjs hfrom hne => hs.edge j hj hjs hfrom hne fun hp => ?_, hs.bridge⟩, hu, hi⟩
      exact absurd hjs (Nat.not_lt.mpr (sinkChild?_eq_none hleaf hj hp))

theorem orderedFrom_settle (hi : i < h.size) (ho : OrderedFrom (i + 1) h) :
    OrderedFrom i (h.settle i) := by
  have hs : Sinking i i h :=
    ⟨fun j hj hjs hfrom _ hpne => ho j hj hjs (by omega), fun hlt => absurd hlt (lt_irrefl _)⟩
  obtain ⟨hr, hu, hleaf⟩ := rising_sink h.size hs .root hi (by omega)
  exact orderedFrom_riseTo i _ _ hr hu hleaf

/-! ### The queue -/

/-- **Nothing in the queue is due before its first item.** -/
theorem InOrder.first_le (ho : InOrder h) {x y : Rat × Nat} (hx : h.first? = some x) (hy : y ∈ h) :
    x.1 ≤ y.1 := by
  have hroot : ∀ i, i < h.size → h.due 0 ≤ h.due i := by
    intro i
    induction i using Nat.strongRecOn with
    | ind i ih =>
      intro hi
      rcases Nat.eq_zero_or_pos i with rfl | hpos
      · exact le_refl _
      · exact (ih ((i - 1) / 2) (by omega) (by omega)).trans (ho i hpos hi (Nat.zero_le _))
  obtain ⟨i, hi, rfl⟩ := Array.mem_iff_getElem.mp hy
  have hle := hroot i hi
  unfold first? at hx
  unfold due at hle
  rw [hx, Array.getElem?_eq_getElem hi] at hle
  exact hle

theorem inOrder_empty : InOrder (#[] : TimerHeap) := fun _ _ hj => absurd hj (Nat.not_lt_zero _)

theorem due_push (h : TimerHeap) (x : Rat × Nat) {i : Nat} (hi : i < h.size) :
    due (Array.push h x) i = h.due i := by
  unfold due
  rw [Array.getElem?_push, if_neg (Nat.ne_of_lt hi)]

theorem InOrder.push (ho : InOrder h) (time : Rat) (timer : Nat) : InOrder (h.push time timer) := by
  have hsize : (Array.push h (time, timer)).size = h.size + 1 := Array.size_push ..
  unfold TimerHeap.push
  rw [rise_eq_riseTo]
  refine orderedFrom_riseTo 0 _ _ ⟨fun j hj hjs _ hne => ?_, fun _ j hj hjs hp => ?_⟩ (under_zero _)
    (by omega)
  · rw [due_push h _ (by omega), due_push h _ (by omega)]
    exact ho j hj (by omega) (Nat.zero_le _)
  · omega

theorem size_settle (h : TimerHeap) (i : Nat) : (h.settle i).size = h.size := by
  have hsink : ∀ (fuel : Nat) (h : TimerHeap) (i : Nat), (h.sink i fuel).1.size = h.size := by
    intro fuel
    induction fuel with
    | zero => exact fun _ _ => rfl
    | succ fuel ih =>
      intro h i
      unfold sink
      split
      · rw [ih, size_swap]
      · rfl
  have hrise : ∀ (h : TimerHeap) (j : Nat), (settle.riseTo i h j).size = h.size := by
    intro h j
    induction h, j using settle.riseTo.induct i with
    | case1 h j hj parent hlt ih => rw [settle.riseTo, dif_pos hj, if_pos hlt, ih, size_swap]
    | case2 h j hj parent hlt => rw [settle.riseTo, dif_pos hj, if_neg hlt]
    | case3 h j hj => rw [settle.riseTo, dif_neg hj]
  exact (hrise _ _).trans (hsink _ _ _)

theorem InOrder.removeFirst (ho : InOrder h) : InOrder h.removeFirst := by
  have hpop : ∀ i, i < (Array.pop h).size → due (Array.pop h) i = h.due i := by
    intro i hi
    rw [Array.size_pop] at hi
    unfold due
    rw [Array.getElem?_pop, if_pos hi]
  unfold TimerHeap.removeFirst
  split
  · exact ho
  · rename_i last _
    simp only []
    split
    · intro j hj hjs
      rename_i hempty
      rw [Array.isEmpty_iff] at hempty
      rw [hempty] at hjs
      exact absurd hjs (Nat.not_lt_zero _)
    · rename_i hsome
      have hpos : 0 < (Array.pop h).size := by
        rw [Array.isEmpty_iff] at hsome
        exact Array.size_pos_iff.mpr hsome
      have hset : (Array.setIfInBounds (Array.pop h) 0 last).size = (Array.pop h).size :=
        Array.size_setIfInBounds
      refine orderedFrom_settle (by omega) fun j hj hjs hfrom => ?_
      -- the items below the root are in order, and only the root is another one
      have hdue : ∀ i, 0 < i → i < (Array.pop h).size →
          due (Array.setIfInBounds (Array.pop h) 0 last) i = h.due i := by
        intro i hi his
        rw [← hpop i his]
        unfold due
        rw [Array.getElem?_setIfInBounds, if_neg (by omega)]
      have hsize : (Array.pop h).size = h.size - 1 := Array.size_pop
      rw [hdue _ (by omega) (by omega), hdue _ hj (by omega)]
      exact ho j hj (by omega) (Nat.zero_le _)

theorem inOrder_ofArray (items : TimerHeap) : InOrder (ofArray items) := by
  have hfold : ∀ (n : Nat) (h : TimerHeap), n ≤ h.size → OrderedFrom n h →
      InOrder ((List.range n).reverse.foldl settle h) := by
    intro n
    induction n with
    | zero => exact fun h _ ho => ho
    | succ n ih =>
      intro h hn ho
      rw [List.range_succ, List.reverse_append, List.reverse_singleton, List.singleton_append,
        List.foldl_cons]
      exact ih _ (by rw [size_settle]; omega) (orderedFrom_settle (by omega) ho)
  refine hfold _ items (Nat.div_le_self _ _) fun j hj hjs hfrom => ?_
  omega

/-! ### Which items are in the queue -/

theorem perm_swap (h : TimerHeap) (i j : Nat) : (h.swapIfInBounds i j).toList.Perm h.toList := by
  rw [Array.swapIfInBounds_def]
  split
  · split
    · exact (Array.swap_perm _ _).toList
    · exact .refl _
  · exact .refl _

theorem perm_riseTo (lo : Nat) (h : TimerHeap) (i : Nat) :
    (settle.riseTo lo h i).toList.Perm h.toList := by
  induction h, i using settle.riseTo.induct lo with
  | case1 h i hi parent hlt ih =>
    rw [settle.riseTo, dif_pos hi, if_pos hlt]
    exact ih.trans (perm_swap _ _ _)
  | case2 h i hi parent hlt =>
    rw [settle.riseTo, dif_pos hi, if_neg hlt]
  | case3 h i hi =>
    rw [settle.riseTo, dif_neg hi]

theorem perm_settle (h : TimerHeap) (i : Nat) : (h.settle i).toList.Perm h.toList := by
  have hsink : ∀ (fuel : Nat) (h : TimerHeap) (i : Nat), (h.sink i fuel).1.toList.Perm h.toList := by
    intro fuel
    induction fuel with
    | zero => exact fun _ _ => .refl _
    | succ fuel ih =>
      intro h i
      unfold sink
      split
      · exact (ih _ _).trans (perm_swap _ _ _)
      · exact .refl _
  exact (perm_riseTo i _ _).trans (hsink _ _ _)

theorem perm_push (h : TimerHeap) (time : Rat) (timer : Nat) :
    (h.push time timer).toList.Perm (h.toList ++ [(time, timer)]) := by
  unfold push
  rw [rise_eq_riseTo, ← Array.toList_push]
  exact perm_riseTo _ _ _

/-- Removing the first item removes nothing else. -/
theorem perm_removeFirst {x : Rat × Nat} (hx : h.first? = some x) :
    (x :: h.removeFirst.toList).Perm h.toList := by
  obtain ⟨items⟩ := h
  cases items with
  | nil => cases hx
  | cons y items =>
    obtain rfl : y = x := Option.some.inj hx
    unfold removeFirst
    cases items using List.reverseRecOn with
    | nil => exact .refl _
    | append_singleton items last _ =>
      have hback : (Array.mk (y :: (items ++ [last])) : TimerHeap).back? = some last := by
        simp [Array.back?]
      have hpop : Array.pop (Array.mk (y :: (items ++ [last])) : TimerHeap) = ⟨y :: items⟩ := by
        simp [List.dropLast_cons_of_ne_nil]
      rw [hback, hpop]
      refine ((perm_settle _ 0).cons y).trans (.cons y ?_)
      exact (List.perm_append_singleton last items).symm

theorem perm_ofArray (items : TimerHeap) : (ofArray items).toList.Perm items.toList := by
  unfold ofArray
  generalize (List.range (items.size / 2)).reverse = is
  induction is generalizing items with
  | nil => exact .refl _
  | cons i is ih => exact (ih _).trans (perm_settle _ i)

end ChatCommands.Concurrency.TimerHeap
