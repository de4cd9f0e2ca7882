import ChatCommands.Proofs.Cooldown.Changes

/-!
Who makes room for a new key.

When a key is added to a full table, the first idle entries go, just as many as are too many; all
others stay as they are and where they are.  As long as entries come to be touched in the order of
time only, the table is in the order in which they were touched, and so those that go are the ones
that have been idle for longest.  Main statement: `evicts_least_recently_touched`.
-/

namespace ChatCommands.Cooldown

namespace Table

variable {t : Table} {k : Key} {e : Entry} {maxEntries : Int}

/-- The entries without a run in flight, in their order. -/
def idle (t : Table) : Table := t.filter fun p => p.2.isIdle

/-- The idle entries that go when a new key is added: the first ones, as many as are too many. -/
def victims (maxEntries : Int) (t : Table) : Table :=
  t.idle.take ((t.length + 1 : Int) - maxEntries).toNat

/-- The table without some of its entries. -/
def without (t gone : Table) : Table := t.filter fun p => p ∉ gone

/-- The entries are in the order in which they were touched. -/
def InOrder (t : Table) : Prop := (t.map (·.2.touched)).Pairwise (· ≤ ·)

/-- The entry may go to make room for the one of `keep`. -/
def mayGo (keep : Key) (p : Key × Entry) : Bool := p.2.isIdle && p.1 ≠ keep

theorem nodup_of_keys (hnd : t.keys.Nodup) : t.Nodup := List.Nodup.of_map _ hnd

theorem dropIdle_eq (keep : Key) (n : Nat) (hnd : t.Nodup) :
    dropIdle keep n t = t.without ((t.filter (mayGo keep)).take n) := by
  induction t generalizing n with
  | nil => cases n <;> rfl
  | cons p t ih =>
    rw [List.nodup_cons] at hnd
    cases n with
    | zero =>
      rw [List.take_zero, without, List.filter_eq_self.mpr fun q _ => by simp]
      rfl
    | succ n =>
      change (if mayGo keep p then _ else _) = _
      by_cases hp : mayGo keep p = true
      · rw [if_pos hp, List.filter_cons_of_pos hp, List.take_succ_cons, ih n hnd.2, without,
          without, List.filter_cons_of_neg (by simp)]
        -- nobody else in the table is `p`
        refine List.filter_congr fun q hq => ?_
        have hne : q ≠ p := fun heq => hnd.1 (heq ▸ hq)
        simp [hne]
      · have hnot : p ∉ (t.filter (mayGo keep)).take (n + 1) :=
          fun hmem => hnd.1 (List.mem_of_mem_filter (List.mem_of_mem_take hmem))
        rw [if_neg hp, List.filter_cons_of_neg hp, ih (n + 1) hnd.2, without, without,
          List.filter_cons_of_pos (by simpa using hnot)]

/-- **A new key is put at the end**, and the victims go. -/
theorem insert_eq (hnd : t.keys.Nodup) (hk : t.get? k = none) :
    t.insert maxEntries k e = t.without (t.victims maxEntries) ++ [(k, e)] := by
  have hnew : ∀ p ∈ t, p.1 ≠ k :=
    fun p hp hpk => get?_eq_none.mp hk (hpk ▸ List.mem_map_of_mem hp)
  have hidle : (t ++ [(k, e)]).filter (mayGo k) = t.idle := by
    have hlast : mayGo k (k, e) = false := by simp [mayGo]
    rw [List.filter_append, List.filter_cons_of_neg (by simp [hlast]), List.filter_nil,
      List.append_nil]
    refine List.filter_congr fun p hp => ?_
    simp [mayGo, hnew p hp]
  have hnot : (k, e) ∉ t.victims maxEntries :=
    fun hmem => hnew _ (List.mem_of_mem_filter (List.mem_of_mem_take hmem)) rfl
  unfold insert
  rw [dropIdle_eq k _ (nodup_of_keys (nodup_append_singleton hnd hk)), hidle]
  change without (t ++ [(k, e)]) (t.victims maxEntries) = _
  rw [without, List.filter_append, List.filter_cons_of_pos (by simpa using hnot), List.filter_nil]
  rfl

/-! ### How many go -/

theorem victims_sublist (maxEntries : Int) (t : Table) : (t.victims maxEntries).Sublist t :=
  (List.take_sublist _ _).trans List.filter_sublist

theorem length_without {gone : Table} (hnd : t.Nodup) (h : gone.Sublist t) :
    (t.without gone).length + gone.length = t.length := by
  have hgone : (t.filter fun p => p ∈ gone).Perm gone := by
    rw [List.perm_ext_iff_of_nodup (hnd.filter _) (hnd.sublist h)]
    intro p
    simpa using fun hp => h.subset hp
  have hsplit := List.length_eq_length_filter_add (l := t) fun p => decide (p ∈ gone)
  rw [hgone.length_eq] at hsplit
  simp only [without, decide_not]
  omega

theorem length_insert (hnd : t.keys.Nodup) (hk : t.get? k = none) :
    (t.insert maxEntries k e).length + (t.victims maxEntries).length = t.length + 1 := by
  have hlen := length_without (nodup_of_keys hnd) (victims_sublist maxEntries t)
  rw [insert_eq hnd hk, List.length_append, List.length_singleton]
  omega

theorem le_length_insert (hnd : t.keys.Nodup) (hk : t.get? k = none)
    (h : t.victims maxEntries ≠ []) : maxEntries ≤ (t.insert maxEntries k e).length := by
  have hlen : (t.insert maxEntries k e).length + (t.victims maxEntries).length = t.length + 1 :=
    length_insert hnd hk
  have hcount : (t.victims maxEntries).length ≤ ((t.length + 1 : Int) - maxEntries).toNat :=
    List.length_take_le _ _
  have hpos : 0 < (t.victims maxEntries).length := List.length_pos_of_ne_nil h
  omega

/-- **A table that stays too long** has no idle entry but the new one. -/
theorem pending_of_lt_length_insert (hnd : t.keys.Nodup) (hk : t.get? k = none)
    (h : maxEntries < (t.insert maxEntries k e).length) {p : Key × Entry}
    (hp : p ∈ t.insert maxEntries k e) (hne : p.1 ≠ k) : p.2.pending.isSome := by
  have hlen : (t.insert maxEntries k e).length + (t.victims maxEntries).length = t.length + 1 :=
    length_insert hnd hk
  have hall : t.victims maxEntries = t.idle := by
    refine List.take_of_length_le ?_
    by_contra hmore
    have hcount : (t.victims maxEntries).length = ((t.length + 1 : Int) - maxEntries).toNat :=
      List.length_take_of_le (by omega)
    omega
  rw [insert_eq hnd hk, hall, List.mem_append, List.mem_singleton] at hp
  rcases hp with hp | rfl
  · obtain ⟨hmem, hstays⟩ := List.mem_filter.mp hp
    by_contra hidle
    have hin : p ∈ t.idle := by
      rw [Bool.not_eq_true, Option.isSome_eq_false_iff] at hidle
      exact List.mem_filter.mpr ⟨hmem, hidle⟩
    simp [hin] at hstays
  · exact absurd rfl hne

/-! ### The order -/

theorem InOrder.sublist {t' : Table} (h : t.InOrder) (hsub : t'.Sublist t) : t'.InOrder :=
  List.Pairwise.sublist (hsub.map _) h

theorem InOrder.append_singleton (h : t.InOrder) (hlast : ∀ p ∈ t, p.2.touched ≤ e.touched) :
    InOrder (t ++ [(k, e)]) := by
  unfold InOrder at h ⊢
  rw [List.map_append, List.pairwise_append]
  refine ⟨h, List.pairwise_singleton _ _, ?_⟩
  intro x hx y hy
  obtain ⟨p, hp, rfl⟩ := List.mem_map.mp hx
  obtain rfl : y = e.touched := by simpa using hy
  exact hlast p hp

theorem InOrder.touch (h : t.InOrder) (hlast : ∀ p ∈ t, p.2.touched ≤ e.touched) :
    (t.touch maxEntries k e).InOrder := by
  unfold Table.touch
  split
  · exact (h.sublist List.filter_sublist).append_singleton
      fun p hp => hlast p (List.mem_of_mem_filter hp)
  · exact (h.append_singleton hlast).sublist (dropIdle_sublist _ _ _)

theorem InOrder.set (h : t.InOrder) {e₀ : Entry} (hnd : t.keys.Nodup) (he : t.get? k = some e₀)
    (hsame : e.touched = e₀.touched) : (t.set k e).InOrder := by
  have hmap : (t.set k e).map (·.2.touched) = t.map (·.2.touched) := by
    unfold Table.set
    rw [List.map_map]
    refine List.map_congr_left fun p hp => ?_
    by_cases hk : p.1 = k
    · have hp' : t.get? k = some p.2 := (get?_eq_some_iff hnd).mpr (hk ▸ hp)
      obtain rfl : p.2 = e₀ := Option.some.inj (hp'.symm.trans he)
      simp [hk, hsame]
    · simp [hk]
  unfold InOrder
  rwa [hmap]

/-- **The victims are the idle entries that were touched first.** -/
theorem InOrder.victims_le (h : t.InOrder) {v p : Key × Entry} (hv : v ∈ t.victims maxEntries)
    (hp : p ∈ t) (hidle : p.2.pending = none) (hstays : p ∉ t.victims maxEntries) :
    v.2.touched ≤ p.2.touched := by
  have hsorted : (t.idle).Pairwise fun v p => v.2.touched ≤ p.2.touched :=
    List.pairwise_map.mp (h.sublist List.filter_sublist)
  have hmem : p ∈ t.idle := List.mem_filter.mpr ⟨hp, by simp [Entry.isIdle, hidle]⟩
  rw [← List.take_append_drop ((t.length + 1 : Int) - maxEntries).toNat t.idle] at hsorted hmem
  have hdrop := (List.mem_append.mp hmem).resolve_left hstays
  exact (List.pairwise_append.mp hsorted).2.2 v hv p hdrop

end Table

open Limiter

variable {s : Settings} {ops : List Operation} {op : Operation} {k : Key} {n : Nat} {e : Entry}

/-! ### Entries with a run in flight -/

/-- **A run in flight is forgotten** only when it is given back or everything is. -/
theorem forgets_of_pending {times : Rat → Prop} {d : Desk} (hd : Regular times d)
    (he : d.known? k = some e) (hpending : e.pending = some n)
    (hgone : (d.perform s op).known? k = none) :
    op = .clear ∨ ∃ m r, op = .release m ∧ d.tickets[m]? = some r ∧ r.key = k ∧ r.id = n := by
  have hleaves : Departs d k n op := by
    by_contra hstay
    cases hgone.symm.trans (known?_perform_of_pending hd.nodup he hpending hstay)
  -- a reservation with the number of the entry is the one of its key
  have hown : ∀ {m : Nat} {r : Reservation}, d.tickets[m]? = some r → r.id = n → r.key = k := by
    intro m r hr hid
    obtain ⟨r', hr', hk, -⟩ := hd.pending k e n he hpending
    obtain rfl : m = n := (hd.numbered m r hr).1.symm.trans hid
    obtain rfl : r = r' := Option.some.inj (hr.symm.trans hr')
    exact hk
  cases hleaves with
  | @committed now cooldownMs =>
    cases hgone.symm.trans (Table.get?_touch_self (t := d.limiter.table))
  | @settled m r hr hid =>
    obtain rfl := hown hr hid
    obtain ⟨r', hr', -, hC, -⟩ := hd.pending r.key e n he hpending
    obtain rfl : m = n := (hd.numbered m r hr).1.symm.trans hid
    obtain rfl : r = r' := Option.some.inj (hr.symm.trans hr')
    have hfired := get?_commitReservation_of_pending (s := s) hC he (hid ▸ hpending)
    simp only [Desk.perform, hr] at hgone
    cases hgone.symm.trans hfired
  | @released m r hr hid => exact .inr ⟨m, r, rfl, hr, hown hr hid, hid⟩
  | cleared => exact .inl rfl

/-! ### Runs in order -/

/-- The operations that touch a key only as a run of it is asked for: neither a direct commit nor a
clear. -/
def Operation.isPlain : Operation → Bool
  | .commit .. | .clear => false
  | .allow .. | .reserve .. | .settle _ | .release _ | .prune _ => true

theorem not_overtaken (hplain : ∀ op ∈ ops, op.isPlain = true) : ¬ Overtaken s ops k n := by
  rintro ⟨first, op, rest, rfl, -, rfl | ⟨now, cooldownMs, rfl⟩⟩
  · cases hplain .clear (by simp)
  · cases hplain (.commit k now cooldownMs) (by simp)

/-- **In a run without overtaking the table is in the order of time.** -/
theorem inOrder_after (hgap : Forward s.gap) (hops : Chronological ops)
    (hplain : ∀ op ∈ ops, op.isPlain = true) : (Desk.after s ops).limiter.table.InOrder := by
  induction ops using List.reverseRecOn with
  | nil => exact List.Pairwise.nil
  | append_singleton ops op ih =>
    have hbefore := ih hops.of_append fun op hop => hplain op (List.mem_append_left _ hop)
    have hd : Regular (· ∈ ops.filterMap Operation.time?) (Desk.after s ops) :=
      regular_after hgap fun _ hu => hu
    have hpresent : ∀ {u : Rat}, op.time? = some u →
        ∀ p ∈ (Desk.after s ops).limiter.table, p.2.touched ≤ u := by
      intro u hu p hp
      have hknown := (Table.get?_eq_some_iff hd.nodup).mpr hp
      exact hops.le_last hu (hd.timed p.1 p.2 hknown).1
    rw [Desk.after_concat]
    generalize htable : ((Desk.after s ops).perform s op).limiter.table = table
    have hchange := htable ▸ change_perform s (Desk.after s ops) op
    cases hchange with
    | same => exact hbefore
    | fired => cases hplain _ (List.mem_append_right ops (List.mem_singleton_self _))
    | reserved hC hallowed => exact hbefore.touch (hpresent rfl)
    | @settled n r e hr hC he hfree =>
      -- the reservation is still in flight, so its entry was last touched when it was granted
      have hopen := hops.open_last rfl
      rcases pending_or_overtaken hgap hr hC hopen with ⟨e', he', hpending⟩ | hover
      · obtain ⟨r', hr', -, -, hissued⟩ := hd.pending r.key e' n he' hpending
        obtain rfl : r = r' := Option.some.inj (hr.symm.trans hr')
        exact hbefore.set hd.nodup he' hissued
      · exact absurd hover (not_overtaken fun op hop => hplain op (List.mem_append_left _ hop))
    | @settledLate n r hr hC hnew =>
      rcases pending_or_overtaken hgap hr hC (hops.open_last rfl) with ⟨e', he', -⟩ | hover
      · cases hnew.symm.trans he'
      · exact absurd hover (not_overtaken fun op hop => hplain op (List.mem_append_left _ hop))
    | released hr he hpending hfire => exact hbefore.set hd.nodup he rfl
    | dropped => exact hbefore.sublist List.filter_sublist
    | pruned => exact hbefore.sublist List.filter_sublist
    | cleared => cases hplain _ (List.mem_append_right ops (List.mem_singleton_self _))

/-- **Who makes room**: after any operations, when an operation adds a key, the entries that go are
the first idle ones, in the order of the table, as many as are too many and no more; and unless that
is enough, everybody else has a run in flight.  The others stay as they are and in their order.  An
entry with a run in flight goes only by the release of that run or by a clear.  In a run without
direct commits and clears, in the order of time and with no reservation settled twice, the table is
in the order in which its entries were touched, so those that go are idle for longest. -/
theorem evicts_least_recently_touched (maxEntries graceWindows : Int) (ops : List Operation)
    (op : Operation) (k : Key) :
    let s : Settings := { maxEntries, graceWindows }
    let d := Desk.after s ops
    let d' := d.perform s op
    let t := d.limiter.table
    let t' := d'.limiter.table
    let victims := t.victims maxEntries
    (d.known? k = none → (d'.known? k).isSome →
      (∃ e, t' = t.without victims ++ [(k, e)]) ∧
      (victims ≠ [] → maxEntries ≤ t'.length) ∧
      (maxEntries < t'.length → ∀ p ∈ t', p.1 ≠ k → p.2.pending.isSome)) ∧
    (∀ e n, d.known? k = some e → e.pending = some n → d'.known? k = none →
      op = .clear ∨ ∃ m r, op = .release m ∧ d.tickets[m]? = some r ∧ r.key = k ∧ r.id = n) ∧
    (Chronological ops → (∀ op ∈ ops, op.isPlain = true) → t.InOrder ∧
      ∀ v ∈ victims, ∀ p ∈ t, p.2.pending = none → p ∉ victims → v.2.touched ≤ p.2.touched) := by
  intro s d d' t t' victims
  have hd : Regular (fun _ => True) d := regular_after elapsed_forward fun _ _ => trivial
  refine ⟨fun hnew htracked => ?_, fun e n he hpending hgone => ?_, fun hops hplain => ?_⟩
  · obtain ⟨e, hinsert⟩ := insert_of_tracked hd.nodup hnew htracked
    have htable : t' = t.insert maxEntries k e := hinsert
    rw [htable]
    exact ⟨⟨e, Table.insert_eq hd.nodup hnew⟩, Table.le_length_insert hd.nodup hnew,
      fun hlong p hp hne => Table.pending_of_lt_length_insert hd.nodup hnew hlong hp hne⟩
  · exact forgets_of_pending hd he hpending hgone
  · have horder : t.InOrder := inOrder_after elapsed_forward hops hplain
    exact ⟨horder, fun v hv p hp hidle hstays => horder.victims_le hv hp hidle hstays⟩

/-- Of three keys the first has a run in flight; so the second one goes when a fourth is added. -/
theorem evicts_least_recently_touched_second :
    let key (author : Text) : Key := ⟨author, text "c1"⟩
    let ops : List Operation :=
      [.reserve (key (text "u1")) 1000 0, .reserve (key (text "u2")) 1000 1, .settle 1,
        .reserve (key (text "u3")) 1000 2, .settle 2]
    let op : Operation := .reserve (key (text "u4")) 1000 3
    Chronological ops ∧ (∀ op ∈ ops, op.isPlain = true) ∧
      (Desk.after { maxEntries := 3, graceWindows := 3 } ops).limiter.table.InOrder ∧
      ∃ e, ((Desk.after { maxEntries := 3, graceWindows := 3 } ops).perform
        { maxEntries := 3, graceWindows := 3 } op).limiter.table =
          (Desk.after { maxEntries := 3, graceWindows := 3 } ops).limiter.table.without
            [(key (text "u2"), ⟨some 1, 1000, none, 1⟩)] ++ [(key (text "u4"), e)] := by
  intro key ops op
  have hops : Chronological ops := by
    constructor <;> decide +kernel
  have hplain : ∀ op ∈ ops, op.isPlain = true := by decide +kernel
  obtain ⟨hadded, -, hrun⟩ := evicts_least_recently_touched 3 3 ops op (key (text "u4"))
  obtain ⟨hroom, -, -⟩ := hadded (by decide +kernel) (by decide +kernel)
  have hvictims : (Desk.after { maxEntries := 3, graceWindows := 3 } ops).limiter.table.victims 3 =
      [(key (text "u2"), ⟨some 1, 1000, none, 1⟩)] := by decide +kernel
  rw [hvictims] at hroom
  exact ⟨hops, hplain, (hrun hops hplain).1, hroom⟩

end ChatCommands.Cooldown
