import ChatCommands.Proofs.Cooldown.Histories

/-!
When a recorded fire moves back.

A fire that is recorded directly is stamped with the present, but the commit of a reservation with
the time of its grant.  As long as the reservation is in flight nothing later has been recorded, so
its commit does not move the last fire back; but one that was overtaken is no longer in flight, and
its commit is recorded all the same.  Main statement: `fire_moves_back_only_overtaken`.
-/

namespace ChatCommands.Cooldown

open Limiter

variable {s : Settings} {ops before during : List Operation} {op : Operation} {k : Key} {n : Nat}
  {e e' : Entry} {t : Rat}

/-- The reservation with this number was overtaken: after its grant a fire of the key was recorded
directly, or everything was forgotten. -/
def Overtaken (s : Settings) (ops : List Operation) (k : Key) (n : Nat) : Prop :=
  ∃ first op rest, ops = first ++ op :: rest ∧ n < (Desk.after s first).tickets.length ∧
    (op = .clear ∨ ∃ now cooldownMs, op = .commit k now cooldownMs)

theorem Overtaken.append (h : Overtaken s ops k n) (more : List Operation) :
    Overtaken s (ops ++ more) k n := by
  obtain ⟨first, op, rest, rfl, hn, hop⟩ := h
  refine ⟨first, op, rest ++ more, ?_, hn, hop⟩
  rw [List.append_assoc, List.cons_append]

theorem overtaken_now (hn : n < (Desk.after s ops).tickets.length)
    (hop : op = .clear ∨ ∃ now cooldownMs, op = .commit k now cooldownMs) :
    Overtaken s (ops ++ [op]) k n :=
  ⟨ops, op, [], rfl, hn, hop⟩

/-- **A reservation that was not settled is in flight or was overtaken.** -/
theorem pending_or_overtaken (hgap : Forward s.gap) {r : Reservation}
    (hr : (Desk.after s ops).tickets[n]? = some r) (hC : 0 < r.cooldownMs)
    (hopen : n ∉ ops.filterMap Operation.ticket?) :
    (∃ e, (Desk.after s ops).known? r.key = some e ∧ e.pending = some n) ∨
      Overtaken s ops r.key n := by
  induction ops using List.reverseRecOn with
  | nil => cases hr
  | append_singleton ops op ih =>
    rw [Desk.after_concat] at hr ⊢
    rw [List.filterMap_append, List.mem_append, not_or] at hopen
    have hd : Regular (fun _ => True) (Desk.after s ops) := regular_after hgap fun _ _ => trivial
    have hold : (Desk.after s ops).tickets[n]? = some r →
        (∃ e, ((Desk.after s ops).perform s op).known? r.key = some e ∧ e.pending = some n) ∨
          Overtaken s (ops ++ [op]) r.key n := by
      intro hr
      rcases ih hr hopen.1 with ⟨e, he, hpending⟩ | hover
      · by_cases hleave : Departs (Desk.after s ops) r.key n op
        · have hn : n < (Desk.after s ops).tickets.length := (List.getElem?_eq_some_iff.mp hr).1
          cases hleave with
          | committed => exact .inr (overtaken_now hn (.inr ⟨_, _, rfl⟩))
          | cleared => exact .inr (overtaken_now hn (.inl rfl))
          | @settled m r' hr' hid =>
            obtain rfl : m = n := (hd.numbered m r' hr').1.symm.trans hid
            exact absurd (by simp [Operation.ticket?]) hopen.2
          | @released m r' hr' hid =>
            obtain rfl : m = n := (hd.numbered m r' hr').1.symm.trans hid
            exact absurd (by simp [Operation.ticket?]) hopen.2
        · exact .inl ⟨e, known?_perform_of_pending hd.nodup he hpending hleave, hpending⟩
      · exact .inr (hover.append [op])
    rcases tickets_perform s (Desk.after s ops) op with ⟨hsame, -⟩ | ⟨r', -, hid, hmore, -, hnew⟩
    · rw [hsame] at hr
      exact hold hr
    · rw [hmore] at hr
      rcases getElem?_append_singleton hr with hr | ⟨hn, rfl⟩
      · exact hold hr
      · left
        rw [hn, ← hd.granted, ← hid]
        exact hnew hC

/-- The times do not decrease, and no reservation is settled twice. -/
structure Chronological (ops : List Operation) : Prop where
  sorted : (ops.filterMap Operation.time?).Pairwise (· ≤ ·)
  settledOnce : (ops.filterMap Operation.ticket?).Nodup

theorem Chronological.of_append (h : Chronological (before ++ during)) : Chronological before := by
  obtain ⟨hsorted, honce⟩ := h
  rw [List.filterMap_append] at hsorted honce
  exact ⟨(List.pairwise_append.mp hsorted).1, (List.nodup_append.mp honce).1⟩

theorem Chronological.le_last (h : Chronological (ops ++ [op])) {u : Rat} (hop : op.time? = some u)
    (ht : t ∈ ops.filterMap Operation.time?) : t ≤ u := by
  have hsorted := h.sorted
  rw [List.filterMap_append, List.pairwise_append] at hsorted
  apply hsorted.2.2 t ht u
  simp [hop]

theorem Chronological.open_last (h : Chronological (ops ++ [op])) (hop : op.ticket? = some n) :
    n ∉ ops.filterMap Operation.ticket? := by
  have honce := h.settledOnce
  rw [List.filterMap_append, List.nodup_append] at honce
  intro hn
  exact honce.2.2 n hn n (by simp [hop]) rfl

/-- The operation commits a reservation of the key that was granted before `t` and then overtaken. -/
def CommitsOvertaken (s : Settings) (ops : List Operation) (k : Key) (t : Rat) (op : Operation) :
    Prop :=
  ∃ n r, op = .settle n ∧ (Desk.after s ops).tickets[n]? = some r ∧ r.key = k ∧ r.issued < t ∧
    Overtaken s ops k n

/-- **One operation** keeps a fire recorded as long as its key is tracked, and moves it back only by
committing a reservation that was overtaken. -/
theorem lastFire_perform (hgap : Forward s.gap) (hops : Chronological (ops ++ [op]))
    (he : (Desk.after s ops).known? k = some e) (ht : e.lastFire = some t)
    (he' : (Desk.after s (ops ++ [op])).known? k = some e') :
    ∃ t', e'.lastFire = some t' ∧ (t ≤ t' ∨ t' < t ∧ ∀ u, t' < u → CommitsOvertaken s ops k u op) := by
  have hd : Regular (· ∈ ops.filterMap Operation.time?) (Desk.after s ops) :=
    regular_after hgap fun _ hu => hu
  rw [Desk.after_concat] at he'
  cases origin_of_perform hd.nodup he' with
  | kept hsame =>
    obtain rfl : e = e' := Option.some.inj (he.symm.trans hsame)
    exact ⟨t, ht, .inl le_rfl⟩
  | @fired now cooldownMs =>
    exact ⟨now, rfl, .inl (hops.le_last rfl ((hd.timed k e he).2 t ht).1)⟩
  | reserved hC hallowed =>
    refine ⟨t, ?_, .inl le_rfl⟩
    have he₀ : (Desk.after s ops).limiter.table.get? k = some e := he
    simp [grantedEntry, he₀, ht]
  | @settled n r hr hk hC hfree =>
    refine ⟨r.issued, rfl, ?_⟩
    subst hk
    rcases le_or_gt t r.issued with hle | hback
    · exact .inl hle
    refine .inr ⟨hback, fun u hu => ⟨n, r, rfl, hr, rfl, hu, ?_⟩⟩
    rcases pending_or_overtaken hgap hr hC (hops.open_last rfl) with ⟨e₀, he₀, hpending⟩ | hover
    · -- the reservation is in flight, so nothing was recorded since its grant
      obtain rfl : e = e₀ := Option.some.inj (he.symm.trans he₀)
      obtain ⟨r', hr', -, -, hissued⟩ := hd.pending r.key e n he hpending
      obtain rfl : r = r' := Option.some.inj (hr.symm.trans hr')
      have hle := ((hd.timed r.key e he).2 t ht).2
      rw [← hissued] at hle
      exact absurd hback (not_lt.mpr hle)
    · exact hover
  | @released n r e₀ hr hk he₀ =>
    obtain rfl : e = e₀ := Option.some.inj (he.symm.trans he₀)
    exact ⟨t, ht, .inl le_rfl⟩

/-- The last fire of a key, if it is known. -/
def Desk.lastFire? (d : Desk) (k : Key) : Option Rat := (d.known? k).bind (·.lastFire)

/-- **When a recorded fire moves back**: while a key is tracked its last fire stays recorded, and if
it is earlier in the end than it was, then on the way a reservation was committed that had been
granted before that fire and was overtaken, after its grant, by a direct `commit` of the key or by a
`clear`.  Without those two the last fire of a key never decreases. -/
theorem fire_moves_back_only_overtaken (maxEntries graceWindows : Int)
    (before during : List Operation) (k : Key) (t : Rat)
    (hops : Chronological (before ++ during))
    (htracked : ∀ xs, xs <+: during →
      ((Desk.after { maxEntries, graceWindows } (before ++ xs)).known? k).isSome)
    (ht : (Desk.after { maxEntries, graceWindows } before).lastFire? k = some t) :
    ∃ t', (Desk.after { maxEntries, graceWindows } (before ++ during)).lastFire? k = some t' ∧
      (t' < t → ∃ first op rest, during = first ++ op :: rest ∧
        CommitsOvertaken { maxEntries, graceWindows } (before ++ first) k t op) := by
  induction during using List.reverseRecOn with
  | nil =>
    refine ⟨t, ?_, fun hlt => absurd hlt (lt_irrefl t)⟩
    rw [List.append_nil]
    exact ht
  | append_singleton during op ih =>
    rw [← List.append_assoc] at hops ⊢
    obtain ⟨u, hu, hback⟩ := ih hops.of_append fun xs hxs =>
      htracked xs (hxs.trans (List.prefix_append during [op]))
    obtain ⟨e', he'⟩ := Option.isSome_iff_exists.mp (htracked (during ++ [op]) List.prefix_rfl)
    rw [← List.append_assoc] at he'
    obtain ⟨e, he, hlast⟩ := Option.bind_eq_some_iff.mp hu
    obtain ⟨t', ht', hstep⟩ := lastFire_perform elapsed_forward hops he hlast he'
    refine ⟨t', Option.bind_eq_some_iff.mpr ⟨e', he', ht'⟩, fun hlt => ?_⟩
    rcases hstep with hle | ⟨-, hcommit⟩
    · obtain ⟨first, op', rest, rfl, hcause⟩ := hback (hle.trans_lt hlt)
      exact ⟨first, op', rest ++ [op], by rw [List.append_assoc, List.cons_append], hcause⟩
    · exact ⟨during, op, [], rfl, hcommit t hlt⟩

/-- A reservation that is overtaken by a direct commit and committed after it. -/
theorem fire_moves_back_only_overtaken_late :
    let k : Key := ⟨text "u1", text "c1"⟩
    let before : List Operation := [.reserve k 1000 0, .commit k 500 1000]
    let during : List Operation := [.allow k 1000 600, .settle 0]
    let s : Settings := { maxEntries := 10, graceWindows := 3 }
    Chronological (before ++ during) ∧
      (∀ xs, xs <+: during → ((Desk.after s (before ++ xs)).known? k).isSome) ∧
      (Desk.after s before).lastFire? k = some 500 ∧
      (Desk.after s (before ++ during)).lastFire? k = some 0 ∧
      ∃ first op rest, during = first ++ op :: rest ∧
        CommitsOvertaken s (before ++ first) k 500 op := by
  intro k before during s
  have hops : Chronological (before ++ during) := by
    constructor <;> decide +kernel
  have hprefixes : ∀ xs ∈ during.inits, ((Desk.after s (before ++ xs)).known? k).isSome := by
    decide +kernel
  have htracked : ∀ xs, xs <+: during → ((Desk.after s (before ++ xs)).known? k).isSome :=
    fun xs hxs => hprefixes xs ((List.mem_inits xs during).mpr hxs)
  have ht : (Desk.after s before).lastFire? k = some 500 := by decide +kernel
  have ht' : (Desk.after s (before ++ during)).lastFire? k = some 0 := by decide +kernel
  refine ⟨hops, htracked, ht, ht', ?_⟩
  obtain ⟨u, hu, hback⟩ := fire_moves_back_only_overtaken 10 3 before during k 500 hops htracked ht
  obtain rfl : (0 : Rat) = u := Option.some.inj (ht'.symm.trans hu)
  exact hback (by norm_num)

/-- **A fire that moves back.**  A run is reserved at 0 and overtaken by a fire at 5; when it is
committed the last fire of the key is 0 again. -/
theorem late_commit_moves_back :
    let k : Key := ⟨text "u", text "c"⟩
    let ops : List Operation := [.reserve k 10 0, .commit k 5 10]
    Chronological (ops ++ [.settle 0]) ∧ (Desk.after {} ops).lastFire? k = some 5 ∧
      (Desk.after {} (ops ++ [.settle 0])).lastFire? k = some 0 := by
  refine ⟨⟨?_, ?_⟩, ?_, ?_⟩ <;> decide +kernel

end ChatCommands.Cooldown
