import ChatCommands.Proofs.Cooldown.Calm
import ChatCommands.Proofs.Cooldown.Refinement

/-!
Histories of a limiter: any operations in any order, at any times and with any cooldowns.

`Origin` says where an entry can come from in one operation, and `Departs` how an entry with a
reservation in flight can change.  Whatever holds of all entries in all histories follows from these
two.
-/

namespace ChatCommands.Cooldown

/-- An operation of a limiter.  A reservation is settled by the number of its grant: `settle` commits
it and `release` drops it. -/
inductive Operation
  | allow (k : Key) (cooldownMs : Int) (now : Rat)
  | commit (k : Key) (now : Rat) (cooldownMs : Int)
  | reserve (k : Key) (cooldownMs : Int) (now : Rat)
  | settle (ticket : Nat)
  | release (ticket : Nat)
  | prune (now : Rat)
  | clear
  deriving DecidableEq

namespace Operation

def time? : Operation → Option Rat
  | .allow _ _ now | .commit _ now _ | .reserve _ _ now | .prune now => some now
  | .settle _ | .release _ | .clear => none

def ticket? : Operation → Option Nat
  | .settle n | .release n => some n
  | .allow .. | .commit .. | .reserve .. | .prune _ | .clear => none

end Operation

namespace Desk

/-- One operation; a number that no reservation has settles nothing. -/
def perform (s : Settings) (d : Desk) : Operation → Desk
  | .allow .. => d
  | .commit k now cooldownMs => { d with limiter := d.limiter.commit s k now cooldownMs }
  | .reserve k cooldownMs now =>
    let (limiter, _, r) := d.limiter.reserve s k cooldownMs now
    ⟨limiter, d.tickets ++ r.toList⟩
  | .settle n =>
    match d.tickets[n]? with
    | some r => { d with limiter := d.limiter.commitReservation s r }
    | none => d
  | .release n =>
    match d.tickets[n]? with
    | some r => { d with limiter := d.limiter.release r }
    | none => d
  | .prune now => { d with limiter := d.limiter.prune s now }
  | .clear => { d with limiter := d.limiter.clear }

/-- A new limiter after some operations. -/
def after (s : Settings) (ops : List Operation) : Desk := ops.foldl (perform s) {}

@[simp] theorem after_nil (s : Settings) : after s [] = {} := rfl

theorem after_concat (s : Settings) (ops : List Operation) (op : Operation) :
    after s (ops ++ [op]) = (after s ops).perform s op := by
  rw [after, List.foldl_append]
  rfl

/-- What is known of a key. -/
def known? (d : Desk) (k : Key) : Option Entry := d.limiter.table.get? k

end Desk

namespace Table

variable {t : Table} {k k' : Key} {e e' : Entry} {maxEntries : Int}

/-- **Room is made at the expense of idle entries only.** -/
theorem get?_dropIdle_of_pending (keep : Key) (excess : Nat) (h : t.get? k = some e)
    (hpending : e.pending.isSome) : (dropIdle keep excess t).get? k = some e := by
  induction t generalizing excess with
  | nil => cases h
  | cons p t ih =>
    cases excess with
    | zero => exact h
    | succ excess =>
      rw [get?_cons] at h
      unfold dropIdle
      split at h
      · rename_i hk
        obtain rfl : p.2 = e := Option.some.inj h
        have hbusy : p.2.isIdle = false := by
          unfold Entry.isIdle
          rw [Option.isNone_eq_false_iff]
          exact hpending
        rw [hbusy, Bool.false_and, if_neg Bool.false_ne_true, get?_cons, if_pos hk]
      · rename_i hk
        split
        · exact ih excess h
        · rw [get?_cons, if_neg hk]
          exact ih (excess + 1) h

theorem get?_insert_of_pending (hne : k' ≠ k) (hk : t.get? k = none) (h : t.get? k' = some e')
    (hpending : e'.pending.isSome) : (t.insert maxEntries k e).get? k' = some e' := by
  apply get?_dropIdle_of_pending _ _ _ hpending
  rw [get?_append_singleton hk, if_neg hne]
  exact h

theorem get?_touch_of_pending (hne : k' ≠ k) (h : t.get? k' = some e')
    (hpending : e'.pending.isSome) : (t.touch maxEntries k e).get? k' = some e' := by
  unfold touch
  split
  · rw [get?_append_singleton (get?_erase_self t k), if_neg hne, get?_erase, if_neg hne]
    exact h
  · rename_i hk
    exact get?_insert_of_pending hne hk h hpending

theorem nodup_insert (hnd : t.keys.Nodup) (hk : t.get? k = none) :
    (t.insert maxEntries k e).keys.Nodup :=
  (nodup_append_singleton hnd hk).sublist ((dropIdle_sublist _ _ _).map _)

theorem get?_insert_self (hk : t.get? k = none) : (t.insert maxEntries k e).get? k = some e := by
  rw [insert, get?_dropIdle, get?_append_singleton hk, if_pos rfl]

theorem get?_of_insert (hnd : t.keys.Nodup) (hk : t.get? k = none) (hne : k' ≠ k)
    (h : (t.insert maxEntries k e).get? k' = some e') : t.get? k' = some e' := by
  have hmore := get?_of_sublist (nodup_append_singleton hnd hk) (dropIdle_sublist _ _ _) h
  rwa [get?_append_singleton hk, if_neg hne] at hmore

end Table

namespace Limiter

variable {s : Settings} {l l' : Limiter} {k : Key} {cooldownMs : Int} {now : Rat} {r : Reservation}
  {d : Decision} {e : Entry} {n : Nat}

theorem reserve_refused (hr : l.reserve s k cooldownMs now = (l', d, none)) : l' = l := by
  by_cases hC : cooldownMs ≤ 0
  · rw [reserve_of_nonpos hC] at hr
    cases hr
  · cases hallowed : (decisionOn s (l.table.get? k) cooldownMs now).allowed with
    | true =>
      rw [reserve_of_allowed (Int.not_le.mp hC) hallowed] at hr
      cases hr
    | false =>
      rw [reserve_of_denied (Int.not_le.mp hC) hallowed] at hr
      exact (congrArg (·.1) hr).symm

/-- A run is granted only by a decision that allows it. -/
theorem allowed_of_reserve (hr : l.reserve s k cooldownMs now = (l', d, some r)) :
    (l.allow s k cooldownMs now).allowed = true := by
  by_cases hC : cooldownMs ≤ 0
  · unfold allow decisionOn
    cases l.table.get? k with
    | none => rfl
    | some e => simp [hC]
  · cases hallowed : (decisionOn s (l.table.get? k) cooldownMs now).allowed with
    | true => exact hallowed
    | false =>
      rw [reserve_of_denied (Int.not_le.mp hC) hallowed] at hr
      cases hr

/-- **The decision of a reservation is that of a question.** -/
theorem decision_reserve :
    (l.reserve s k cooldownMs now).2.1 = l.allow s k cooldownMs now := by
  by_cases hC : cooldownMs ≤ 0
  · rw [reserve_of_nonpos hC]
    unfold allow decisionOn
    cases l.table.get? k with
    | none => rfl
    | some e => simp [hC]
  · cases hallowed : (decisionOn s (l.table.get? k) cooldownMs now).allowed with
    | true =>
      rw [reserve_of_allowed (Int.not_le.mp hC) hallowed]
      rfl
    | false =>
      rw [reserve_of_denied (Int.not_le.mp hC) hallowed]
      rfl

/-- An entry that allows a run with a cooldown has none in flight, and its last fire is long enough
ago. -/
theorem idle_of_allowed (hC : 0 < cooldownMs) (he : l.table.get? k = some e)
    (h : (l.allow s k cooldownMs now).allowed = true) :
    e.pending = none ∧ ∀ last, e.lastFire = some last → (cooldownMs : Rat) ≤ s.gap now last := by
  unfold allow decisionOn at h
  simp only [he, if_neg (Int.not_le.mpr hC)] at h
  cases hpending : e.pending with
  | some n => simp [hpending] at h
  | none =>
    refine ⟨rfl, fun last hlast => ?_⟩
    simp only [hpending, Option.isSome_none, Bool.false_eq_true, if_false, hlast] at h
    by_contra hsoon
    rw [if_pos (not_le.mp hsoon)] at h
    cases h

theorem nodup_reserve (hnd : l.table.keys.Nodup) :
    (l.reserve s k cooldownMs now).1.table.keys.Nodup := by
  obtain ⟨l', dec, r, hr⟩ : ∃ l' dec r, l.reserve s k cooldownMs now = (l', dec, r) :=
    ⟨_, _, _, rfl⟩
  rw [hr]
  cases r with
  | none => rwa [reserve_refused hr]
  | some r =>
    obtain ⟨-, -, -, -, ⟨-, -, htable⟩ | ⟨-, -, htable⟩⟩ := reserve_granted hr
    · rwa [htable]
    · rw [htable]
      exact Table.nodup_touch hnd

theorem nodup_commitReservation (hnd : l.table.keys.Nodup) :
    (l.commitReservation s r).table.keys.Nodup := by
  unfold commitReservation
  split
  · exact hnd
  · simp only []
    split
    · rename_i hnone
      exact Table.nodup_insert hnd hnone
    · split
      · exact hnd
      · exact Table.nodup_set hnd _ _

theorem nodup_release (hnd : l.table.keys.Nodup) : (l.release r).table.keys.Nodup := by
  unfold release
  split
  · exact hnd
  · split
    · split
      · exact Table.nodup_erase hnd _
      · exact Table.nodup_set hnd _ _
    · exact hnd

/-- A reservation in flight is out of reach of the others. -/
theorem get?_commitReservation_of_other (he : l.table.get? k = some e)
    (hpending : e.pending = some n) (hother : r.id ≠ n) :
    (l.commitReservation s r).table.get? k = some e := by
  unfold commitReservation
  split
  · exact he
  simp only []
  split
  · rename_i hnone
    have hne : k ≠ r.key := by
      rintro rfl
      rw [hnone] at he
      cases he
    apply Table.get?_insert_of_pending hne hnone he
    rw [hpending]
    rfl
  · rename_i e₀ he₀
    split
    · exact he
    · rename_i hfree
      have hne : k ≠ r.key := by
        rintro rfl
        obtain rfl : e₀ = e := Option.some.inj (he₀.symm.trans he)
        rw [hpending] at hfree
        simp [hother.symm] at hfree
      rw [Table.get?_set, if_neg hne]
      exact he

theorem get?_release_of_other (he : l.table.get? k = some e) (hpending : e.pending = some n)
    (hother : r.id ≠ n) : (l.release r).table.get? k = some e := by
  by_cases hk : k = r.key
  · subst hk
    rw [release_of_not_pending he]
    · exact he
    · rw [hpending]
      intro hid
      exact hother (Option.some.inj hid).symm
  · rw [get?_release_of_ne hk]
    exact he

end Limiter

open Limiter

variable {s : Settings} {d : Desk} {k : Key} {op : Operation} {e e' : Entry} {n : Nat}

/-! ### Where entries come from -/

/-- Where the entry of a key comes from in an operation. -/
inductive Origin (s : Settings) (d : Desk) (k : Key) : Operation → Entry → Prop
  | kept {op : Operation} {e : Entry} (he : d.known? k = some e) : Origin s d k op e
  | fired {now cooldownMs} : Origin s d k (.commit k now cooldownMs) ⟨some now, cooldownMs, none, now⟩
  | reserved {cooldownMs now} (hC : 0 < cooldownMs)
      (hallowed : (d.limiter.allow s k cooldownMs now).allowed = true) :
      Origin s d k (.reserve k cooldownMs now) (d.limiter.grantedEntry k cooldownMs now)
  | settled {n : Nat} {r} (hr : d.tickets[n]? = some r) (hk : r.key = k) (hC : 0 < r.cooldownMs)
      (hfree : ∀ e, d.known? k = some e → e.pending = none ∨ e.pending = some r.id) :
      Origin s d k (.settle n) (firedEntry r)
  | released {n : Nat} {r} {e : Entry} (hr : d.tickets[n]? = some r) (hk : r.key = k) (he : d.known? k = some e)
      (hpending : e.pending = some r.id) (hfire : e.lastFire.isSome) :
      Origin s d k (.release n) { e with pending := none }

theorem origin_of_touch (hnd : d.limiter.table.keys.Nodup) {k' : Key}
    (hself : k = k' → Origin s d k op e)
    (h : (d.limiter.table.touch s.maxEntries k' e).get? k = some e') : Origin s d k op e' := by
  by_cases hk : k = k'
  · rw [hk, Table.get?_touch_self] at h
    cases h
    exact hself hk
  · exact .kept (Table.get?_of_touch hnd hk h)

theorem origin_of_settle (hnd : d.limiter.table.keys.Nodup) {r : Reservation}
    (hr : d.tickets[n]? = some r) (h : (d.limiter.commitReservation s r).table.get? k = some e) :
    Origin s d k (.settle n) e := by
  by_cases hC : r.cooldownMs ≤ 0
  · rw [commitReservation_of_nonpos hC] at h
    exact .kept h
  have hC := Int.not_le.mp hC
  unfold commitReservation at h
  rw [if_neg (Int.not_le.mpr hC)] at h
  simp only [] at h
  split at h
  · rename_i hnone
    by_cases hk : k = r.key
    · subst hk
      rw [Table.get?_insert_self hnone] at h
      cases h
      refine .settled hr rfl hC fun e he => ?_
      have hsome : d.limiter.table.get? r.key = some e := he
      rw [hnone] at hsome
      cases hsome
    · exact .kept (Table.get?_of_insert hnd hnone hk h)
  · rename_i e₀ he₀
    split at h
    · exact .kept h
    · rename_i hfree
      rw [Table.get?_set] at h
      by_cases hk : k = r.key
      · subst hk
        rw [if_pos rfl, he₀] at h
        cases h
        refine .settled hr rfl hC fun e he => ?_
        obtain rfl : e₀ = e := Option.some.inj (he₀.symm.trans he)
        cases hpending : e₀.pending with
        | none => exact .inl rfl
        | some m =>
          right
          simpa [hpending] using hfree
      · rw [if_neg hk] at h
        exact .kept h

theorem origin_of_release {r : Reservation} (hr : d.tickets[n]? = some r)
    (h : (d.limiter.release r).table.get? k = some e) : Origin s d k (.release n) e := by
  by_cases hk : k = r.key
  · subst hk
    cases he₀ : d.limiter.table.get? r.key with
    | none =>
      rw [release_of_get?_eq_none he₀] at h
      exact .kept h
    | some e₀ =>
      by_cases hpending : e₀.pending = some r.id
      · rw [get?_release_of_pending he₀ hpending] at h
        split at h
        · rename_i hfire
          cases h
          exact .released hr rfl he₀ hpending hfire
        · cases h
      · rw [release_of_not_pending he₀ hpending] at h
        exact .kept h
  · rw [get?_release_of_ne hk] at h
    exact .kept h

theorem nodup_perform (hnd : d.limiter.table.keys.Nodup) (op : Operation) :
    (d.perform s op).limiter.table.keys.Nodup := by
  cases op with
  | allow k cooldownMs now => exact hnd
  | commit k now cooldownMs => exact Table.nodup_touch hnd
  | reserve k cooldownMs now => exact nodup_reserve hnd
  | settle n =>
    simp only [Desk.perform]
    split
    · exact nodup_commitReservation hnd
    · exact hnd
  | release n =>
    simp only [Desk.perform]
    split
    · exact nodup_release hnd
    · exact hnd
  | prune now => exact hnd.sublist (Table.keys_filter_sublist _ _)
  | clear => exact List.nodup_nil

theorem nodup_after (s : Settings) (ops : List Operation) :
    (Desk.after s ops).limiter.table.keys.Nodup := by
  induction ops using List.reverseRecOn with
  | nil => exact List.nodup_nil
  | append_singleton ops op ih =>
    rw [Desk.after_concat]
    exact nodup_perform ih op

/-- **Every entry has one of the origins.** -/
theorem origin_of_perform (hnd : d.limiter.table.keys.Nodup)
    (h : (d.perform s op).known? k = some e) : Origin s d k op e := by
  unfold Desk.known? at h
  cases op with
  | allow k' cooldownMs now => exact .kept h
  | commit k' now cooldownMs =>
    exact origin_of_touch hnd (by rintro rfl; exact .fired) h
  | reserve k' cooldownMs now =>
    obtain ⟨l', dec, r, hr⟩ : ∃ l' dec r, d.limiter.reserve s k' cooldownMs now = (l', dec, r) :=
      ⟨_, _, _, rfl⟩
    simp only [Desk.perform, hr] at h
    cases r with
    | none =>
      rw [reserve_refused hr] at h
      exact .kept h
    | some r =>
      have hallowed := allowed_of_reserve hr
      obtain ⟨-, -, -, -, ⟨-, -, htable⟩ | ⟨hC, -, htable⟩⟩ := reserve_granted hr
      · rw [htable] at h
        exact .kept h
      · rw [htable] at h
        exact origin_of_touch hnd (by rintro rfl; exact .reserved hC hallowed) h
  | settle n =>
    simp only [Desk.perform] at h
    split at h
    · rename_i r hr
      exact origin_of_settle hnd hr h
    · exact .kept h
  | release n =>
    simp only [Desk.perform] at h
    split at h
    · rename_i r hr
      exact origin_of_release hr h
    · exact .kept h
  | prune now =>
    have hget := (Table.get?_filter hnd (fun e => !isStale s now e) k).symm.trans h
    exact .kept (Option.filter_eq_some_iff.mp hget).1
  | clear => cases h

/-! ### What becomes of a reservation in flight -/

/-- The operation can take the reservation with number `n` of a key out of flight. -/
inductive Departs (d : Desk) (k : Key) (n : Nat) : Operation → Prop
  | committed {now cooldownMs} : Departs d k n (.commit k now cooldownMs)
  | settled {m r} (hr : d.tickets[m]? = some r) (hid : r.id = n) : Departs d k n (.settle m)
  | released {m r} (hr : d.tickets[m]? = some r) (hid : r.id = n) : Departs d k n (.release m)
  | cleared : Departs d k n .clear

/-- **A reservation in flight stays so**, and the entry of its key as it is, through every operation
that does not take it out of flight. -/
theorem known?_perform_of_pending (hnd : d.limiter.table.keys.Nodup) (he : d.known? k = some e)
    (hpending : e.pending = some n) (hstay : ¬ Departs d k n op) :
    (d.perform s op).known? k = some e := by
  have hsome : e.pending.isSome := by rw [hpending]; rfl
  unfold Desk.known? at he ⊢
  cases op with
  | allow k' cooldownMs now => exact he
  | commit k' now cooldownMs =>
    have hne : k ≠ k' := by
      rintro rfl
      exact hstay .committed
    exact Table.get?_touch_of_pending hne he hsome
  | reserve k' cooldownMs now =>
    obtain ⟨l', dec, r, hr⟩ : ∃ l' dec r, d.limiter.reserve s k' cooldownMs now = (l', dec, r) :=
      ⟨_, _, _, rfl⟩
    simp only [Desk.perform, hr]
    cases r with
    | none => rwa [reserve_refused hr]
    | some r =>
      have hallowed := allowed_of_reserve hr
      obtain ⟨-, -, -, -, ⟨-, -, htable⟩ | ⟨hC, -, htable⟩⟩ := reserve_granted hr
      · rwa [htable]
      · rw [htable]
        have hne : k ≠ k' := by
          rintro rfl
          have hidle := (idle_of_allowed hC he hallowed).1
          rw [hpending] at hidle
          cases hidle
        exact Table.get?_touch_of_pending hne he hsome
  | settle m =>
    simp only [Desk.perform]
    split
    · rename_i r hr
      exact get?_commitReservation_of_other he hpending fun hid => hstay (.settled hr hid)
    · exact he
  | release m =>
    simp only [Desk.perform]
    split
    · rename_i r hr
      exact get?_release_of_other he hpending fun hid => hstay (.released hr hid)
    · exact he
  | prune now =>
    refine (Table.get?_filter hnd (fun e => !isStale s now e) k).trans ?_
    rw [he, Option.filter_some, if_pos]
    simp [isStale, Entry.isIdle, hpending]
  | clear => exact absurd .cleared hstay

/-! ### Tickets -/

/-- An operation hands out no ticket, or the next one, which is in flight if it has a cooldown. -/
theorem tickets_perform (s : Settings) (d : Desk) (op : Operation) :
    (d.perform s op).tickets = d.tickets ∧ (d.perform s op).limiter.granted = d.limiter.granted ∨
      ∃ r, op.time? = some r.issued ∧ r.id = d.limiter.granted ∧
        (d.perform s op).tickets = d.tickets ++ [r] ∧
        (d.perform s op).limiter.granted = d.limiter.granted + 1 ∧
        (0 < r.cooldownMs → ∃ e, (d.perform s op).known? r.key = some e ∧ e.pending = some r.id) := by
  cases op with
  | allow k cooldownMs now => exact .inl ⟨rfl, rfl⟩
  | commit k now cooldownMs => exact .inl ⟨rfl, rfl⟩
  | reserve k cooldownMs now =>
    obtain ⟨l', dec, r, hr⟩ : ∃ l' dec r, d.limiter.reserve s k cooldownMs now = (l', dec, r) :=
      ⟨_, _, _, rfl⟩
    simp only [Desk.perform, hr]
    cases r with
    | none =>
      left
      rw [reserve_refused hr]
      exact ⟨List.append_nil _, rfl⟩
    | some r =>
      obtain ⟨rfl, hissued, hid, hgranted, hentry⟩ := reserve_granted hr
      refine .inr ⟨r, congrArg some hissued.symm, hid, rfl, hgranted, fun hC => ?_⟩
      rcases hentry with ⟨-, hfree, -⟩ | ⟨-, -, htable⟩
      · omega
      · refine ⟨d.limiter.grantedEntry r.key cooldownMs now, ?_, ?_⟩
        · unfold Desk.known?
          rw [htable, Table.get?_touch_self]
        · rw [hid]
          rfl
  | settle n =>
    left
    simp only [Desk.perform]
    split
    · exact ⟨rfl, granted_commitReservation⟩
    · exact ⟨rfl, rfl⟩
  | release n =>
    left
    simp only [Desk.perform]
    split
    · exact ⟨rfl, granted_release⟩
    · exact ⟨rfl, rfl⟩
  | prune now => exact .inl ⟨rfl, rfl⟩
  | clear => exact .inl ⟨rfl, rfl⟩

theorem tickets_reserve_of_allowed {cooldownMs : Int} {now : Rat} (hC : 0 < cooldownMs)
    (h : (d.limiter.allow s k cooldownMs now).allowed = true) :
    (d.perform s (.reserve k cooldownMs now)).tickets =
      d.tickets ++ [⟨k, cooldownMs, now, d.limiter.granted⟩] := by
  simp only [Desk.perform, reserve_of_allowed hC h, Option.toList_some]

/-- No ticket is lost. -/
theorem getElem?_tickets_perform {r : Reservation} (s : Settings) (op : Operation)
    (h : d.tickets[n]? = some r) : (d.perform s op).tickets[n]? = some r := by
  rcases tickets_perform s d op with ⟨hsame, -⟩ | ⟨_, -, -, hmore, -⟩
  · rwa [hsame]
  · rw [hmore]
    exact List.getElem?_append_left (List.getElem?_eq_some_iff.mp h).1 ▸ h

/-! ### What holds in every history -/

/-- Time passes from the earlier of two times to the later one, if any does. -/
def Forward (gap : Rat → Rat → Rat) : Prop := ∀ ⦃a b : Rat⦄, 0 < gap a b → b ≤ a

theorem elapsed_forward : Forward elapsed := by
  intro a b h
  by_contra hlt
  have hlt := not_le.mp hlt
  have hsnap : ∀ q : Rat, q ≤ 0 → Binary64.snap q ≤ 0 := fun q hq => by
    have hmono := Binary64.snap_mono hq
    rwa [Binary64.snap_zero] at hmono
  unfold elapsed at h
  split at h
  · exact absurd h (not_lt.mpr (hsnap _ (sub_nonpos.mpr hlt.le)))
  · split at h
    · exact absurd h (not_lt.mpr (sub_nonpos.mpr hlt.le))
    · exact absurd h (not_lt.mpr (hsnap _ (sub_nonpos.mpr (Binary64.snap_mono hlt.le))))

/-- A limiter as operations at `times` leave it. -/
structure Regular (times : Rat → Prop) (d : Desk) : Prop where
  nodup : d.limiter.table.keys.Nodup
  granted : d.limiter.granted = d.tickets.length
  numbered : ∀ (n : Nat) (r : Reservation), d.tickets[n]? = some r → r.id = n ∧ times r.issued
  pending : ∀ k e (n : Nat), d.known? k = some e → e.pending = some n →
    ∃ r, d.tickets[n]? = some r ∧ r.key = k ∧ 0 < r.cooldownMs ∧ r.issued = e.touched
  timed : ∀ k e, d.known? k = some e →
    times e.touched ∧ ∀ last, e.lastFire = some last → times last ∧ last ≤ e.touched

variable {times : Rat → Prop}

theorem regular_new : Regular times {} where
  nodup := List.nodup_nil
  granted := rfl
  numbered := nofun
  pending := nofun
  timed := nofun

/-- **Every operation leaves the limiter regular.** -/
theorem Regular.perform (h : Regular times d) (hgap : Forward s.gap)
    (htimes : ∀ t, op.time? = some t → times t) : Regular times (d.perform s op) where
  nodup := nodup_perform h.nodup op
  granted := by
    rcases tickets_perform s d op with ⟨hsame, hgranted⟩ | ⟨r, -, -, hmore, hgranted, -⟩
    · rw [hsame, hgranted, h.granted]
    · rw [hmore, hgranted, List.length_append, List.length_singleton, h.granted]
  numbered := by
    intro n r hr
    rcases tickets_perform s d op with ⟨hsame, -⟩ | ⟨r', htime, hid, hmore, -⟩
    · rw [hsame] at hr
      exact h.numbered n r hr
    · rw [hmore] at hr
      rcases getElem?_append_singleton hr with hr | ⟨hn, rfl⟩
      · exact h.numbered n r hr
      · rw [hid, h.granted, hn]
        exact ⟨rfl, htimes _ htime⟩
  pending := by
    intro k e n he hpending
    cases origin_of_perform h.nodup he with
    | kept he₀ =>
      obtain ⟨r, hr, hk⟩ := h.pending k e n he₀ hpending
      exact ⟨r, getElem?_tickets_perform s op hr, hk⟩
    | fired => cases hpending
    | @reserved cooldownMs now hC hallowed =>
      cases hpending
      refine ⟨⟨k, cooldownMs, now, d.limiter.granted⟩, ?_, rfl, hC, rfl⟩
      rw [tickets_reserve_of_allowed hC hallowed, h.granted, List.getElem?_append_right le_rfl,
        Nat.sub_self]
      rfl
    | settled => cases hpending
    | released => cases hpending
  timed := by
    intro k e he
    cases origin_of_perform h.nodup he with
    | kept he₀ => exact h.timed k e he₀
    | fired =>
      refine ⟨htimes _ rfl, fun last hlast => ?_⟩
      cases hlast
      exact ⟨htimes _ rfl, le_rfl⟩
    | reserved hC hallowed =>
      refine ⟨htimes _ rfl, fun last hlast => ?_⟩
      unfold grantedEntry at hlast
      cases he₀ : d.limiter.table.get? k with
      | none => simp [he₀] at hlast
      | some e₀ =>
        simp only [he₀, Option.getD_some] at hlast
        have hlong := (idle_of_allowed hC he₀ hallowed).2 last hlast
        have hpos : (0 : Rat) < s.gap _ last := lt_of_lt_of_le (by exact_mod_cast hC) hlong
        exact ⟨((h.timed k e₀ he₀).2 last hlast).1, hgap hpos⟩
    | @settled n r hr hk hC hfree =>
      have htime := (h.numbered n r hr).2
      refine ⟨htime, fun last hlast => ?_⟩
      cases hlast
      exact ⟨htime, le_rfl⟩
    | @released n r e₀ hr hk he₀ => exact h.timed k e₀ he₀

/-- **A limiter is regular after any operations.** -/
theorem regular_after (hgap : Forward s.gap) {ops : List Operation}
    (htimes : ∀ t ∈ ops.filterMap Operation.time?, times t) : Regular times (Desk.after s ops) := by
  induction ops using List.reverseRecOn with
  | nil => exact regular_new
  | append_singleton ops op ih =>
    rw [Desk.after_concat]
    rw [List.filterMap_append] at htimes
    apply (ih fun t ht => htimes t (List.mem_append_left _ ht)).perform hgap
    intro t ht
    apply htimes t
    simp [ht]

end ChatCommands.Cooldown
