import ChatCommands.Proofs.Cooldown.Histories

/-!
Reservations in flight, however a limiter is used.

A reservation may be settled several times, after a `clear` or never, and the times of the operations
may come in any order.  Still an entry without a reservation in flight is there for a fire, and one
with a reservation in flight has the number of a grant for its key that nobody has settled since.  So
a reservation that was settled once has nothing left to release, and a new one is refused rather than
put in the place of another.  Main statement: `in_flight_open`.
-/

namespace ChatCommands.Cooldown

open Limiter

variable {s : Settings} {d : Desk} {ops first more : List Operation} {op : Operation} {k : Key}
  {e e' : Entry} {n : Nat} {r : Reservation}

/-! ### Numbers of reservations -/

/-- Reservations are numbered in the order of their grants. -/
structure Numbered (d : Desk) : Prop where
  granted : d.limiter.granted = d.tickets.length
  id : ∀ (n : Nat) (r : Reservation), d.tickets[n]? = some r → r.id = n

theorem Numbered.perform (h : Numbered d) (s : Settings) (op : Operation) :
    Numbered (d.perform s op) := by
  rcases tickets_perform s d op with ⟨hsame, hgranted⟩ | ⟨r', -, hid, hmore, hgranted, -⟩
  · constructor
    · rw [hsame, hgranted, h.granted]
    · rw [hsame]
      exact h.id
  · constructor
    · rw [hmore, hgranted, h.granted, List.length_append, List.length_singleton]
    · intro n r hr
      rw [hmore] at hr
      rcases getElem?_append_singleton hr with hr | ⟨hn, rfl⟩
      · exact h.id n r hr
      · rw [hid, h.granted, hn]

theorem numbered_after (s : Settings) (ops : List Operation) : Numbered (Desk.after s ops) := by
  induction ops using List.reverseRecOn with
  | nil => exact ⟨rfl, nofun⟩
  | append_singleton ops op ih =>
    rw [Desk.after_concat]
    exact ih.perform s op

theorem getElem?_tickets_after (h : (Desk.after s first).tickets[n]? = some r)
    (more : List Operation) : (Desk.after s (first ++ more)).tickets[n]? = some r := by
  induction more using List.reverseRecOn with
  | nil =>
    rw [List.append_nil]
    exact h
  | append_singleton more op ih =>
    rw [← List.append_assoc, Desk.after_concat]
    exact getElem?_tickets_perform s op ih

theorem length_tickets_le (s : Settings) (first more : List Operation) :
    (Desk.after s first).tickets.length ≤ (Desk.after s (first ++ more)).tickets.length := by
  by_contra hlt
  have hlast := List.getElem?_eq_getElem (Nat.lt_of_not_le hlt)
  have hstays := getElem?_tickets_after hlast more
  rw [List.getElem?_eq_none (Nat.le_refl _)] at hstays
  cases hstays

/-! ### What was granted, and what was settled -/

/-- After the operations `first`, the operation grants a run of the key with a cooldown, and number `n`
to its reservation. -/
def Grants (s : Settings) (first : List Operation) (op : Operation) (k : Key) (n : Nat) : Prop :=
  ∃ cooldownMs now, op = .reserve k cooldownMs now ∧ 0 < cooldownMs ∧
    (Desk.after s first).tickets.length = n ∧
    (Desk.after s (first ++ [op])).tickets[n]? = some ⟨k, cooldownMs, now, n⟩

/-- The reservation with this number was granted for the key and a cooldown, and it has been neither
committed nor released since. -/
def Open (s : Settings) (ops : List Operation) (k : Key) (n : Nat) : Prop :=
  ∃ first op later, ops = first ++ op :: later ∧ Grants s first op k n ∧
    n ∉ later.filterMap Operation.ticket?

/-- The reservation with this number was committed or released, once or more. -/
def Settled (s : Settings) (ops : List Operation) (n : Nat) : Prop :=
  ∃ first op later, ops = first ++ op :: later ∧ op.ticket? = some n ∧
    n < (Desk.after s first).tickets.length

theorem grants_of_allowed {cooldownMs : Int} {now : Rat} (hC : 0 < cooldownMs)
    (h : ((Desk.after s ops).limiter.allow s k cooldownMs now).allowed = true) :
    Grants s ops (.reserve k cooldownMs now) k (Desk.after s ops).limiter.granted := by
  have hgranted := (numbered_after s ops).granted
  refine ⟨cooldownMs, now, rfl, hC, hgranted.symm, ?_⟩
  rw [Desk.after_concat, tickets_reserve_of_allowed hC h, hgranted,
    List.getElem?_append_right (Nat.le_refl _), Nat.sub_self]
  rfl

theorem Open.ticket (h : Open s ops k n) :
    ∃ r, (Desk.after s ops).tickets[n]? = some r ∧ r.key = k ∧ 0 < r.cooldownMs := by
  obtain ⟨first, op, later, rfl, ⟨cooldownMs, now, rfl, hC, -, hticket⟩, -⟩ := h
  refine ⟨⟨k, cooldownMs, now, n⟩, ?_, rfl, hC⟩
  have hstays := getElem?_tickets_after hticket later
  rwa [List.append_assoc, List.singleton_append] at hstays

theorem Open.concat (h : Open s ops k n) (hop : op.ticket? ≠ some n) : Open s (ops ++ [op]) k n := by
  obtain ⟨first, grant, later, rfl, hgrant, hopen⟩ := h
  refine ⟨first, grant, later ++ [op], ?_, hgrant, ?_⟩
  · rw [List.append_assoc, List.cons_append]
  · rw [List.filterMap_append, List.mem_append, not_or]
    refine ⟨hopen, ?_⟩
    simpa using hop

/-- **What is open was not settled.** -/
theorem Open.not_settled (h : Open s ops k n) : ¬ Settled s ops n := by
  obtain ⟨first, grant, later, rfl, ⟨cooldownMs, now, rfl, -, hfirst, -⟩, hopen⟩ := h
  rintro ⟨first', op, later', heq, hop, hn⟩
  rcases List.append_eq_append_iff.mp heq with ⟨between, rfl, hlater⟩ | ⟨between, rfl, -⟩
  · cases between with
    | nil =>
      -- it would have been settled by its own grant
      cases (List.cons.inj hlater).1
      cases hop
    | cons _ between =>
      have hrest : later = between ++ op :: later' := (List.cons.inj hlater).2
      apply hopen
      rw [hrest, List.mem_filterMap]
      exact ⟨op, List.mem_append_right _ List.mem_cons_self, hop⟩
  · -- before its grant the number stood for nothing
    have hle := length_tickets_le s first' between
    omega

/-! ### The invariant -/

/-- **A reservation in flight lands as it is settled.** -/
theorem lands (hr : d.tickets[n]? = some r) (hC : 0 < r.cooldownMs) (he : d.known? r.key = some e)
    (hpending : e.pending = some r.id) (hop : op.ticket? = some n)
    (he' : (d.perform s op).known? r.key = some e') : e'.pending = none := by
  unfold Desk.known? at he he'
  cases op with
  | settle m =>
    cases hop
    simp only [Desk.perform, hr, get?_commitReservation_of_pending hC he hpending] at he'
    cases he'
    rfl
  | release m =>
    cases hop
    simp only [Desk.perform, hr, get?_release_of_pending he hpending] at he'
    split at he'
    · cases he'
      rfl
    · cases he'
  | allow | commit | reserve | prune | clear => cases hop

/-- What an entry is there for: a fire, or a reservation that is still open. -/
structure Sound (s : Settings) (ops : List Operation) : Prop where
  fired : ∀ k e, (Desk.after s ops).known? k = some e → e.pending = none → e.lastFire.isSome
  inFlight : ∀ k e n, (Desk.after s ops).known? k = some e → e.pending = some n → Open s ops k n

/-- **Every operation keeps the entries sound.** -/
theorem Sound.concat (h : Sound s ops) (op : Operation) : Sound s (ops ++ [op]) := by
  have hnd := nodup_after s ops
  constructor
  · intro k e he hidle
    rw [Desk.after_concat] at he
    cases origin_of_perform hnd he with
    | kept he₀ => exact h.fired k e he₀ hidle
    | fired => rfl
    | reserved => cases hidle
    | settled => rfl
    | released hr hk he₀ hpending hfire => exact hfire
  · intro k e n he hpending
    rw [Desk.after_concat] at he
    cases origin_of_perform hnd he with
    | kept he₀ =>
      have hopen := h.inFlight k e n he₀ hpending
      refine hopen.concat fun hop => ?_
      obtain ⟨r, hr, rfl, hC⟩ := hopen.ticket
      have hid := (numbered_after s ops).id n r hr
      have hidle := lands hr hC he₀ (hid ▸ hpending) hop he
      cases hpending.symm.trans hidle
    | fired => cases hpending
    | reserved hC hallowed =>
      cases hpending
      exact ⟨ops, _, [], rfl, grants_of_allowed hC hallowed, List.not_mem_nil⟩
    | settled => cases hpending
    | released => cases hpending

theorem sound_after (s : Settings) (ops : List Operation) : Sound s ops := by
  induction ops using List.reverseRecOn with
  | nil => exact ⟨nofun, nofun⟩
  | append_singleton ops op ih => exact ih.concat op

/-! ### What follows for releasing and reserving -/

/-- **A settled reservation has nothing left to release.** -/
theorem release_settled (h : Settled s ops n) :
    (Desk.after s ops).perform s (.release n) = Desk.after s ops := by
  simp only [Desk.perform]
  split
  · rename_i r hr
    have hid := (numbered_after s ops).id n r hr
    have hsame : (Desk.after s ops).limiter.release r = (Desk.after s ops).limiter := by
      cases he : (Desk.after s ops).limiter.table.get? r.key with
      | none => exact release_of_get?_eq_none he
      | some e =>
        refine release_of_not_pending he fun hpending => ?_
        rw [hid] at hpending
        exact ((sound_after s ops).inFlight r.key e n he hpending).not_settled h
    rw [hsame]
  · rfl

/-- A run is refused while another one of the key is in flight. -/
theorem reserve_of_pending {cooldownMs : Int} (hC : 0 < cooldownMs) (now : Rat)
    (he : d.known? k = some e) (hpending : e.pending.isSome) :
    d.limiter.reserve s k cooldownMs now = (d.limiter, ⟨false, max cooldownMs 1⟩, none) := by
  unfold Desk.known? at he
  have hdecision : decisionOn s (d.limiter.table.get? k) cooldownMs now = ⟨false, max cooldownMs 1⟩ := by
    simp [decisionOn, he, Int.not_le.mpr hC, hpending]
  rw [reserve_of_denied hC (by rw [hdecision]), hdecision]

/-- **What is in flight was granted and not settled**, in every limiter and after any operations, at
any times and with reservations settled any number of times.  An entry without a reservation in
flight has a recorded fire.  The number in flight is that of a reservation that was granted for the
key of the entry and a cooldown, and that has been neither committed nor released since.  So the
release of a reservation that was settled before changes nothing.  And as long as a reservation is in
flight no run of its key with a cooldown is granted, and no other run takes its entry away. -/
theorem in_flight_open (s : Settings) (ops : List Operation) :
    let d := Desk.after s ops
    (∀ k e, d.known? k = some e → e.pending = none → e.lastFire.isSome) ∧
    (∀ k e n, d.known? k = some e → e.pending = some n → Open s ops k n) ∧
    (∀ n, Settled s ops n → d.perform s (.release n) = d) ∧
    ∀ k e, d.known? k = some e → e.pending.isSome → ∀ cooldownMs now, 0 < cooldownMs →
      (d.limiter.reserve s k cooldownMs now).2.2 = none ∧
        ∀ k', (d.perform s (.reserve k' cooldownMs now)).known? k = some e := by
  intro d
  have hsound := sound_after s ops
  refine ⟨hsound.fired, hsound.inFlight, fun n => release_settled, ?_⟩
  intro k e he hpending cooldownMs now hC
  refine ⟨by rw [reserve_of_pending hC now he hpending], fun k' => ?_⟩
  obtain ⟨n, hn⟩ := Option.isSome_iff_exists.mp hpending
  exact known?_perform_of_pending (nodup_after s ops) he hn nofun

/-- A reservation that is committed, forgotten and committed again, while another one is in flight. -/
theorem in_flight_open_misused :
    let k : Key := ⟨text "u1", text "c1"⟩
    let ops : List Operation := [.reserve k 1000 0, .settle 0, .clear, .reserve k 500 (-7), .settle 0]
    let d := Desk.after {} ops
    d.known? k = some ⟨none, 500, some 1, -7⟩ ∧ Open {} ops k 1 ∧ d.perform {} (.release 0) = d ∧
      (d.limiter.reserve {} k 1 2000).2.2 = none := by
  intro k ops d
  have he : d.known? k = some ⟨none, 500, some 1, -7⟩ := by decide +kernel
  have hsettled : Settled {} ops 0 := ⟨[.reserve k 1000 0], .settle 0, _, rfl, rfl, by decide +kernel⟩
  obtain ⟨-, hopen, hrelease, hrefused⟩ := in_flight_open {} ops
  exact ⟨he, hopen k _ 1 he rfl, hrelease 0 hsettled, (hrefused k _ he rfl 1 2000 (by decide)).1⟩

end ChatCommands.Cooldown
