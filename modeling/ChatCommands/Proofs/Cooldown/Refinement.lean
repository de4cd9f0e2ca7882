import ChatCommands.Proofs.Cooldown.Memory
import ChatCommands.Proofs.Cooldown.Operations

/-!
The cooldown limiter decides as a limiter that never forgets.

Both answer the same sequences of uses.  The limiter that never forgets has a memory for every key;
the real one has entries for some keys, removes them when they are idle, and stops short of a limit
on their number.  As long as that limit is not reached the entry of each key stands for the memory
of the key, and so the decisions are the same.  Main statement: `answers_eq`.
-/

namespace ChatCommands.Cooldown

/-- A use of a limiter.  A reservation is settled by the number of its grant. -/
inductive Use
  | allow (k : Key) (now : Rat)
  | reserve (k : Key) (now : Rat)
  | commit (ticket : Nat)
  | release (ticket : Nat)
  | prune (now : Rat)
  deriving DecidableEq

namespace Use

/-- The time of a use. -/
def time? : Use → Option Rat
  | .allow _ now | .reserve _ now | .prune now => some now
  | .commit _ | .release _ => none

/-- The key of a use. -/
def key? : Use → Option Key
  | .allow k _ | .reserve k _ => some k
  | .commit _ | .release _ | .prune _ => none

/-- The reservation that a use settles. -/
def ticket? : Use → Option Nat
  | .commit n | .release n => some n
  | .allow .. | .reserve .. | .prune _ => none

end Use

/-- The answers to a sequence of uses; only `allow` and `reserve` have one. -/
def answers {σ : Type} (step : σ → Use → σ × Option Decision) : σ → List Use → List (Option Decision)
  | _, [] => []
  | st, u :: us => (step st u).2 :: answers step (step st u).1 us

/-! ### The limiter and its reservations -/

/-- A limiter with the reservations that it has granted, oldest first. -/
structure Desk where
  limiter : Limiter := {}
  tickets : List Reservation := []

/-- One use of the limiter. -/
def Desk.step (s : Settings) (cooldown : Key → Int) (d : Desk) : Use → Desk × Option Decision
  | .allow k now => (d, some (d.limiter.allow s k (cooldown k) now))
  | .reserve k now =>
    let (limiter, decision, r) := d.limiter.reserve s k (cooldown k) now
    (⟨limiter, d.tickets ++ r.toList⟩, some decision)
  | .commit n =>
    match d.tickets[n]? with
    | some r => ({ d with limiter := d.limiter.commitReservation s r }, none)
    | none => (d, none)
  | .release n =>
    match d.tickets[n]? with
    | some r => ({ d with limiter := d.limiter.release r }, none)
    | none => (d, none)
  | .prune now => ({ d with limiter := d.limiter.prune s now }, none)

/-! ### The limiter that never forgets -/

/-- What a limiter that never forgets knows: the memory of every key, and the key and the time of
each reservation that it has granted, oldest first. -/
structure Unforgetting where
  memory : Key → Memory := fun _ => {}
  tickets : List (Key × Rat) := []

namespace Unforgetting

/-- Changes the memory of a key. -/
def remember (n : Unforgetting) (k : Key) (m : Memory) : Unforgetting :=
  { n with memory := fun k' => if k' = k then m else n.memory k' }

/-- One use of the limiter that never forgets, with the decisions that it takes by the memory of a
key. -/
def step (decision : Memory → Int → Rat → Decision) (cooldown : Key → Int) (n : Unforgetting) :
    Use → Unforgetting × Option Decision
  | .allow k now => (n, some (decision (n.memory k) (cooldown k) now))
  | .reserve k now =>
    let answer := decision (n.memory k) (cooldown k) now
    if answer.allowed then
      ({ n.remember k ((n.memory k).reserve n.tickets.length) with
          tickets := n.tickets ++ [(k, now)] }, some answer)
    else (n, some answer)
  | .commit i =>
    match n.tickets[i]? with
    | some (k, issued) => (n.remember k ((n.memory k).commit i issued), none)
    | none => (n, none)
  | .release i =>
    match n.tickets[i]? with
    | some (k, _) => (n.remember k ((n.memory k).release i), none)
    | none => (n, none)
  | .prune _ => (n, none)

@[simp] theorem remember_self (n : Unforgetting) (k : Key) (m : Memory) :
    (n.remember k m).memory k = m := if_pos rfl

theorem remember_of_ne (n : Unforgetting) {k k' : Key} (h : k' ≠ k) (m : Memory) :
    (n.remember k m).memory k' = n.memory k' := if_neg h

end Unforgetting

/-- The decision of a limiter that never forgets, where a command without a cooldown is always
allowed. -/
def Memory.admission (gap : Rat → Rat → Rat) (m : Memory) (cooldownMs : Int) (now : Rat) :
    Decision :=
  if cooldownMs ≤ 0 then ⟨true, 0⟩ else m.decision gap cooldownMs now

/-! ### The simulation -/

/-- The reservation that the limiter hands out with a ticket. -/
def ticketOf (cooldown : Key → Int) (n : Nat) (p : Key × Rat) : Reservation :=
  ⟨p.1, cooldown p.1, p.2, n⟩

/-- The limiter and the one that never forgets, at a time, after some reservations were settled:
the tickets are the same, the entry of each key stands for its memory, and a reservation that was
not settled is in flight. -/
structure Simulates (s : Settings) (readings : Rat → Prop) (cooldown : Key → Int)
    (used : List Key) (now : Rat) (settled : List Nat) (d : Desk) (n : Unforgetting) : Prop where
  granted : d.limiter.granted = n.tickets.length
  tickets : d.tickets = n.tickets.mapIdx (ticketOf cooldown)
  within : d.limiter.table.Within used
  tracked : ∀ k, 0 < cooldown k →
    Tracks s readings (cooldown k) now (d.limiter.table.get? k) (n.memory k)
  untracked : ∀ k, cooldown k ≤ 0 → d.limiter.table.get? k = none
  known : ∀ (i : Nat) k t, n.tickets[i]? = some (k, t) → k ∈ used ∧ readings t ∧ t ≤ now
  inFlight : ∀ (i : Nat) k t, n.tickets[i]? = some (k, t) → 0 < cooldown k → i ∉ settled →
    (n.memory k).inFlight = some i

variable {s : Settings} {readings : Rat → Prop} {cooldown : Key → Int} {used : List Key}
  {now later : Rat} {settled : List Nat} {d : Desk} {n : Unforgetting} {k : Key} {i : Nat}

theorem Simulates.start (now : Rat) : Simulates s readings cooldown used now [] {} {} where
  granted := rfl
  tickets := rfl
  within := .nil used
  tracked := fun _ _ => .fresh
  untracked := fun _ _ => rfl
  known := by simp
  inFlight := by simp

/-- Time passes. -/
theorem Simulates.mono (hgap : Orderly s.gap readings) (hnow : readings now)
    (hlater : readings later) (hle : now ≤ later)
    (h : Simulates s readings cooldown used now settled d n) :
    Simulates s readings cooldown used later settled d n :=
  { h with
    tracked := fun k hk => (h.tracked k hk).mono hgap hnow hlater hle
    known := fun i k t hi => by
      obtain ⟨hk, ht, hle'⟩ := h.known i k t hi
      exact ⟨hk, ht, hle'.trans hle⟩ }

/-- The decision about a key. -/
theorem Simulates.decision (h : Simulates s readings cooldown used now settled d n) (k : Key) :
    Limiter.decisionOn s (d.limiter.table.get? k) (cooldown k) now =
      (n.memory k).admission s.gap (cooldown k) now := by
  by_cases hC : cooldown k ≤ 0
  · rw [h.untracked k hC, Memory.admission, if_pos hC]
    rfl
  · rw [Memory.admission, if_neg hC]
    exact (h.tracked k (not_le.mp hC)).decision (not_le.mp hC)

/-- The ticket with a number. -/
theorem Simulates.ticket (h : Simulates s readings cooldown used now settled d n) (i : Nat) :
    d.tickets[i]? = (n.tickets[i]?).map (ticketOf cooldown i) := by
  rw [h.tickets, List.getElem?_mapIdx]

/-- The tickets once one more reservation is granted. -/
theorem Simulates.tickets_append (h : Simulates s readings cooldown used now settled d n)
    (k : Key) (t : Rat) :
    d.tickets ++ [ticketOf cooldown d.limiter.granted (k, t)] =
      (n.tickets ++ [(k, t)]).mapIdx (ticketOf cooldown) := by
  rw [h.tickets, h.granted, List.mapIdx_concat]

theorem getElem?_append_singleton {α : Type} {xs : List α} {x y : α} {i : Nat}
    (h : (xs ++ [x])[i]? = some y) : xs[i]? = some y ∨ i = xs.length ∧ y = x := by
  rw [List.getElem?_append] at h
  split at h
  · exact .inl h
  · right
    rw [List.getElem?_singleton] at h
    split at h
    · cases h
      exact ⟨by omega, rfl⟩
    · cases h

/-- **A run is granted**: only the entry and the memory of its key change. -/
theorem Simulates.grant (h : Simulates s readings cooldown used now settled d n)
    (hnow : readings now) (hk : k ∈ used) {l : Limiter}
    (hgranted : l.granted = d.limiter.granted + 1) (hwithin : l.table.Within used)
    (hother : ∀ k', k' ≠ k → l.table.get? k' = d.limiter.table.get? k')
    (hself : 0 < cooldown k → (n.memory k).inFlight = none ∧
      Tracks s readings (cooldown k) now (l.table.get? k)
        ((n.memory k).reserve n.tickets.length))
    (hzero : cooldown k ≤ 0 → l.table.get? k = none) :
    Simulates s readings cooldown used now settled
      ⟨l, d.tickets ++ [ticketOf cooldown d.limiter.granted (k, now)]⟩
      { n.remember k ((n.memory k).reserve n.tickets.length) with
          tickets := n.tickets ++ [(k, now)] } := by
  have hmem : ∀ k', k' ≠ k →
      (n.remember k ((n.memory k).reserve n.tickets.length)).memory k' = n.memory k' :=
    fun k' hne => n.remember_of_ne hne _
  refine ⟨?_, h.tickets_append k now, hwithin, ?_, ?_, ?_, ?_⟩
  · simp [hgranted, h.granted]
  · intro k' hk'
    by_cases hne : k' = k
    · subst hne
      simpa using (hself hk').2
    · simp only [hmem k' hne, hother k' hne]
      exact h.tracked k' hk'
  · intro k' hk'
    by_cases hne : k' = k
    · exact hne ▸ hzero (hne ▸ hk')
    · rw [hother k' hne]
      exact h.untracked k' hk'
  · intro i k' t hi
    rcases getElem?_append_singleton hi with hi | ⟨-, heq⟩
    · exact h.known i k' t hi
    · cases heq
      exact ⟨hk, hnow, le_rfl⟩
  · intro i k' t hi hC hopen
    rcases getElem?_append_singleton hi with hi | ⟨hlast, heq⟩
    · have hin := h.inFlight i k' t hi hC hopen
      by_cases hne : k' = k
      · -- the key had a reservation in flight, so none was granted
        subst hne
        rw [(hself hC).1] at hin
        cases hin
      · simpa only [hmem k' hne] using hin
    · cases heq
      simp [Memory.reserve, hlast]

/-- **A reservation is settled**: only the entry and the memory of its key change. -/
theorem Simulates.settle (h : Simulates s readings cooldown used now settled d n)
    {t : Rat} (hi : n.tickets[i]? = some (k, t)) (hopen : i ∉ settled) {l : Limiter}
    (hgranted : l.granted = d.limiter.granted) (hwithin : l.table.Within used)
    (hother : ∀ k', k' ≠ k → l.table.get? k' = d.limiter.table.get? k') (m : Memory)
    (hself : 0 < cooldown k → Tracks s readings (cooldown k) now (l.table.get? k) m)
    (hzero : cooldown k ≤ 0 → l.table.get? k = none) :
    Simulates s readings cooldown used now (i :: settled) ⟨l, d.tickets⟩ (n.remember k m) := by
  refine ⟨hgranted.trans h.granted, h.tickets, hwithin, ?_, ?_, h.known, ?_⟩
  · intro k' hk'
    by_cases hne : k' = k
    · subst hne
      rw [n.remember_self]
      exact hself hk'
    · rw [n.remember_of_ne hne, hother k' hne]
      exact h.tracked k' hk'
  · intro k' hk'
    by_cases hne : k' = k
    · exact hne ▸ hzero (hne ▸ hk')
    · rw [hother k' hne]
      exact h.untracked k' hk'
  · intro j k' t' hj hC hnot
    rw [List.mem_cons, not_or] at hnot
    have hin := h.inFlight j k' t' hj hC hnot.2
    by_cases hne : k' = k
    · -- two reservations of a key are not in flight at once
      subst hne
      have hin' := h.inFlight i k' t hi hC hopen
      rw [hin] at hin'
      cases hin'
      exact absurd rfl hnot.1
    · rw [n.remember_of_ne hne]
      exact hin

/-- No reservation has the number of the ticket that is settled. -/
theorem Simulates.settle_none (h : Simulates s readings cooldown used now settled d n) (i : Nat) :
    Simulates s readings cooldown used now (i :: settled) d n := by
  refine { h with inFlight := ?_ }
  intro j k t hj hC hnot
  exact h.inFlight j k t hj hC fun hmem => hnot (List.mem_cons_of_mem i hmem)

/-- The entry of a key whose reservation is in flight. -/
theorem Simulates.pending (h : Simulates s readings cooldown used now settled d n)
    {t : Rat} (hi : n.tickets[i]? = some (k, t)) (hC : 0 < cooldown k) (hopen : i ∉ settled) :
    ∃ e, d.limiter.table.get? k = some e ∧ e.pending = some i := by
  have hin := (h.tracked k hC).inFlight
  rw [h.inFlight i k t hi hC hopen] at hin
  cases he : d.limiter.table.get? k with
  | none =>
    rw [he] at hin
    cases hin
  | some e =>
    rw [he] at hin
    exact ⟨e, rfl, hin⟩

/-! ### One use -/

theorem Simulates.step_reserve (hcool : ∀ k, 0 ≤ cooldown k) (hnow : readings now)
    (hk : k ∈ used) (hfits : (used.dedup.length : Int) ≤ s.maxEntries)
    (h : Simulates s readings cooldown used now settled d n) :
    let real := d.step s cooldown (.reserve k now)
    let ideal := n.step (Memory.admission s.gap) cooldown (.reserve k now)
    real.2 = ideal.2 ∧ Simulates s readings cooldown used now settled real.1 ideal.1 := by
  have hdecision := h.decision k
  by_cases hC : cooldown k ≤ 0
  · have hzero : cooldown k = 0 := le_antisymm hC (hcool k)
    have hideal : (n.memory k).admission s.gap (cooldown k) now = ⟨true, 0⟩ := if_pos hC
    simp only [Desk.step, Unforgetting.step, Limiter.reserve_of_nonpos hC, hideal, if_true,
      Option.toList_some, true_and]
    have hgrant := h.grant (l := { d.limiter with granted := d.limiter.granted + 1 }) hnow hk rfl
      h.within (fun _ _ => rfl) (fun hpos => absurd hC (not_le.mpr hpos)) (h.untracked k)
    rwa [ticketOf, hzero] at hgrant
  · have hpos := not_le.mp hC
    have hideal : (n.memory k).admission s.gap (cooldown k) now =
        (n.memory k).decision s.gap (cooldown k) now := if_neg hC
    simp only [Desk.step, Unforgetting.step, ← hdecision]
    cases hallowed : (Limiter.decisionOn s (d.limiter.table.get? k) (cooldown k) now).allowed with
    | false =>
      rw [Limiter.reserve_of_denied hpos hallowed]
      simpa using h
    | true =>
      rw [Limiter.reserve_of_allowed hpos hallowed]
      simp only [if_true, Option.toList_some, true_and]
      refine h.grant hnow hk rfl (h.within.touch hk hfits _) ?_ ?_ fun hle => absurd hle hC
      · intro k' hne
        rw [h.within.get?_touch hk hfits, if_neg hne]
      · intro _
        refine ⟨?_, ?_⟩
        · rw [hdecision, hideal] at hallowed
          exact Memory.inFlight_of_allowed hallowed
        · rw [h.within.get?_touch hk hfits, if_pos rfl, Limiter.grantedEntry, h.granted]
          exact (h.tracked k hpos).reserve hnow n.tickets.length

theorem Simulates.step_commit (hopen : i ∉ settled)
    (hfits : (used.dedup.length : Int) ≤ s.maxEntries)
    (h : Simulates s readings cooldown used now settled d n) :
    Simulates s readings cooldown used now (i :: settled)
      (d.step s cooldown (.commit i)).1
      (n.step (Memory.admission s.gap) cooldown (.commit i)).1 := by
  simp only [Desk.step, Unforgetting.step, h.ticket i]
  cases hi : n.tickets[i]? with
  | none =>
    exact h.settle_none i
  | some p =>
    obtain ⟨k, t⟩ := p
    obtain ⟨hk, hread, hle⟩ := h.known i k t hi
    refine h.settle hi hopen Limiter.granted_commitReservation
      (Limiter.within_commitReservation h.within (fun _ => hk) hfits) ?_ _ ?_ ?_
    · intro k' hne
      exact Limiter.get?_commitReservation_of_ne h.within (fun _ => hk) hfits hne
    · intro hC
      obtain ⟨e, he, hpending⟩ := h.pending hi hC hopen
      have hget := Limiter.get?_commitReservation_of_pending (s := s) (l := d.limiter)
        (r := ticketOf cooldown i (k, t)) hC he hpending
      change Table.get? _ k = _ at hget
      rw [hget]
      exact Tracks.commit hread hle (h.inFlight i k t hi hC hopen)
    · intro hC
      rw [Limiter.commitReservation_of_nonpos (r := ticketOf cooldown i (k, t)) hC]
      exact h.untracked k hC

theorem Simulates.step_release (hopen : i ∉ settled)
    (h : Simulates s readings cooldown used now settled d n) :
    Simulates s readings cooldown used now (i :: settled)
      (d.step s cooldown (.release i)).1
      (n.step (Memory.admission s.gap) cooldown (.release i)).1 := by
  simp only [Desk.step, Unforgetting.step, h.ticket i]
  cases hi : n.tickets[i]? with
  | none =>
    exact h.settle_none i
  | some p =>
    obtain ⟨k, t⟩ := p
    refine h.settle hi hopen Limiter.granted_release (Limiter.within_release h.within)
      (fun k' hne => Limiter.get?_release_of_ne hne) _ ?_ ?_
    · intro hC
      obtain ⟨e, he, hpending⟩ := h.pending hi hC hopen
      have htracks := h.tracked k hC
      rw [he] at htracks
      change Tracks s readings (cooldown k) now
        ((d.limiter.release (ticketOf cooldown i (k, t))).table.get? (ticketOf cooldown i (k, t)).key)
        _
      rw [Limiter.get?_release_of_pending (r := ticketOf cooldown i (k, t)) he hpending]
      exact htracks.release (h.inFlight i k t hi hC hopen)
    · intro hC
      rw [Limiter.release_of_get?_eq_none (r := ticketOf cooldown i (k, t)) (h.untracked k hC)]
      exact h.untracked k hC

theorem Simulates.step_prune (hgap : Orderly s.gap readings) (hnow : readings now)
    (hgrace : 1 ≤ s.graceWindows) (h : Simulates s readings cooldown used now settled d n) :
    Simulates s readings cooldown used now settled (d.step s cooldown (.prune now)).1 n where
  granted := h.granted
  tickets := h.tickets
  within := h.within.filter _
  tracked := fun k hC => by
    simp only [Desk.step, Limiter.get?_prune h.within]
    exact (h.tracked k hC).prune hgap hnow hC hgrace
  untracked := fun k hC => by
    simp only [Desk.step, Limiter.get?_prune h.within, h.untracked k hC]
    rfl
  known := h.known
  inFlight := h.inFlight

/-- A use at a time that is not over, of a known key, that settles no reservation again. -/
structure Proper (readings : Rat → Prop) (used : List Key) (now : Rat) (settled : List Nat)
    (u : Use) : Prop where
  time : ∀ t, u.time? = some t → readings t ∧ now ≤ t
  key : ∀ k, u.key? = some k → k ∈ used
  ticket : ∀ i, u.ticket? = some i → i ∉ settled

/-- **One use** has the same answer on both sides, and keeps them together. -/
theorem Simulates.step (hgap : Orderly s.gap readings) (hcool : ∀ k, 0 ≤ cooldown k)
    (hgrace : 1 ≤ s.graceWindows) (hfits : (used.dedup.length : Int) ≤ s.maxEntries)
    (hnow : readings now) (h : Simulates s readings cooldown used now settled d n) {u : Use}
    (hu : Proper readings used now settled u) :
    (d.step s cooldown u).2 = (n.step (Memory.admission s.gap) cooldown u).2 ∧
      Simulates s readings cooldown used (u.time?.getD now) (u.ticket?.toList ++ settled)
        (d.step s cooldown u).1 (n.step (Memory.admission s.gap) cooldown u).1 := by
  cases u with
  | allow k t =>
    obtain ⟨ht, hle⟩ := hu.time t rfl
    have h' := h.mono hgap hnow ht hle
    exact ⟨congrArg some (h'.decision k), h'⟩
  | reserve k t =>
    obtain ⟨ht, hle⟩ := hu.time t rfl
    exact (h.mono hgap hnow ht hle).step_reserve hcool ht (hu.key k rfl) hfits
  | commit i =>
    refine ⟨?_, h.step_commit (hu.ticket i rfl) hfits⟩
    simp only [Desk.step, Unforgetting.step]
    cases d.tickets[i]? <;> cases n.tickets[i]? <;> rfl
  | release i =>
    refine ⟨?_, h.step_release (hu.ticket i rfl)⟩
    simp only [Desk.step, Unforgetting.step]
    cases d.tickets[i]? <;> cases n.tickets[i]? <;> rfl
  | prune t =>
    obtain ⟨ht, hle⟩ := hu.time t rfl
    exact ⟨rfl, (h.mono hgap hnow ht hle).step_prune hgap ht hgrace⟩

/-! ### A sequence of uses -/

theorem isReading_after {u : Use} (hu : Proper readings used now settled u) (hnow : readings now) :
    readings (u.time?.getD now) := by
  cases ht : u.time? with
  | none => exact hnow
  | some t => exact (hu.time t ht).1

/-- The answers from a simulated state on, for uses each of which is proper when its turn comes. -/
theorem Simulates.answers_eq (hgap : Orderly s.gap readings) (hcool : ∀ k, 0 ≤ cooldown k)
    (hgrace : 1 ≤ s.graceWindows) (hfits : (used.dedup.length : Int) ≤ s.maxEntries)
    {uses : List Use} (hnow : readings now)
    (h : Simulates s readings cooldown used now settled d n)
    (htimes : ∀ t ∈ uses.filterMap Use.time?, readings t ∧ now ≤ t)
    (hsorted : (uses.filterMap Use.time?).Pairwise (· ≤ ·))
    (hkeys : ∀ k ∈ uses.filterMap Use.key?, k ∈ used)
    (htickets : (uses.filterMap Use.ticket?).Nodup)
    (hopen : ∀ i ∈ uses.filterMap Use.ticket?, i ∉ settled) :
    answers (Desk.step s cooldown) d uses =
      answers (Unforgetting.step (Memory.admission s.gap) cooldown) n uses := by
  induction uses generalizing now settled d n with
  | nil => rfl
  | cons u us ih =>
    rw [List.filterMap_cons] at htimes hsorted hkeys htickets hopen
    have hu : Proper readings used now settled u := by
      refine ⟨fun t ht => htimes t ?_, fun k hk => hkeys k ?_, fun i hi => hopen i ?_⟩
      · simp [ht]
      · simp [hk]
      · simp [hi]
    obtain ⟨hanswer, h'⟩ := h.step hgap hcool hgrace hfits hnow hu
    have hrest := ih (isReading_after hu hnow) h' ?_ ?_ ?_ ?_ ?_
    · simp only [answers, hanswer, hrest]
    · cases ht : u.time? with
      | none => simpa [ht] using htimes
      | some t =>
        simp only [ht, List.pairwise_cons, List.mem_cons] at hsorted htimes
        exact fun t' ht' => ⟨(htimes t' (.inr ht')).1, hsorted.1 t' ht'⟩
    · cases ht : u.time? with
      | none => simpa [ht] using hsorted
      | some t =>
        simp only [ht, List.pairwise_cons] at hsorted
        exact hsorted.2
    · cases hk : u.key? with
      | none => simpa [hk] using hkeys
      | some k =>
        simp only [hk, List.mem_cons] at hkeys
        exact fun k' hk' => hkeys k' (.inr hk')
    · cases hi : u.ticket? with
      | none => simpa [hi] using htickets
      | some i =>
        simp only [hi, List.nodup_cons] at htickets
        exact htickets.2
    · cases hi : u.ticket? with
      | none => simpa [hi] using hopen
      | some i =>
        simp only [hi, List.mem_cons, List.nodup_cons] at hopen htickets
        intro j hj hmem
        rcases List.mem_cons.mp hmem with rfl | hmem
        · exact htickets.1 hj
        · exact hopen j (.inr hj) hmem

/-- The uses can be made of one limiter in this order: at readings of a clock that does not go
back, and without settling a reservation twice. -/
structure InOrder (uses : List Use) : Prop where
  readings : ∀ t ∈ uses.filterMap Use.time?, IsReading t
  sorted : (uses.filterMap Use.time?).Pairwise (· ≤ ·)
  settledOnce : (uses.filterMap Use.ticket?).Nodup

/-- **The cooldown limiter decides as one that never forgets.**  Pruning, releasing and the limit on
the number of entries never show in a decision, as long as the keys fit the limit. -/
theorem limiter_refines_unforgetting (maxEntries graceWindows : Int) (cooldown : Key → Int)
    (uses : List Use) (hcool : ∀ k, 0 ≤ cooldown k) (hgrace : 1 ≤ graceWindows)
    (hroom : ((uses.filterMap Use.key?).dedup.length : Int) ≤ maxEntries)
    (horder : InOrder uses) :
    answers (Desk.step { maxEntries, graceWindows } cooldown) {} uses =
      answers (Unforgetting.step (Memory.admission elapsed) cooldown) {} uses := by
  -- the run starts at the time of the first use that has one
  have hstart : ∃ now, IsReading now ∧ ∀ t ∈ uses.filterMap Use.time?, now ≤ t := by
    cases htimes : uses.filterMap Use.time? with
    | nil => exact ⟨0, Binary64.snap_zero, by simp⟩
    | cons now later =>
      have hsorted := horder.sorted
      rw [htimes, List.pairwise_cons] at hsorted
      refine ⟨now, horder.readings now (by simp [htimes]), ?_⟩
      intro t ht
      rcases List.mem_cons.mp ht with rfl | ht
      · exact le_rfl
      · exact hsorted.1 t ht
  obtain ⟨now, hnow, hle⟩ := hstart
  have h : Simulates { maxEntries, graceWindows } IsReading cooldown (uses.filterMap Use.key?) now
      [] {} {} := .start now
  have hgap : Orderly ({ maxEntries, graceWindows } : Settings).gap IsReading := elapsed_orderly
  exact h.answers_eq hgap hcool hgrace hroom hnow
    (fun t ht => ⟨horder.readings t ht, hle t ht⟩) horder.sorted (fun _ hk => hk)
    horder.settledOnce (by simp)

/-- Two keys, one with a cooldown and one without: a run in flight, a run too early, an idle key
that is pruned, a release. -/
theorem limiter_refines_unforgetting_day :
    let busy : Key := ⟨text "u1", text "c1"⟩
    let free : Key := ⟨text "u1", text "c2"⟩
    let uses : List Use :=
      [.reserve busy 0, .reserve busy 5, .commit 0, .allow busy 10, .reserve free 10, .prune 5000,
        .reserve busy 5000, .release 2, .allow busy 5000]
    let cooldown : Key → Int := fun k => if k = free then 0 else 1000
    (∀ k, 0 ≤ cooldown k) ∧ InOrder uses ∧
      answers (Desk.step { maxEntries := 2, graceWindows := 3 } cooldown) {} uses =
        answers (Unforgetting.step (Memory.admission elapsed) cooldown) {} uses := by
  intro busy free uses cooldown
  have hcool : ∀ k, 0 ≤ cooldown k := by
    intro k
    simp only [cooldown]
    split <;> decide
  have horder : InOrder uses := by
    refine ⟨?_, ?_, ?_⟩
    · decide +kernel
    · decide +kernel
    · decide +kernel
  exact ⟨hcool, horder, limiter_refines_unforgetting 2 3 cooldown uses hcool (by decide)
    (by decide +kernel) horder⟩

/-- **A run in flight does not hold up a command without a cooldown**, though a limiter that never
forgets would refuse a second one. -/
theorem unforgetting_refuses_free_command :
    let k : Key := ⟨text "u1", text "c1"⟩
    let uses : List Use := [.reserve k 0, .reserve k 0]
    InOrder uses ∧
      answers (Desk.step {} fun _ => 0) {} uses = [some ⟨true, 0⟩, some ⟨true, 0⟩] ∧
      answers (Unforgetting.step (Memory.decision elapsed) fun _ => 0) {} uses =
        [some ⟨true, 0⟩, some ⟨false, 1⟩] := by
  refine ⟨⟨?_, ?_, ?_⟩, ?_, ?_⟩ <;> decide +kernel

end ChatCommands.Cooldown
