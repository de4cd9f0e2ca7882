import ChatCommands.Proofs.Cooldown.Memory
import ChatCommands.Proofs.Cooldown.Operations
import ChatCommands.Proofs.Engine.Confined

/-!
The books of the cooldowns: how the limiter and the history of an engine fit together.

The history tells which reservations were committed; these are the fires.  In the books the entry of
a key stands for the last of its fires, any two fires of a key are a cooldown apart, and at most one
reservation is neither committed nor released.  Each deed about cooldowns keeps the books in order.
-/

namespace ChatCommands.Engine

open Cooldown

/-! ### Histories -/

/-- The time at which the clock was read for a deed. -/
def readAt? : Deed → Option Rat
  | .asked _ _ now _ | .pruned now => some now
  | _ => none

/-- The key of a run with a cooldown that was asked for. -/
def paidKey? : Deed → Option Key
  | .asked m c _ _ => if 0 < c.cooldownMs then some (cooldownKey m c) else none
  | _ => none

/-- The time of a fire of the key. -/
def fire? (k : Key) : Deed → Option Rat
  | .committed r => if r.key = k then some r.issued else none
  | _ => none

/-- The time at which a run of the key was admitted that the pool was asked to run. -/
def run? (k : Key) : Deed → Option Rat
  | .started m c r => if cooldownKey m c = k then r.map (·.issued) else none
  | _ => none

/-- A history, latest deed first, in which the clock does not go back, the keys with a cooldown fit
the limiter, and the command of the key always has the same cooldown. -/
structure Regular (maxEntries : Int) (key : Key) (cooldownMs : Int) (deeds : List Deed) : Prop where
  readings : ∀ t ∈ deeds.filterMap readAt?, IsReading t
  sorted : (deeds.filterMap readAt?).Pairwise (· ≥ ·)
  room : ((deeds.filterMap paidKey?).dedup.length : Int) ≤ maxEntries
  constant : ∀ m c now r, .asked m c now r ∈ deeds → c.id = key.command →
    c.cooldownMs = cooldownMs

theorem Regular.of_sublist {maxEntries cooldownMs : Int} {key : Key} {deeds deeds' : List Deed}
    (h : Regular maxEntries key cooldownMs deeds') (hsub : deeds.Sublist deeds') :
    Regular maxEntries key cooldownMs deeds where
  readings := fun t ht => h.readings t ((hsub.filterMap _).subset ht)
  sorted := h.sorted.sublist (hsub.filterMap _)
  room := by
    refine le_trans ?_ h.room
    have hle := ((List.nodup_dedup (deeds.filterMap paidKey?)).subperm fun k hk =>
      List.mem_dedup.mpr ((hsub.filterMap paidKey?).subset (List.mem_dedup.mp hk))).length_le
    exact_mod_cast hle
  constant := fun m c now r hmem => h.constant m c now r (hsub.subset hmem)

/-! ### Books that balance -/

/-- A reservation that is neither committed nor released, as it is known to the key. -/
def inFlight (flying : Option Reservation) (k : Key) : Option Nat :=
  flying.bind fun r => if r.key = k then some r.id else none

/-- A run was granted and is neither committed nor released. -/
structure Granted (s : Cooldown.Settings) (key : Key) (cooldownMs : Int) (l : Ledger) (r : Reservation) :
    Prop where
  paid : 0 < r.cooldownMs
  known : r.key ∈ l.deeds.filterMap paidKey?
  entry : (l.limiter.table.get? r.key).isSome
  read : r.issued ∈ l.deeds.filterMap readAt?
  cooldown : r.key = key → r.cooldownMs = cooldownMs
  due : r.key = key → ∀ t ∈ l.deeds.filterMap (fire? key),
    t ≤ r.issued ∧ (cooldownMs : Rat) ≤ s.gap r.issued t

/-- The limiter has granted the reservation to the message and its command. -/
def AdmittedFor (deeds : List Deed) (m : Message) (c : Command) (r : Option Reservation) : Prop :=
  ∃ r', r = some r' ∧ .asked m c r'.issued (some r') ∈ deeds

theorem AdmittedFor.cons {deeds : List Deed} {m : Message} {c : Command} {r : Option Reservation}
    (h : AdmittedFor deeds m c r) (d : Deed) : AdmittedFor (d :: deeds) m c r := by
  obtain ⟨r', hr, hmem⟩ := h
  exact ⟨r', hr, List.mem_cons_of_mem d hmem⟩

/-- The books balance: as to every key the reservation that is `flying` is the only one in
flight, and as to one key the entry stands for its last fire and the fires are a cooldown apart. -/
structure Balanced (s : Cooldown.Settings) (key : Key) (cooldownMs : Int) (flying : Option Reservation)
    (l : Ledger) : Prop where
  within : l.limiter.table.Within (l.deeds.filterMap paidKey?)
  pending : ∀ k e, l.limiter.table.get? k = some e → e.pending = inFlight flying k
  granted : ∀ r, flying = some r → Granted s key cooldownMs l r
  tracks : ∀ t, IsReading t → (∀ t' ∈ l.deeds.filterMap readAt?, t' ≤ t) →
    Tracks s IsReading cooldownMs t (l.limiter.table.get? key)
      ⟨(l.deeds.filterMap (fire? key)).head?, inFlight flying key⟩
  apart : (l.deeds.filterMap (fire? key)).Pairwise fun later earlier =>
    earlier ≤ later ∧ (cooldownMs : Rat) ≤ s.gap later earlier
  fires : ∀ t ∈ l.deeds.filterMap (fire? key), t ∈ l.deeds.filterMap readAt?
  runs : (l.deeds.filterMap (run? key)).Sublist (l.deeds.filterMap (fire? key))
  accounted : ∀ m c r, .started m c r ∈ l.deeds → AdmittedFor l.deeds m c r

variable {s : Cooldown.Settings} {key : Key} {cooldownMs : Int} {l : Ledger} {m : Message} {c : Command}
  {now : Rat}

theorem Balanced.start : Balanced s key cooldownMs none ⟨{}, []⟩ where
  within := .nil _
  pending := by simp
  granted := by simp
  tracks := fun _ _ _ => .fresh
  apart := by simp
  fires := by simp
  runs := by simp
  accounted := by simp

variable {flying : Option Reservation} {r : Reservation} {d : Deed} {limiter : Limiter}

theorem Balanced.accounted_cons (h : Balanced s key cooldownMs flying l)
    (hd : ∀ m c r, d = .started m c r → AdmittedFor l.deeds m c r) (m : Message) (c : Command)
    (r : Option Reservation) (hmem : .started m c r ∈ d :: l.deeds) :
    AdmittedFor (d :: l.deeds) m c r := by
  rcases List.mem_cons.mp hmem with heq | hmem
  · exact (hd m c r heq.symm).cons d
  · exact (h.accounted m c r hmem).cons d

/-! ### Reading the clock -/

/-- The clock is read for a deed that is neither a fire nor a run. -/
theorem Balanced.read (h : Balanced s key cooldownMs flying l) (htable : limiter.table =
    l.limiter.table) (hread : readAt? d = some now) (hfire : fire? key d = none)
    (hrun : run? key d = none) : Balanced s key cooldownMs flying ⟨limiter, d :: l.deeds⟩ := by
  have hfires : (d :: l.deeds).filterMap (fire? key) = l.deeds.filterMap (fire? key) :=
    List.filterMap_cons_none hfire
  have hreads : (d :: l.deeds).filterMap readAt? = now :: l.deeds.filterMap readAt? :=
    List.filterMap_cons_some hread
  have hpaid : ∀ k ∈ l.deeds.filterMap paidKey?, k ∈ (d :: l.deeds).filterMap paidKey? :=
    fun k hk => ((List.sublist_cons_self d l.deeds).filterMap paidKey?).subset hk
  refine ⟨?_, ?_, ?_, ?_, ?_, ?_, ?_, h.accounted_cons ?_⟩
  · exact htable ▸ h.within.mono hpaid
  · exact htable ▸ h.pending
  · intro r hr
    have hg := h.granted r hr
    refine ⟨hg.paid, hpaid _ hg.known, htable ▸ hg.entry, ?_, hg.cooldown, ?_⟩
    · rw [hreads]
      exact List.mem_cons_of_mem now hg.read
    · rw [hfires]
      exact hg.due
  · intro t ht hle
    rw [hreads] at hle
    simp only [htable, hfires]
    exact h.tracks t ht fun t' ht' => hle t' (List.mem_cons_of_mem now ht')
  · rw [hfires]
    exact h.apart
  · rw [hfires, hreads]
    exact fun t ht => List.mem_cons_of_mem now (h.fires t ht)
  · rw [hfires, List.filterMap_cons_none hrun]
    exact h.runs
  · rintro m c r rfl
    cases hread

/-! ### Granting a run -/

theorem Balanced.grant (h : Balanced s key cooldownMs none l)
    (hgap : Orderly s.gap IsReading) (hC : 0 < cooldownMs)
    (hreg : Regular s.maxEntries key cooldownMs l.deeds)
    (hnow : now ∈ l.deeds.filterMap readAt?) (hlast : ∀ t ∈ l.deeds.filterMap readAt?, t ≤ now)
    {k : Key} (hk : k ∈ l.deeds.filterMap paidKey?) {paid : Int} (hpaid : 0 < paid)
    (hkey : k = key → paid = cooldownMs)
    (hallowed : (Limiter.decisionOn s (l.limiter.table.get? k) paid now).allowed = true) :
    Balanced s key cooldownMs (some ⟨k, paid, now, l.limiter.granted⟩)
      ⟨⟨l.limiter.table.touch s.maxEntries k (l.limiter.grantedEntry k paid now),
        l.limiter.granted + 1⟩, l.deeds⟩ := by
  have hread := hreg.readings now hnow
  have hget := h.within.get?_touch hk hreg.room (l.limiter.grantedEntry k paid now)
  refine ⟨h.within.touch hk hreg.room _, ?_, ?_, ?_, h.apart, h.fires, h.runs, h.accounted⟩
  · intro k' e he
    rw [hget] at he
    simp only [inFlight, Option.bind_some]
    split at he
    · cases he
      rename_i heq
      rw [if_pos heq.symm]
      rfl
    · rename_i hne
      rw [if_neg fun heq => hne heq.symm]
      exact h.pending k' e he
  · intro r hr
    cases hr
    refine ⟨hpaid, hk, ?_, hnow, hkey, ?_⟩
    · simp [hget]
    · -- the last fire is a cooldown ago, for else the run would not be granted
      rintro rfl t ht
      obtain rfl := hkey rfl
      have htracks := h.tracks now hread hlast
      rw [htracks.decision hC] at hallowed
      cases hfires : l.deeds.filterMap (fire? k) with
      | nil =>
        rw [hfires] at ht
        cases ht
      | cons last earlier =>
        have hmem : last ∈ l.deeds.filterMap (fire? k) := by simp [hfires]
        have hdue : (paid : Rat) ≤ s.gap now last := by
          by_contra hlt
          simp [Memory.decision, hfires, inFlight, not_le.mp hlt] at hallowed
        have hle : t ≤ last := by
          rw [hfires] at ht
          rcases List.mem_cons.mp ht with rfl | ht
          · exact le_rfl
          · have hapart := h.apart
            rw [hfires, List.pairwise_cons] at hapart
            exact (hapart.1 t ht).1
        have hlast' := h.fires last hmem
        exact ⟨hle.trans (hlast last hlast'), hdue.trans (hgap hread hread
          (hreg.readings _ hlast') (hreg.readings _ (h.fires t ht)) le_rfl hle)⟩
  · intro t ht hle
    have htracks := h.tracks t ht hle
    rw [hget]
    by_cases hne : key = k
    · subst hne
      obtain rfl := hkey rfl
      rw [if_pos rfl]
      have hnow' := (h.tracks now hread hlast).reserve hread l.limiter.granted
      have hlater := hnow'.mono hgap hread ht (hle now hnow)
      simpa [inFlight, Memory.reserve, Limiter.grantedEntry] using hlater
    · rw [if_neg hne]
      have hnone : inFlight (some ⟨k, paid, now, l.limiter.granted⟩) key = none := by
        simp [inFlight, Ne.symm hne]
      rw [hnone]
      exact htracks

/-! ### Settling a reservation -/

/-- The entry of the key of a reservation in flight. -/
theorem Balanced.entry (h : Balanced s key cooldownMs (some r) l) :
    ∃ e, l.limiter.table.get? r.key = some e ∧ e.pending = some r.id := by
  obtain ⟨e, he⟩ := Option.isSome_iff_exists.mp (h.granted r rfl).entry
  refine ⟨e, he, ?_⟩
  rw [h.pending r.key e he]
  simp [inFlight]

/-- The reservation that was just committed is a fire without a run. -/
def Owed (key : Key) (l : Ledger) (r : Reservation) : Prop :=
  r.key = key → ∃ earlier, l.deeds.filterMap (fire? key) = r.issued :: earlier ∧
    (l.deeds.filterMap (run? key)).Sublist earlier

theorem Balanced.commit (h : Balanced s key cooldownMs (some r) l)
    (hreg : Regular s.maxEntries key cooldownMs l.deeds) :
    Balanced s key cooldownMs none
        ⟨l.limiter.commitReservation s r, .committed r :: l.deeds⟩ ∧
      Owed key ⟨l.limiter.commitReservation s r, .committed r :: l.deeds⟩ r := by
  have hg := h.granted r rfl
  obtain ⟨e, he, hpending⟩ := h.entry
  have hself := Limiter.get?_commitReservation_of_pending (s := s) hg.paid he hpending
  have hother : ∀ k, k ≠ r.key →
      (l.limiter.commitReservation s r).table.get? k = l.limiter.table.get? k := fun k hne =>
    Limiter.get?_commitReservation_of_ne h.within (fun _ => hg.known) hreg.room hne
  have hpaid : (Deed.committed r :: l.deeds).filterMap paidKey? = l.deeds.filterMap paidKey? :=
    List.filterMap_cons_none rfl
  have hreads : (Deed.committed r :: l.deeds).filterMap readAt? = l.deeds.filterMap readAt? :=
    List.filterMap_cons_none rfl
  have hruns : (Deed.committed r :: l.deeds).filterMap (run? key) = l.deeds.filterMap (run? key) :=
    List.filterMap_cons_none rfl
  have hfires : (Deed.committed r :: l.deeds).filterMap (fire? key) =
      if r.key = key then r.issued :: l.deeds.filterMap (fire? key)
      else l.deeds.filterMap (fire? key) := by
    rw [List.filterMap_cons]
    by_cases hkey : r.key = key <;> simp [fire?, hkey]
  refine ⟨⟨?_, ?_, by simp, ?_, ?_, ?_, ?_, h.accounted_cons nofun⟩, ?_⟩
  · rw [hpaid]
    exact Limiter.within_commitReservation h.within (fun _ => hg.known) hreg.room
  · intro k e' he'
    by_cases hne : k = r.key
    · subst hne
      rw [hself] at he'
      cases he'
      rfl
    · rw [hother k hne] at he'
      rw [h.pending k e' he']
      simp [inFlight, Ne.symm hne]
  · intro t ht hle
    rw [hreads] at hle
    have htracks := h.tracks t ht hle
    simp only [hfires]
    by_cases hkey : r.key = key
    · subst hkey
      have hin : inFlight (some r) r.key = some r.id := by simp [inFlight]
      have hcommit : Tracks s IsReading cooldownMs t (some ⟨some r.issued, cooldownMs, none, r.issued⟩)
          (Memory.commit ⟨(l.deeds.filterMap (fire? r.key)).head?, inFlight (some r) r.key⟩ r.id
            r.issued) :=
        Tracks.commit (hreg.readings _ hg.read) (hle _ hg.read) hin
      rw [Memory.commit_of_inFlight hin] at hcommit
      rw [if_pos rfl, hself, Limiter.firedEntry, hg.cooldown rfl]
      exact hcommit
    · have hin : inFlight (some r) key = none := by simp [inFlight, hkey]
      rw [hin] at htracks
      rw [if_neg hkey, hother key (Ne.symm hkey)]
      exact htracks
  · rw [hfires]
    split
    · rename_i hkey
      exact List.pairwise_cons.mpr ⟨hg.due hkey, h.apart⟩
    · exact h.apart
  · rw [hfires, hreads]
    split
    · intro t ht
      rcases List.mem_cons.mp ht with rfl | ht
      · exact hg.read
      · exact h.fires t ht
    · exact h.fires
  · rw [hfires, hruns]
    split
    · exact h.runs.trans (List.sublist_cons_self _ _)
    · exact h.runs
  · intro hkey
    refine ⟨l.deeds.filterMap (fire? key), ?_, hruns ▸ h.runs⟩
    change (Deed.committed r :: l.deeds).filterMap (fire? key) = _
    rw [hfires, if_pos hkey]

/-- Deeds that are no fires and at which the clock is not read only matter if they are runs. -/
theorem Balanced.note (h : Balanced s key cooldownMs none l) (hread : readAt? d = none)
    (hpaid : paidKey? d = none) (hfire : fire? key d = none)
    (hruns : ((d :: l.deeds).filterMap (run? key)).Sublist (l.deeds.filterMap (fire? key)))
    (hd : ∀ m c r, d = .started m c r → AdmittedFor l.deeds m c r) :
    Balanced s key cooldownMs none ⟨l.limiter, d :: l.deeds⟩ := by
  have hreads : (d :: l.deeds).filterMap readAt? = l.deeds.filterMap readAt? :=
    List.filterMap_cons_none hread
  have hpaids : (d :: l.deeds).filterMap paidKey? = l.deeds.filterMap paidKey? :=
    List.filterMap_cons_none hpaid
  have hfires : (d :: l.deeds).filterMap (fire? key) = l.deeds.filterMap (fire? key) :=
    List.filterMap_cons_none hfire
  refine ⟨?_, h.pending, by simp, ?_, ?_, ?_, ?_, h.accounted_cons hd⟩
  · rw [hpaids]
    exact h.within
  · rw [hreads, hfires]
    exact h.tracks
  · rw [hfires]
    exact h.apart
  · rw [hfires, hreads]
    exact h.fires
  · rw [hfires]
    exact hruns

/-- The pool is asked for the run that is owed. -/
theorem Balanced.run (h : Balanced s key cooldownMs none l) (hkey : cooldownKey m c = r.key)
    (howed : Owed key l r) (hadmitted : AdmittedFor l.deeds m c (some r)) :
    Balanced s key cooldownMs none ⟨l.limiter, .started m c (some r) :: l.deeds⟩ := by
  refine h.note rfl rfl rfl ?_ (by rintro _ _ _ ⟨⟩; exact hadmitted)
  by_cases heq : r.key = key
  · obtain ⟨earlier, hfires, hruns⟩ := howed heq
    rw [hfires, List.filterMap_cons_some (b := r.issued) (by simp [run?, hkey, heq])]
    exact hruns.cons_cons _
  · rw [List.filterMap_cons_none (by simp [run?, hkey, heq])]
    exact h.runs

/-- A reservation that is not in flight is given back: nothing happens. -/
theorem Balanced.release_none (h : Balanced s key cooldownMs none l) (r : Reservation) :
    Balanced s key cooldownMs none ⟨l.limiter.release r, .released r :: l.deeds⟩ := by
  have hsame : l.limiter.release r = l.limiter := by
    cases he : l.limiter.table.get? r.key with
    | none => exact Limiter.release_of_get?_eq_none he
    | some e =>
      refine Limiter.release_of_not_pending he ?_
      rw [h.pending r.key e he]
      simp [inFlight]
  rw [hsame]
  exact h.note rfl rfl rfl h.runs nofun

/-- The reservation in flight is given back. -/
theorem Balanced.release (h : Balanced s key cooldownMs (some r) l) :
    Balanced s key cooldownMs none ⟨l.limiter.release r, .released r :: l.deeds⟩ := by
  obtain ⟨e, he, hpending⟩ := h.entry
  have hself := Limiter.get?_release_of_pending he hpending
  have hother : ∀ k, k ≠ r.key → (l.limiter.release r).table.get? k = l.limiter.table.get? k :=
    fun k hne => Limiter.get?_release_of_ne hne
  suffices hbooks : Balanced s key cooldownMs none ⟨l.limiter.release r, l.deeds⟩ from
    hbooks.note rfl rfl rfl h.runs nofun
  refine ⟨Limiter.within_release h.within, ?_, by simp, ?_, h.apart, h.fires, h.runs, h.accounted⟩
  · intro k e' he'
    by_cases hne : k = r.key
    · subst hne
      rw [hself] at he'
      split at he'
      · cases he'
        rfl
      · cases he'
    · rw [hother k hne] at he'
      rw [h.pending k e' he']
      simp [inFlight, Ne.symm hne]
  · intro t ht hle
    have htracks := h.tracks t ht hle
    by_cases hkey : r.key = key
    · subst hkey
      have hin : inFlight (some r) r.key = some r.id := by simp [inFlight]
      rw [he] at htracks
      have hrelease := htracks.release hin
      rw [Memory.release_of_inFlight hin] at hrelease
      rw [hself]
      exact hrelease
    · have hin : inFlight (some r) key = none := by simp [inFlight, hkey]
      rw [hin] at htracks
      rw [hother key (Ne.symm hkey)]
      exact htracks

/-! ### Pruning -/

theorem Balanced.prune (h : Balanced s key cooldownMs none l) (hgap : Orderly s.gap IsReading)
    (hC : 0 < cooldownMs) (hgrace : 1 ≤ s.graceWindows)
    (hreg : Regular s.maxEntries key cooldownMs l.deeds)
    (hnow : now ∈ l.deeds.filterMap readAt?) (hlast : ∀ t ∈ l.deeds.filterMap readAt?, t ≤ now) :
    Balanced s key cooldownMs none ⟨l.limiter.prune s now, l.deeds⟩ := by
  have hget : ∀ k, (l.limiter.prune s now).table.get? k = _ := Limiter.get?_prune h.within
  refine ⟨h.within.filter _, ?_, by simp, ?_, h.apart, h.fires, h.runs, h.accounted⟩
  · intro k e he
    rw [hget, Option.filter_eq_some_iff] at he
    exact h.pending k e he.1
  · intro t ht hle
    have hread := hreg.readings now hnow
    rw [hget]
    exact ((h.tracks now hread hlast).prune hgap hread hC hgrace).mono hgap hread ht (hle now hnow)

end ChatCommands.Engine
