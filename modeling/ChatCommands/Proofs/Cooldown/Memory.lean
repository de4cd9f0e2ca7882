import ChatCommands.Proofs.Cooldown.Clock

/-!
What a limiter that never forgets would remember of one key, and how the entry of the key stands for
it.

The entry may have been removed, after which it counts as an entry without anything in it.  So an
entry stands for a memory if it has the same reservation in flight and the same last fire, or no
last fire where the remembered one is over.  Every operation on the key keeps it so.
-/

namespace ChatCommands.Cooldown

/-- All that counts of the past of a key: the time of the last reservation that was committed, and
the reservation in flight. -/
structure Memory where
  lastFire : Option Rat := none
  inFlight : Option Nat := none
  deriving DecidableEq

namespace Memory

/-- The decision of a limiter that never forgets. -/
def decision (gap : Rat → Rat → Rat) (m : Memory) (cooldownMs : Int) (now : Rat) : Decision :=
  if m.inFlight.isSome then ⟨false, max cooldownMs 1⟩
  else
    match m.lastFire with
    | none => ⟨true, 0⟩
    | some last =>
      if gap now last < cooldownMs then
        ⟨false, Limiter.truncate (gap cooldownMs (gap now last))⟩
      else ⟨true, 0⟩

/-- A reservation is granted. -/
def reserve (m : Memory) (id : Nat) : Memory := { m with inFlight := some id }

/-- A reservation is settled: it is no longer in flight. -/
def release (m : Memory) (id : Nat) : Memory :=
  if m.inFlight = some id then { m with inFlight := none } else m

/-- A reservation that was issued at a time is committed. -/
def commit (m : Memory) (id : Nat) (issued : Rat) : Memory :=
  { m.release id with lastFire := some issued }

theorem release_of_inFlight {m : Memory} {id : Nat} (h : m.inFlight = some id) :
    m.release id = { m with inFlight := none } :=
  if_pos h

theorem commit_of_inFlight {m : Memory} {id : Nat} (h : m.inFlight = some id) (issued : Rat) :
    m.commit id issued = ⟨some issued, none⟩ := by
  rw [commit, release_of_inFlight h]

/-- A run is granted only while none is in flight. -/
theorem inFlight_of_allowed {gap : Rat → Rat → Rat} {m : Memory} {cooldownMs : Int} {now : Rat}
    (h : (m.decision gap cooldownMs now).allowed = true) : m.inFlight = none := by
  by_contra hsome
  have : m.inFlight.isSome := Option.isSome_iff_ne_none.mpr hsome
  simp [decision, this] at h

end Memory

/-! ### Entries that stand for a memory -/

variable (s : Settings) (readings : Rat → Prop)

/-- The fires that a memory may have and an entry lacks are over: the cooldown since then has gone
by. -/
def Over (cooldownMs : Int) (now : Rat) : Option Rat → Prop
  | none => True
  | some last => readings last ∧ last ≤ now ∧ (cooldownMs : Rat) ≤ s.gap now last

/-- An entry has the cooldown of its key, and its times are in order. -/
structure WellKept (cooldownMs : Int) (now : Rat) (e : Entry) : Prop where
  cooldownMs : e.cooldownMs = cooldownMs
  reading : readings e.touched
  touched_le : e.touched ≤ now
  fire : ∀ t, e.lastFire = some t → readings t ∧ t ≤ e.touched

/-- The entry of a key, if there is one, stands for a memory. -/
structure Tracks (cooldownMs : Int) (now : Rat) (entry : Option Entry) (m : Memory) : Prop where
  inFlight : (entry.getD {}).pending = m.inFlight
  lastFire : (entry.getD {}).lastFire = m.lastFire ∨
    (entry.getD {}).lastFire = none ∧ Over s readings cooldownMs now m.lastFire
  kept : ∀ e, entry = some e → WellKept readings cooldownMs now e

variable {s readings} {cooldownMs : Int} {now later : Rat} {entry : Option Entry} {e : Entry}
  {m : Memory}

theorem Tracks.fresh : Tracks s readings cooldownMs now none {} :=
  ⟨rfl, .inl rfl, by simp⟩

theorem Over.mono (hgap : Orderly s.gap readings) (hnow : readings now) (hlater : readings later)
    (hle : now ≤ later) {last : Option Rat} (h : Over s readings cooldownMs now last) :
    Over s readings cooldownMs later last := by
  cases last with
  | none => trivial
  | some last =>
    obtain ⟨hread, hlast, hgone⟩ := h
    exact ⟨hread, hlast.trans hle,
      hgone.trans (hgap hnow hlater hread hread hle le_rfl)⟩

theorem WellKept.mono (hle : now ≤ later) (h : WellKept readings cooldownMs now e) :
    WellKept readings cooldownMs later e :=
  { h with touched_le := h.touched_le.trans hle }

/-- Time passes. -/
theorem Tracks.mono (hgap : Orderly s.gap readings) (hnow : readings now)
    (hlater : readings later) (hle : now ≤ later) (h : Tracks s readings cooldownMs now entry m) :
    Tracks s readings cooldownMs later entry m where
  inFlight := h.inFlight
  lastFire := h.lastFire.imp_right fun ⟨hnone, hover⟩ =>
    ⟨hnone, hover.mono hgap hnow hlater hle⟩
  kept := fun e he => (h.kept e he).mono hle

/-- **The limiter decides as one that never forgets.** -/
theorem Tracks.decision (hC : 0 < cooldownMs) (h : Tracks s readings cooldownMs now entry m) :
    Limiter.decisionOn s entry cooldownMs now = m.decision s.gap cooldownMs now := by
  have hover : ∀ last, Over s readings cooldownMs now last →
      (Memory.mk last none).decision s.gap cooldownMs now = ⟨true, 0⟩ := by
    intro last hlast
    cases last with
    | none => rfl
    | some last =>
      obtain ⟨-, -, hgone⟩ := hlast
      simp [Memory.decision, not_lt.mpr hgone]
  obtain ⟨lastFire, inFlight⟩ := m
  cases entry with
  | none =>
    obtain rfl : none = inFlight := h.inFlight
    rcases h.lastFire with hfire | ⟨-, hlast⟩
    · obtain rfl : none = lastFire := hfire
      rfl
    · exact (hover _ hlast).symm
  | some e =>
    obtain rfl : e.pending = inFlight := h.inFlight
    simp only [Limiter.decisionOn, not_le.mpr hC, if_false]
    by_cases hpending : e.pending.isSome
    · simp [Memory.decision, hpending]
    · rw [if_neg hpending]
      have hnone : e.pending = none := by simpa using hpending
      rcases h.lastFire with hfire | ⟨hfire, hlast⟩
      · obtain rfl : e.lastFire = lastFire := hfire
        rw [hnone]
        cases e.lastFire <;> rfl
      · have hfire : e.lastFire = none := hfire
        rw [hnone, hfire, hover _ hlast]

/-- A run is reserved. -/
theorem Tracks.reserve (hnow : readings now) (h : Tracks s readings cooldownMs now entry m)
    (id : Nat) :
    Tracks s readings cooldownMs now
      (some { entry.getD {} with pending := some id, cooldownMs, touched := now })
      (m.reserve id) where
  inFlight := rfl
  lastFire := h.lastFire
  kept := by
    intro e he
    cases he
    refine ⟨rfl, hnow, le_rfl, fun t ht => ?_⟩
    cases entry with
    | none => cases ht
    | some e =>
      have hkept := h.kept e rfl
      exact ⟨(hkept.fire t ht).1, (hkept.fire t ht).2.trans hkept.touched_le⟩

/-- The reservation in flight is committed. -/
theorem Tracks.commit {issued : Rat} (hread : readings issued) (hle : issued ≤ now) {id : Nat}
    (hin : m.inFlight = some id) :
    Tracks s readings cooldownMs now (some ⟨some issued, cooldownMs, none, issued⟩)
      (m.commit id issued) := by
  rw [Memory.commit_of_inFlight hin]
  refine ⟨rfl, .inl rfl, fun e he => ?_⟩
  cases he
  refine ⟨rfl, hread, hle, fun t ht => ?_⟩
  cases ht
  exact ⟨hread, le_rfl⟩

/-- The reservation in flight is released, and the key is forgotten if it has not fired. -/
theorem Tracks.release (h : Tracks s readings cooldownMs now (some e) m) {id : Nat}
    (hin : m.inFlight = some id) :
    Tracks s readings cooldownMs now
      (if e.lastFire.isSome then some { e with pending := none } else none) (m.release id) := by
  rw [Memory.release_of_inFlight hin]
  have hfire := h.lastFire
  have hkept := h.kept e rfl
  split
  · refine ⟨rfl, hfire, fun e' he' => ?_⟩
    cases he'
    exact ⟨hkept.cooldownMs, hkept.reading, hkept.touched_le, hkept.fire⟩
  · rename_i hnone
    have hnone : e.lastFire = none := by simpa using hnone
    refine ⟨rfl, ?_, by simp⟩
    rcases hfire with hfire | ⟨-, hover⟩
    · exact .inl (hnone.symm.trans hfire)
    · exact .inr ⟨rfl, hover⟩

/-- **Pruning forgets only fires that are over.** -/
theorem Tracks.prune (hgap : Orderly s.gap readings) (hnow : readings now)
    (hC : 0 < cooldownMs) (hgrace : 1 ≤ s.graceWindows)
    (h : Tracks s readings cooldownMs now entry m) :
    Tracks s readings cooldownMs now (entry.filter fun e => !Limiter.isStale s now e) m := by
  cases entry with
  | none => exact h
  | some e =>
    rw [Option.filter_some]
    split
    case isTrue => exact h
    case isFalse hstale =>
      simp only [Limiter.isStale, Entry.isIdle, Bool.not_eq_true', Bool.and_eq_false_iff,
        decide_eq_false_iff_not, not_or, not_not] at hstale
      obtain ⟨hidle, hgone⟩ := hstale
      have hkept := h.kept e rfl
      have hpending : e.pending = none := by simpa using hidle
      refine ⟨hpending.symm.trans h.inFlight, .inr ⟨rfl, ?_⟩, by simp⟩
      have hgone' : (cooldownMs : Rat) ≤ s.gap now e.touched := by
        rw [hkept.cooldownMs] at hgone
        refine le_trans ?_ hgone
        exact_mod_cast le_mul_of_one_le_right hC.le hgrace
      rcases h.lastFire with hfire | ⟨-, hover⟩
      · rw [← hfire]
        change Over s readings cooldownMs now e.lastFire
        cases hlast : e.lastFire with
        | none => trivial
        | some t =>
          obtain ⟨hread, hle⟩ := hkept.fire t hlast
          exact ⟨hread, hle.trans hkept.touched_le,
            hgone'.trans (hgap hnow hnow hkept.reading hread le_rfl hle)⟩
      · exact hover

end ChatCommands.Cooldown
