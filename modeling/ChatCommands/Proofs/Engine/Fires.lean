import ChatCommands.Proofs.Engine.Chronicle

/-!
The limiter along a chronicle.

After each block the limiter is calm, and it knows a key only for a fire that the chronicle tells of.
So a run is refused only for a fire, and a message that comes to no run leaves the limiter as if it
had never asked.
-/

namespace ChatCommands.Engine

open Cooldown

variable {ω : Type} {e : Setup ω} {genuine : RunResult → Prop} {ds : List Deed} {n : Nat}
  {m : Message} {c : Command} {r : Reservation} {l : Language} {now : Rat}

theorem answerTo_eq {answer : Option Reservation} (h : (answerTo e ds m c now).2.2 = answer) :
    (limiterAfter e.cooldowns ds).reserve e.cooldowns (cooldownKey m c) c.cooldownMs now =
      ((answerTo e ds m c now).1, (answerTo e ds m c now).2.1, answer) := by
  rw [← h]
  rfl

/-- The limiter after a run was asked for. -/
theorem limiterAfter_asked (answer : Option Reservation) (commands : List Command)
    (sigil : Option Text) :
    limiterAfter e.cooldowns
        (.asked m c now answer :: .matched m c :: .listed n m.tenant commands sigil :: ds) =
      (answerTo e ds m c now).1 := rfl

/-- A run that was launched is one of the key of its message and command. -/
theorem Launched.key (h : Launched e n m c r l ds) : r.key = cooldownKey m c := by
  cases h with
  | intro _ hr _ => exact (Limiter.reserve_granted (answerTo_eq hr)).1

/-- **In a chronicle no reservation is left in flight**, and keys are known for their fires. -/
theorem Chronicle.calm (h : Chronicle e genuine ds) : (limiterAfter e.cooldowns ds).Calm := by
  induction h with
  | nil => exact Limiter.calm_new
  | @more ds block h hb ih =>
    cases hb with
    | received | unmatched | entered | landed => exact ih
    | denied _ hr =>
      have hsame := (ih.denied (answerTo_eq hr)).1
      exact ih.of_table_eq (congrArg Limiter.table hsame)
    | refused _ hr _ => exact (ih.reserve_release (answerTo_eq hr)).1
    | launched _ hr _ => exact (ih.reserve_commit (answerTo_eq hr)).1
    | @returned _ _ _ r _ _ =>
      change ((limiterAfter e.cooldowns ds).release r).Calm
      rw [ih.release_eq]
      exact ih
    | pruned now => exact ih.prune _ now

/-- **A key is known for a fire.** -/
theorem Chronicle.fired (h : Chronicle e genuine ds) : ∀ {k : Key} {entry : Entry},
    (limiterAfter e.cooldowns ds).table.get? k = some entry →
      ∃ r, .committed r ∈ ds ∧ r.key = k ∧ entry.lastFire = some r.issued := by
  induction h with
  | nil => exact fun hentry => by cases hentry
  | @more ds block h hb ih =>
    intro k entry hentry
    have hearlier : ∀ {entry'}, (limiterAfter e.cooldowns ds).table.get? k = some entry' →
        entry'.lastFire = entry.lastFire →
        ∃ r, .committed r ∈ block ++ ds ∧ r.key = k ∧ entry.lastFire = some r.issued := by
      intro entry' hentry' hsame
      obtain ⟨r, hmem, hkey, hfire⟩ := ih hentry'
      exact ⟨r, List.mem_append_right block hmem, hkey, hsame ▸ hfire⟩
    cases hb with
    | received | unmatched | entered | landed => exact hearlier hentry rfl
    | denied _ hr =>
      have hsame := (h.calm.denied (answerTo_eq hr)).1
      refine hearlier ?_ rfl
      rw [← hsame]
      exact hentry
    | refused _ hr _ =>
      obtain ⟨entry', hentry', hsame⟩ :=
        (h.calm.reserve_release (answerTo_eq hr)).2.lastFire k entry hentry
      exact hearlier hentry' hsame
    | @launched _ _ _ _ _ _ r _ _ hr _ =>
      have hkey := (Limiter.reserve_granted (answerTo_eq hr)).1
      rcases (h.calm.reserve_commit (answerTo_eq hr)).2 k entry hentry with ⟨rfl, hfire⟩ | hbefore
      · exact ⟨r, by simp, hkey, hfire⟩
      · exact hearlier hbefore rfl
    | @returned _ _ _ r _ _ =>
      refine hearlier ?_ rfl
      rw [← h.calm.release_eq r]
      exact hentry
    | pruned now =>
      have hget := Table.get?_filter h.calm.nodup
        (fun entry => !Limiter.isStale e.cooldowns now entry) k
      exact hearlier (Option.filter_eq_some_iff.mp (hget.symm.trans hentry)).1 rfl

/-! ### Grants -/

/-- The limiter has granted a run. -/
def isGrant : Deed → Bool
  | .asked _ _ _ (some _) => true
  | _ => false

/-- The limiter counts its grants. -/
theorem Chronicle.granted (h : Chronicle e genuine ds) :
    (limiterAfter e.cooldowns ds).granted = ds.countP isGrant := by
  induction h with
  | nil => rfl
  | @more ds block h hb ih =>
    cases hb with
    | received | unmatched | entered | landed => exact ih
    | denied _ hr =>
      have hsame := (h.calm.denied (answerTo_eq hr)).1
      exact (congrArg Limiter.granted hsame).trans ih
    | refused _ hr _ =>
      have hnext := (Limiter.reserve_granted (answerTo_eq hr)).2.2.2.1
      refine Limiter.granted_release.trans (hnext.trans ?_)
      simp [ih, List.countP_cons, isGrant]
    | launched _ hr _ =>
      have hnext := (Limiter.reserve_granted (answerTo_eq hr)).2.2.2.1
      refine Limiter.granted_commitReservation.trans (hnext.trans ?_)
      simp [ih, List.countP_cons, isGrant]
    | returned => exact Limiter.granted_release.trans ih
    | pruned now => exact ih

/-- A grant is numbered by the grants before it. -/
theorem Chronicle.grant_id {later earlier : List Deed}
    (h : Chronicle e genuine (later ++ .asked m c now (some r) :: earlier)) :
    r.id = earlier.countP isGrant := by
  obtain ⟨before, after, now₁, now₂, hbefore, hblock, rfl, -⟩ := h.block rfl
  have hid : (answerTo e before m c now).2.2 = some r → r.id = before.countP isGrant := fun hr =>
    (Limiter.reserve_granted (answerTo_eq hr)).2.2.1.trans hbefore.granted
  generalize hown : now₁ ++ .asked m c now (some r) :: now₂ = block at hblock
  cases hblock with
  | received | unmatched | entered | returned | landed | pruned | denied =>
    simp [List.append_eq_cons_iff, List.cons_eq_append_iff] at hown
  | refused _ hr _ | launched _ hr _ =>
    obtain ⟨-, ⟨rfl, rfl, rfl, rfl⟩, rfl⟩ : _ ∧ (_ ∧ _ ∧ _ ∧ _) ∧ _ := by
      simpa [List.append_eq_cons_iff, List.cons_eq_append_iff] using hown
    exact hid hr

/-- **A reservation is granted once.** -/
theorem Chronicle.granted_once {later later' earlier earlier' : List Deed} {m' : Message}
    {c' : Command} {now' : Rat}
    (h : Chronicle e genuine (later ++ .asked m c now (some r) :: earlier))
    (heq : later ++ .asked m c now (some r) :: earlier =
      later' ++ .asked m' c' now' (some r) :: earlier') :
    later = later' ∧ m = m' ∧ c = c' ∧ earlier = earlier' := by
  have hid := h.grant_id.symm.trans (heq ▸ h).grant_id
  -- between two grants the count of grants has gone up
  rcases places_compare heq with ⟨rfl, hd, rfl⟩ | ⟨between, rfl⟩ | ⟨between, rfl⟩
  · cases hd
    exact ⟨rfl, rfl, rfl, rfl⟩
  · rw [List.countP_append, List.countP_cons_of_pos rfl] at hid
    omega
  · rw [List.countP_append, List.countP_cons_of_pos rfl] at hid
    omega

/-- The refusal of a run at a time is due to a fire of its key, and so is how long the author has to
wait. -/
structure DueTo (before : List Deed) (m : Message) (c : Command) (now : Rat) (retryAfterMs : Int)
    (r : Reservation) : Prop where
  committed : .committed r ∈ before
  key : r.key = cooldownKey m c
  recent : elapsed now r.issued < c.cooldownMs
  retry : retryAfterMs = Limiter.truncate (elapsed c.cooldownMs (elapsed now r.issued))

/-- **A run is refused only for a fire** that the chronicle tells of. -/
theorem Chronicle.refused_for (h : Chronicle e genuine ds)
    (hr : (answerTo e ds m c now).2.2 = none) :
    ∃ r, DueTo ds m c now (answerTo e ds m c now).2.1.retryAfterMs r := by
  obtain ⟨-, entry, last, hentry, hlast, hgap, hretry⟩ := h.calm.denied (answerTo_eq hr)
  obtain ⟨r, hmem, hkey, hfire⟩ := h.fired hentry
  cases hlast.symm.trans hfire
  exact ⟨r, hmem, hkey, hgap, hretry⟩

end ChatCommands.Engine
