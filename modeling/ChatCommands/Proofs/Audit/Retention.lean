import ChatCommands.Proofs.Audit.Recording
import ChatCommands.Proofs.Concurrency.Sessions

/-!
How many entries of a tenant are left.

One record after the other goes to a store in memory, and now and then it fails.  After `k` records of
a tenant that were accepted, the store holds what the last trim has left and the entries since then.
Main statement: `retention_law`.
-/

namespace ChatCommands.Audit

open Concurrency Act Delivery Scheduler

variable {ω ρ : Type}

/-! ### A store behind a connection -/

/-- A connection to a store, with a state of its own: how long it takes to append an entry, and whether
this fails in the end. -/
structure Connection (ρ : Type) where
  delay : AuditEntry → ρ → Option Rat × ρ
  fault? : AuditEntry → ρ → Option Fault × ρ

/-- An append; one that fails stores nothing. -/
def Connection.append (c : Connection ρ) (e : AuditEntry) : OutsideCall (Store × ρ) Unit where
  start w := ((c.delay e w.2).1, (w.1, (c.delay e w.2).2))
  finish w :=
    match (c.fault? e w.2).1 with
    | some f => (.error f, (w.1, (c.fault? e w.2).2))
    | none => (.ok (), (w.1.append e, (c.fault? e w.2).2))

/-- A trim, which takes no time. -/
def trimStore (tenant : Text) (keep : Int) : OutsideCall (Store × ρ) Nat where
  start w := (some 0, w)
  finish w := ((w.1.trim? tenant keep).1, ((w.1.trim? tenant keep).2, w.2))

/-- The store as a sink. -/
def Connection.sink (c : Connection ρ) : Sink (Store × ρ) :=
  ⟨fun e => (c.append e).make, fun tenant keep => (trimStore tenant keep).make⟩

/-! ### Calls that succeed at once -/

variable {α : Type} {start : World ω} {post : Ending Product → World ω → Prop}
  {due : World ω → Prop} {after : α → World ω → Prop} {c : OutsideCall ω α}

/-- A call that succeeds at once needs one attempt. -/
theorem paces_prompt (h : ∀ w, due w → (c.start w.env).1 = some 0 ∧
      ∃ a, (c.finish (c.start w.env).2).1 = .ok a ∧
        after a { w with env := (c.finish (c.start w.env).2).2 }) (limit : Rat) (count : Int) :
    Paces (Pact.solo False start post) 0 0 (fun j => j.hand.Unarmed ∧ due j.shared)
      (withRetries (some limit) count c.make) fun r j =>
        j.hand.Unarmed ∧ Attempted (fun _ => False) after r j.shared := by
  have hothers : ∀ w w' : World ω, Unminded (Pact.solo False start post) 0 w w' :=
    fun _ _ _ ho h => absurd h ho
  have hwithin : Paces (Pact.solo False start post) 0 0 (fun j => j.hand.Unarmed ∧ due j.shared)
      (Act.within (some limit) c.make) fun r j =>
        j.hand.Unarmed ∧ Attempted (fun _ => False) after r j.shared := by
    refine Paces.within (fun j hj => hj.1) (fun j _ hal => hal.elim) fun a => paces_of_forall ?_
    rintro _ ⟨j, ⟨hhand, hdue⟩, rfl⟩
    obtain ⟨hnow, x, hok, hafter⟩ := h j.shared hdue
    unfold OutsideCall.make
    refine (onEnv_at (hothers _ _)).follow ?_
    dsimp only
    rw [hnow, if_neg (fun hne => hne rfl)]
    refine (onEnv_at (hothers _ _)).follow (paces_ofExcept ?_)
    rintro _ rfl
    dsimp only
    rw [hok]
    exact ⟨rfl, trivial, hafter⟩
  unfold withRetries
  cases (count - 1).toNat with
  | zero => exact hwithin
  | succ more =>
    refine hwithin.recover (l := 0) (fun f => ?_) (fun a j hj => hj) fun j hj => hj.2.elim
    exact paces_of_forall fun j hj => hj.2.elim

/-! ### What is kept -/

/-- These entries of each tenant were accepted: all of them are counted, and the newest are in the
store. -/
structure Retained (keep every : Nat) (accepted : Text → List AuditEntry)
    (w : World (Store × ρ)) : Prop where
  unbounded : w.env.1.retention = none
  entries : ∀ t, w.env.1.entriesOf t =
    Store.newest (Store.left keep every (accepted t).length) (accepted t)
  counts : ∀ t, countOf t w.auditAppends = (accepted t).length

/-- One more entry is accepted. -/
def accept (e : AuditEntry) (accepted : Text → List AuditEntry) (t : Text) : List AuditEntry :=
  if t = e.tenant then accepted t ++ [e] else accepted t

/-- The entry is in the store, but was not counted. -/
structure Appended (keep every : Nat) (accepted : Text → List AuditEntry) (e : AuditEntry)
    (w : World (Store × ρ)) : Prop where
  unbounded : w.env.1.retention = none
  entries : ∀ t, w.env.1.entriesOf t = if t = e.tenant
    then Store.newest (Store.left keep every (accepted t).length) (accepted t) ++ [e]
    else Store.newest (Store.left keep every (accepted t).length) (accepted t)
  counts : ∀ t, countOf t w.auditAppends = (accepted t).length

/-- The entry is in the store and was counted, and it is time to trim. -/
structure Crowded (keep every : Nat) (accepted : Text → List AuditEntry) (e : AuditEntry)
    (w : World (Store × ρ)) : Prop where
  unbounded : w.env.1.retention = none
  entries : ∀ t, w.env.1.entriesOf t = if t = e.tenant
    then Store.newest (Store.left keep every (accepted t).length) (accepted t) ++ [e]
    else Store.newest (Store.left keep every (accepted t).length) (accepted t)
  counts : ∀ t, countOf t w.auditAppends = (accept e accepted t).length
  full : ((accepted e.tenant).length + 1) % every = 0

variable {keep every : Nat} {accepted : Text → List AuditEntry} {e : AuditEntry}
  {w w' : World (Store × ρ)} {link : Connection ρ} {first : World (Store × ρ)}
  {last : Ending Product → World (Store × ρ) → Prop} {timeout : Rat}

theorem Retained.of_same (h : Retained keep every accepted w) (hstore : w'.env.1 = w.env.1)
    (hcounts : w'.auditAppends = w.auditAppends) : Retained keep every accepted w' :=
  ⟨hstore ▸ h.unbounded, hstore ▸ h.entries, hcounts ▸ h.counts⟩

theorem oblivious_solo (first : World ω) (last : Ending Product → World ω → Prop) :
    Oblivious (Pact.solo False first last) 0 :=
  fun _ _ _ _ ho h => absurd h ho

/-- The attempts to append an entry store it once at most. -/
theorem serves_append (e : AuditEntry)
    (hdelay : ∀ e r d, (link.delay e r).1 = some d → 0 ≤ d) :
    Serves (Pact.solo False first last) 0 (link.append e) (Retained keep every accepted)
      (Retained keep every accepted) fun _ => Appended keep every accepted e where
  delay w d hd := hdelay e w.2 d hd
  start w hw := ⟨fun _ ho h => absurd h ho, hw.of_same rfl rfl⟩
  finish w hw := by
    refine ⟨fun _ ho h => absurd h ho, ?_⟩
    unfold Connection.append
    cases hfault : (link.fault? e w.env.2).1 with
    | some f =>
      simp only [hfault]
      exact hw.of_same rfl rfl
    | none =>
      simp only [hfault]
      refine ⟨hw.unbounded, fun t => ?_, hw.counts⟩
      rw [Store.entriesOf_append hw.unbounded, hw.entries]
  warn _ _ hw := hw.of_same rfl rfl
  holds _ _ := trivial
  stable _ _ hw _ hm := (hm rfl).symm ▸ hw
  again _ hw := hw

/-- A trim leaves what the law says. -/
theorem Crowded.trim (h : Crowded keep every accepted e w) (hevery : 0 < every) :
    ((trimStore e.tenant keep).finish w.env).1 =
        .ok ((w.env.1.entriesOf e.tenant).length - keep) ∧
      Retained keep every (accept e accepted)
        { w with env := ((trimStore e.tenant keep).finish w.env).2 } := by
  have htrim : w.env.1.trim? e.tenant keep = (.ok ((w.env.1.entriesOf e.tenant).length - keep),
      w.env.1.trim e.tenant keep) := by
    unfold Store.trim?
    have hkeep : ¬ ((keep : Int) < 0) := Int.not_lt.mpr (Int.natCast_nonneg keep)
    simp [hkeep]
  unfold trimStore
  simp only [htrim]
  refine ⟨trivial, h.unbounded, fun t => ?_, h.counts⟩
  rw [Store.entriesOf_trim, h.entries]
  unfold accept
  split
  · rename_i heq
    subst heq
    rw [List.length_append]
    exact Store.newest_trim hevery rfl h.full
  · rfl

theorem paces_trimStore (hevery : 0 < every) (e : AuditEntry) :
    Paces (Pact.solo False first last) 0 0
      (fun j => j.hand.Unarmed ∧ Crowded keep every accepted e j.shared)
      (trim (delivering timeout keep every) link.sink e.tenant) fun r j =>
        r = .ok () ∧ j.hand.Unarmed ∧ Retained keep every (accept e accepted) j.shared :=
  paces_trim (oblivious_solo first last)
    (paces_prompt (fun _ hw => ⟨rfl, _, (hw.trim hevery).1, (hw.trim hevery).2⟩) timeout
      defaultAttempts) (fun _ hw => hw) (fun _ _ hw => hw.of_same rfl rfl) fun _ _ hw => hw.elim

/-- An entry that is in the store is counted. -/
theorem Appended.count (h : Appended keep every accepted e w) :
    if (countOf e.tenant w.auditAppends + 1) % every = 0
    then Crowded keep every accepted e (afterCounting e.tenant w)
    else Retained keep every (accept e accepted) (afterCounting e.tenant w) := by
  have hcounts : ∀ t, countOf t (afterCounting e.tenant w).auditAppends =
      (accept e accepted t).length := by
    intro t
    refine (countOf_countAppend ..).trans ?_
    rw [h.counts]
    unfold accept
    split
    · rw [List.length_append, List.length_singleton]
    · rfl
  rw [h.counts]
  split
  · rename_i hfull
    exact ⟨h.unbounded, h.entries, hcounts, hfull⟩
  · rename_i hroom
    refine ⟨h.unbounded, fun t => (h.entries t).trans ?_, hcounts⟩
    unfold accept
    split
    · rename_i heq
      subst heq
      rw [List.length_append]
      exact Store.newest_grow hroom
    · rfl

/-- **A record** is accepted or leaves everything as it was. -/
theorem paces_recordTo (hdelay : ∀ e r d, (link.delay e r).1 = some d → 0 ≤ d)
    (hevery : 0 < every) (accepted : Text → List AuditEntry) (e : AuditEntry) :
    Paces (Pact.solo False first last) 0 10
      (fun j => j.hand.Unarmed ∧ Retained keep every accepted j.shared)
      (record (delivering timeout keep every) (some link.sink) e) fun r j =>
        ∃ b : Bool, r = .ok b ∧ j.hand.Unarmed ∧
          Retained keep every (if b then accept e accepted else accepted) j.shared := by
  have hothers := oblivious_solo first last
  have hdelivery : Paces (Pact.solo False first last) 0 5
      (fun j => j.hand.Unarmed ∧ Retained keep every accepted j.shared)
      (withRetries (some timeout) defaultAttempts (link.append e).make) fun r j =>
        j.hand.Unarmed ∧ Attempted (Retained keep every accepted)
          (fun _ => Appended keep every accepted e) r j.shared :=
    (serves_append e hdelay).paces_withRetries id hothers timeout defaultAttempts
  have hstored : Paces (Pact.solo False first last) 0 5
      (fun j => j.hand.Unarmed ∧ Appended keep every accepted e j.shared)
      (stored (delivering timeout keep every) link.sink e.tenant) fun r j =>
        r = .ok () ∧ j.hand.Unarmed ∧ Retained keep every (accept e accepted) j.shared :=
    Paces.mono (paces_storedEvery hothers hevery (fun w hw => hw.count)
      (paces_trimStore hevery e)) (Nat.zero_le 5)
  have hgiveUp : ∀ (w : World (Store × ρ)) f, Retained keep every accepted w →
      Retained keep every accepted (afterGivingUp e f w) := fun w f hw => hw.of_same rfl rfl
  refine (paces_record hothers (fun w hw => hw.of_same rfl rfl) hdelivery hstored hgiveUp).weaken
    (fun _ hj => hj) fun r j hr => ?_
  · obtain ⟨b, hok, hunarmed, hretained⟩ := hr
    refine ⟨b, hok, hunarmed, ?_⟩
    cases b with
    | true => exact hretained
    | false => exact hretained

/-! ### One record after the other -/

/-- Records entries, one after the other, each after some time. -/
def recordAll (s : Settings) (sink : Sink ω) : List (Rat × AuditEntry) → Action ω (List Bool)
  | [] => pure []
  | (d, e) :: rest => do
    Act.sleep (some d)
    let b ← record s (some sink) e
    let bs ← recordAll s sink rest
    pure (b :: bs)

/-- The entries of a tenant that were accepted. -/
def acceptedOf (t : Text) (es : List AuditEntry) (bs : List Bool) : List AuditEntry :=
  ((es.zip bs).filter fun x => x.2 && x.1.tenant == t).map Prod.fst

theorem acceptedOf_cons (t : Text) (e : AuditEntry) (b : Bool) (es : List AuditEntry)
    (bs : List Bool) (accepted : Text → List AuditEntry) :
    accepted t ++ acceptedOf t (e :: es) (b :: bs) =
      (if b then accept e accepted else accepted) t ++ acceptedOf t es bs := by
  unfold acceptedOf accept
  rw [List.zip_cons_cons, List.filter_cons]
  cases b with
  | false => rfl
  | true =>
    by_cases ht : t = e.tenant
    · simp [ht]
    · simp [ht, Ne.symm ht]

theorem paces_recordAll (hdelay : ∀ e r d, (link.delay e r).1 = some d → 0 ≤ d)
    (hevery : 0 < every) (xs : List (Rat × AuditEntry)) (accepted : Text → List AuditEntry) :
    Paces (Pact.solo False first last) 0 (xs.length * 11)
      (fun j => j.hand.Unarmed ∧ Retained keep every accepted j.shared)
      (recordAll (delivering timeout keep every) link.sink xs) fun r j =>
        ∃ bs : List Bool, r = .ok bs ∧ bs.length = xs.length ∧ j.hand.Unarmed ∧
          Retained keep every (fun t => accepted t ++ acceptedOf t (xs.map Prod.snd) bs) j.shared := by
  induction xs generalizing accepted with
  | nil =>
    refine paces_pure fun j hj => ⟨[], rfl, rfl, hj.1, ?_⟩
    have hsame : (fun t => accepted t ++ acceptedOf t [] []) = accepted :=
      funext fun t => List.append_nil _
    exact hsame.symm ▸ hj.2
  | cons x xs ih =>
    obtain ⟨d, e⟩ := x
    have hwaited : Paces (Pact.solo False first last) 0 1
        (fun j => j.hand.Unarmed ∧ Retained keep every accepted j.shared) (Act.sleep (some d))
        fun r j => r = .ok () ∧ j.hand.Unarmed ∧ Retained keep every accepted j.shared := by
      refine (paces_nap d (fun _ _ => trivial) fun _ hj => hj.1).weaken (fun _ hj => hj) ?_
      rintro r j ⟨hok, hclean, -, j₀, hj, hm, -⟩
      exact ⟨hok, by rw [hclean]; trivial, (hm rfl).symm ▸ hj.2⟩
    have hrest : ∀ b, Paces (Pact.solo False first last) 0 (xs.length * 11)
        (fun j => j.hand.Unarmed ∧
          Retained keep every (if b then accept e accepted else accepted) j.shared)
        (recordAll (delivering timeout keep every) link.sink xs >>= fun bs => pure (b :: bs)) fun r j =>
          ∃ bs : List Bool, r = .ok bs ∧ bs.length = xs.length + 1 ∧ j.hand.Unarmed ∧
            Retained keep every
              (fun t => accepted t ++ acceptedOf t (e :: xs.map Prod.snd) bs) j.shared := by
      intro b
      refine Paces.mono ((ih _).bind (l := 0) (fun bs => paces_pure fun j hj => ?_) fun f j hf => ?_)
        (Nat.zero_add _).le
      · obtain ⟨bs', heq, hlength, hunarmed, hretained⟩ := hj
        cases heq
        refine ⟨b :: bs, rfl, congrArg (· + 1) hlength, hunarmed, ?_⟩
        have hsame : (fun t => accepted t ++ acceptedOf t (e :: xs.map Prod.snd) (b :: bs)) =
            fun t => (if b then accept e accepted else accepted) t ++
              acceptedOf t (xs.map Prod.snd) bs :=
          funext fun t => acceptedOf_cons t e b _ bs accepted
        exact hsame.symm ▸ hretained
      · obtain ⟨_, heq, -⟩ := hf
        cases heq
    refine Paces.mono (hwaited.bind (fun _ => ((paces_recordTo hdelay hevery accepted e).weaken
      (fun j hj => hj.2) fun _ _ hr => hr).bind (fun b => (hrest b).weaken (fun j hj => ?_)
        fun _ _ hr => hr) fun f j hf => ?_) fun f j hf => nomatch hf.1) ?_
    · obtain ⟨b', heq, hunarmed, hretained⟩ := hj
      cases heq
      exact ⟨hunarmed, hretained⟩
    · obtain ⟨_, heq, -⟩ := hf
      cases heq
    · rw [List.length_cons]
      omega

/-- The task that records entries in a new log and a new store. -/
def recorder (link : Connection ρ) (r : ρ) (timeout : Rat) (keep every : Nat)
    (xs : List (Rat × AuditEntry)) : Scheduler (World (Store × ρ)) Product :=
  (Scheduler.addTask { shared := { env := ({}, r) } } false
    (Act.toTask (fun bs => .report (.arr (bs.map .bool)))
      (recordAll (delivering timeout keep every) link.sink xs))).2

/-- **The law of retention.**  After the records of `k` entries of a tenant were accepted, the store
holds the newest of them: as many as the last trim has left, and those that have come since.  Nothing
else has an effect on them, and there are never more than a trim leaves and one less than it takes to
trim again. -/
theorem retention_law (link : Connection ρ)
    (hdelay : ∀ e r d, (link.delay e r).1 = some d → 0 ≤ d) (timeout : Rat) (keep every : Nat)
    (hevery : 0 < every) (xs : List (Rat × AuditEntry)) (r : ρ) :
    ∃ (k : Scheduler (World (Store × ρ)) Product) (bs : List Bool),
      (∃ n, ∀ m, n ≤ m → (recorder link r timeout keep every xs).runUntil 0 m = k) ∧
      k.statusOf 0 = .ended (.ok (.report (.arr (bs.map .bool)))) ∧ bs.length = xs.length ∧
      ∀ t, (k.shared.env.1.entriesOf t).length ≤ keep + every - 1 ∧
        k.shared.env.1.entriesOf t =
          let accepted := acceptedOf t (xs.map Prod.snd) bs
          Store.newest (min keep (every * (accepted.length / every)) + accepted.length % every)
            accepted := by
  let first : World (Store × ρ) := { env := ({}, r) }
  have hnew : Retained keep every (fun _ => []) first := by
    refine ⟨rfl, fun t => ?_, fun t => rfl⟩
    exact (Store.newest_eq_self (Nat.zero_le _)).symm
  have hpaced : (Act.toTask (fun bs : List Bool => Product.report (.arr (bs.map .bool)))
      (recordAll (delivering timeout keep every) link.sink xs)).Paced
      (.solo False first fun r w => ∃ bs : List Bool, r = .ok (.report (.arr (bs.map .bool))) ∧
        bs.length = xs.length ∧
        Retained keep every (fun t => [] ++ acceptedOf t (xs.map Prod.snd) bs) w) 0
      (xs.length * 11) ⟨first, 0, .clean⟩ := by
    refine (paces_recordAll hdelay hevery xs fun _ => []).toTask ⟨trivial, hnew⟩ fun r j hr => ?_
    obtain ⟨bs, rfl, hlength, hunarmed, hretained⟩ := hr
    exact ⟨hunarmed, trivial, fun _ => ⟨bs, rfl, hlength, hretained⟩⟩
  obtain ⟨k, hruns, r', hr, bs, rfl, hlength, hretained⟩ := solo_ends hpaced
  refine ⟨k, bs, hruns, hr, hlength, fun t => ⟨?_, hretained.entries t⟩⟩
  rw [hretained.entries t, Store.length_newest]
  exact (min_le_left ..).trans (Store.left_lt hevery _)

/-- A connection over which every third append fails. -/
def unsteady : Connection Nat where
  delay _ n := (some 0, n)
  fault? _ n := (if n % 3 = 2 then some (.of .auditSink []) else none, n + 1)

theorem retention_law_unsteady :
    ∃ (k : Scheduler (World (Store × Nat)) Product) (bs : List Bool),
      (∃ n, ∀ m, n ≤ m →
        (recorder unsteady 0 2 2 3 (List.replicate 7 (1, default))).runUntil 0 m = k) ∧
      k.statusOf 0 = .ended (.ok (.report (.arr (bs.map .bool)))) ∧ bs.length = 7 ∧
      ∀ t, (k.shared.env.1.entriesOf t).length ≤ 2 + 3 - 1 ∧
        k.shared.env.1.entriesOf t =
          let accepted := acceptedOf t ((List.replicate 7 (1, default)).map Prod.snd) bs
          Store.newest (min 2 (3 * (accepted.length / 3)) + accepted.length % 3) accepted :=
  retention_law unsteady (fun _ _ d hd => by cases hd; exact le_rfl) 2 2 3 (by decide) _ 0

end ChatCommands.Audit
