import ChatCommands.Proofs.Concurrency.AtOnce
import ChatCommands.Proofs.Number.Nearest
import ChatCommands.Proofs.Registry.Entries

/-!
How old what a cached registry tells may be, where reads come one after the other.

The reads of a tenant's commands or prefix that were answered by the other registry since the cache was
last made to forget the tenant are its good reads.  The last one decides everything: as long as it
is younger than the limit the cache tells what it told, without asking; after that the other registry
is asked again, and if it fails, the cache tells the same once more.  `reads_are_bounded` says this
of all sequences of calls.
-/

namespace ChatCommands.Registry

open Concurrency Act

variable {ω α : Type}

/-! ### Calls one after the other -/

/-- What a registry holds for each tenant in each of its states, where a read may fail, and the clock
by which answers age. -/
structure Holdings (ω : Type) where
  clock : ω → Rat
  commands : (tenant : Text) → ω → Except Fault (List Command)
  sigil : (tenant : Text) → ω → Except Fault (Option Text)

/-- The state of a registry, and what it was asked so far, latest first. -/
structure Backend (ω : Type) where
  state : ω
  questions : List (Matter × Text) := []

namespace Holdings

/-- Asks for something, which is put down. -/
def ask (matter : Matter) (tenant : Text) (answer : ω → Except Fault α) :
    Action (Backend ω) α := do
  let r ← Action.onEnv fun b =>
    (answer b.state, { b with questions := (matter, tenant) :: b.questions })
  Act.ofExcept r

variable (H : Holdings ω)

/-- The registry. -/
def source : Source (Backend ω) where
  commands tenant := ask .commands tenant (H.commands tenant)
  sigil := some fun tenant => ask .sigil tenant (H.sigil tenant)

/-- Its answers count for so long. -/
def settings (ttl : Rat) : CacheSettings (Backend ω) :=
  ⟨ttl, Action.askEnv fun b => H.clock b.state⟩

/-- A read by way of the cache. -/
def read (ttl : Rat) : Matter → (tenant : Text) → Action (Backend ω) Told
  | .commands, tenant => Told.commands <$> cachedCommands (H.settings ttl) H.source tenant
  | .sigil, tenant => Told.sigil <$> cachedSigil (H.settings ttl) H.source tenant

/-- What the registry answers if it is asked. -/
def held : Matter → (tenant : Text) → ω → Except Fault Told
  | .commands, tenant, e => (H.commands tenant e).map .commands
  | .sigil, tenant, e => (H.sigil tenant e).map .sigil

end Holdings

/-- What is done with a cache and what is behind it. -/
inductive CacheCall (ω : Type)
  | change (f : ω → ω)
  | forget (tenant : Option Text)
  | read (matter : Matter) (tenant : Text)

/-- A read: when, what the registry would have answered then, what it was asked for the read, and what
was told. -/
structure Reading where
  matter : Matter
  tenant : Text
  time : Rat
  held : Except Fault Told
  questions : List (Matter × Text)
  told : Ending Told

/-- What has happened to a cache. -/
inductive CacheTurn
  | forgot (tenant : Option Text)
  | read (r : Reading)

/-- From the state `start` on the calls have been made, one after the other, with this history and up to
this state; calls and history begin with the latest. -/
inductive Session (H : Holdings ω) (ttl : Rat) (start : World (Backend ω)) :
    List (CacheCall ω) → List CacheTurn → World (Backend ω) → Prop
  | start : Session H ttl start [] [] start
  | change {calls h w} (f : ω → ω) (before : Session H ttl start calls h w) :
    Session H ttl start (.change f :: calls) h
      { w with env := { w.env with state := f w.env.state } }
  | forget {calls h w w'} (tenant : Option Text) (before : Session H ttl start calls h w)
    (hcall : (invalidate tenant).ComesTo w (.ok ()) w') :
    Session H ttl start (.forget tenant :: calls) (.forgot tenant :: h) w'
  | read {calls h w w' questions told} (matter : Matter) (tenant : Text)
    (before : Session H ttl start calls h w)
    (hcall : (H.read ttl matter tenant).ComesTo w told w')
    (hasked : w'.env.questions = questions ++ w.env.questions) :
    Session H ttl start (.read matter tenant :: calls)
      (.read ⟨matter, tenant, H.clock w.env.state, H.held matter tenant w.env.state, questions,
        told⟩ :: h) w'

/-! ### Good reads -/

/-- When a read was answered by the other registry, and with what, if it was. -/
def Reading.good? (r : Reading) : Option (Rat × Told) :=
  if r.questions = [] then none else r.held.toOption.map (r.time, ·)

/-- When this was a read of the matter and the tenant that was answered by the other registry, and with
what, if it was. -/
def CacheTurn.good? (matter : Matter) (tenant : Text) : CacheTurn → Option (Rat × Told)
  | .forgot _ => none
  | .read r => if r.matter = matter ∧ r.tenant = tenant then r.good? else none

/-- The cache was made to forget the tenant. -/
def CacheTurn.forgets (tenant : Text) : CacheTurn → Bool
  | .forgot forgotten => Covers forgotten tenant
  | .read _ => false

/-- It is about the matter and the tenant. -/
def CacheTurn.concerns (matter : Matter) (tenant : Text) : CacheTurn → Bool
  | .forgot forgotten => Covers forgotten tenant
  | .read r => r.matter = matter ∧ r.tenant = tenant

/-- The good reads of a matter and a tenant: those that the other registry has answered since the cache
was last made to forget the tenant, latest first. -/
def goodReads (matter : Matter) (tenant : Text) (h : List CacheTurn) : List (Rat × Told) :=
  (h.takeWhile fun turn => !turn.forgets tenant).filterMap (CacheTurn.good? matter tenant)

variable {m : Matter} {t : Text} {h : List CacheTurn} {ttl : Rat}

@[simp] theorem CacheTurn.forgets_forgot (tenant : Option Text) :
    (CacheTurn.forgot tenant).forgets t = decide (Covers tenant t) :=
  rfl

@[simp] theorem CacheTurn.forgets_read (r : Reading) : (CacheTurn.read r).forgets t = false := rfl

@[simp] theorem CacheTurn.good?_forgot (tenant : Option Text) :
    (CacheTurn.forgot tenant).good? m t = none :=
  rfl

theorem goodReads_forgot (tenant : Option Text) : goodReads m t (.forgot tenant :: h) =
    if Covers tenant t then [] else goodReads m t h := by
  unfold goodReads
  rw [List.takeWhile_cons]
  by_cases ht : Covers tenant t
  · simp [ht]
  · simp [ht, List.filterMap_cons]

theorem goodReads_read (r : Reading) : goodReads m t (.read r :: h) =
    (CacheTurn.good? m t (.read r)).toList ++ goodReads m t h := by
  unfold goodReads
  rw [List.takeWhile_cons]
  cases hentry : CacheTurn.good? m t (.read r) <;> simp [hentry]

/-- **Other matters and other tenants do not matter** for the good reads. -/
theorem goodReads_filter (h : List CacheTurn) :
    goodReads m t (h.filter (CacheTurn.concerns m t)) = goodReads m t h := by
  induction h with
  | nil => rfl
  | cons turn h ih =>
    cases turn with
    | forgot tenant =>
      by_cases ht : Covers tenant t
      · rw [List.filter_cons_of_pos (by simpa [CacheTurn.concerns] using ht), goodReads_forgot,
          goodReads_forgot, if_pos ht, if_pos ht]
      · rw [List.filter_cons_of_neg (by simpa [CacheTurn.concerns] using ht), goodReads_forgot,
          if_neg ht, ih]
    | read r =>
      by_cases hr : r.matter = m ∧ r.tenant = t
      · rw [List.filter_cons_of_pos (by simpa [CacheTurn.concerns] using hr), goodReads_read,
          goodReads_read, ih]
      · rw [List.filter_cons_of_neg (by simpa [CacheTurn.concerns] using hr), goodReads_read,
          CacheTurn.good?, if_neg hr, ih]
        rfl

/-! ### One read -/

/-- What a read asks and tells, by the last good read. -/
def serve (ttl now : Rat) (matter : Matter) (tenant : Text) (held : Except Fault Told) :
    (last : Option (Rat × Told)) → List (Matter × Text) × Ending Told
  | none => ([(matter, tenant)], held.mapError .fault)
  | some (time, v) =>
    if age now time < ttl then ([], .ok v) else ([(matter, tenant)], .ok (held.toOption.getD v))

/-- What is in the cache. -/
def filed (w : World ω) : Matter → (tenant : Text) → Option (Rat × Told)
  | .commands, t => (w.cachedCommands.lookup t).map fun c => (c.readAt, .commands c.value)
  | .sigil, t => (w.cachedSigils.lookup t).map fun c => (c.readAt, .sigil c.value)

variable {w : World (Backend ω)}

/-- The state once the registry was asked for something. -/
def asking (m : Matter) (t : Text) (w : World (Backend ω)) : World (Backend ω) :=
  { w with env := { w.env with questions := (m, t) :: w.env.questions } }

theorem comesTo_ask (m : Matter) (t : Text) (answer : ω → Except Fault α)
    (w : World (Backend ω)) :
    (Holdings.ask m t answer).ComesTo w ((answer w.env.state).mapError .fault) (asking m t w) :=
  (comesTo_change _ w).bind (comesTo_ofExcept _ _)

/-- The state once an answer has gone into the cache. -/
def keeping (place : CachePlace (Backend ω) α) (t : Text) (now : Rat) (v : α)
    (w : World (Backend ω)) : World (Backend ω) :=
  place.set (Store.assign t ⟨now, v⟩ (place.get w)) w

/-- What a read by way of the cache comes to. -/
def lookUpEnd (ttl now : Rat) (place : CachePlace (Backend ω) α) (m : Matter) (t : Text)
    (answer : ω → Except Fault α) (complain : Rat → Fault → LogRecord) (w : World (Backend ω)) :
    Ending α × World (Backend ω) :=
  match (place.get w).lookup t, answer w.env.state with
  | none, .ok v => (.ok v, keeping place t now v (asking m t w))
  | none, .error f => (.error (.fault f), asking m t w)
  | some c, r =>
    if isFresh ttl now c then (.ok c.value, w)
    else
      match r with
      | .ok v => (.ok v, keeping place t now v (asking m t w))
      | .error f =>
        (.ok c.value, { asking m t w with
          journal := complain (age now c.readAt) f :: (asking m t w).journal })

theorem comesTo_lookUp (H : Holdings ω) (ttl : Rat) (place : CachePlace (Backend ω) α) (m : Matter)
    (t : Text) (answer : ω → Except Fault α) (complain : Rat → Fault → LogRecord)
    (w : World (Backend ω)) :
    (lookUp (H.settings ttl) place t (Holdings.ask m t answer) fun age f =>
      Act.modify fun w => { w with journal := complain age f :: w.journal }).ComesTo w
        (lookUpEnd ttl (H.clock w.env.state) place m t answer complain w).1
        (lookUpEnd ttl (H.clock w.env.state) place m t answer complain w).2 := by
  have hask := comesTo_ask m t answer w
  have hkeep : ∀ v, (do
      Act.modify fun w' => place.set (Store.assign t ⟨H.clock w.env.state, v⟩ (place.get w')) w'
      pure v : Action (Backend ω) α).ComesTo (asking m t w) (.ok v)
        (keeping place t (H.clock w.env.state) v (asking m t w)) :=
    fun v => (comesTo_modify _ _).bind (comesTo_pure v _)
  refine (comesTo_gets _ w).bind ((comesTo_gets _ w).bind ?_)
  unfold lookUpEnd
  cases (place.get w).lookup t with
  | none =>
    cases hanswer : answer w.env.state with
    | ok v =>
      rw [hanswer] at hask
      exact hask.bind (hkeep v)
    | error f =>
      rw [hanswer] at hask
      exact hask.bind_error
  | some c =>
    change ComesTo (if isFresh ttl (H.clock w.env.state) c then _ else _) w _ _
    by_cases hfresh : isFresh ttl (H.clock w.env.state) c
    · simp only [if_pos hfresh]
      exact comesTo_pure c.value w
    · simp only [if_neg hfresh]
      cases hanswer : answer w.env.state with
      | ok v =>
        rw [hanswer] at hask
        exact hask.attempt.bind (hkeep v)
      | error f =>
        rw [hanswer] at hask
        exact hask.attempt.bind ((comesTo_modify _ _).bind (comesTo_pure c.value _))

/-- The place is where the answers about a matter are filed. -/
structure CachePlace.Files (place : CachePlace (Backend ω) α) (m : Matter) (tell : α → Told) :
    Prop where
  get : ∀ w t, filed w m t = ((place.get w).lookup t).map fun c => (c.readAt, tell c.value)
  set : ∀ l w, place.get (place.set l w) = l
  other : ∀ {l w m'}, m' ≠ m → filed (place.set l w) m' = filed w m'
  env : ∀ l w, (place.set l w).env = w.env

theorem commandPlace_files : (commandPlace : CachePlace (Backend ω) _).Files .commands .commands where
  get _ _ := rfl
  set _ _ := rfl
  other {_ _ m'} hm := by
    cases m' with
    | commands => exact absurd rfl hm
    | sigil => rfl
  env _ _ := rfl

theorem sigilPlace_files : (sigilPlace : CachePlace (Backend ω) _).Files .sigil .sigil where
  get _ _ := rfl
  set _ _ := rfl
  other {_ _ m'} hm := by
    cases m' with
    | commands => rfl
    | sigil => exact absurd rfl hm
  env _ _ := rfl

theorem filed_asking (m : Matter) (t : Text) (w : World (Backend ω)) :
    filed (asking m t w) = filed w := by
  funext m' t'
  cases m' <;> rfl

/-- An answer is filed under its matter and its tenant. -/
theorem filed_keeping {place : CachePlace (Backend ω) α} {tell : α → Told}
    (hplace : place.Files m tell) (now : Rat) (v : α) (w : World (Backend ω)) (m' : Matter)
    (t' : Text) : filed (keeping place t now v w) m' t' =
      if m = m' ∧ t = t' then some (now, tell v) else filed w m' t' := by
  by_cases hm : m' = m
  · subst hm
    rw [hplace.get, keeping, hplace.set, hplace.get]
    by_cases ht : t' = t
    · subst ht
      rw [lookup_assign_self, if_pos ⟨rfl, rfl⟩]
      rfl
    · rw [lookup_assign_of_ne ht, if_neg fun h => ht h.2.symm]
  · rw [keeping, hplace.other hm, if_neg fun h => hm h.1.symm]

/-- A read of this state. -/
def reading (H : Holdings ω) (ttl : Rat) (m : Matter) (t : Text) (w : World (Backend ω)) : Reading :=
  let now := H.clock w.env.state
  let held := H.held m t w.env.state
  let served := serve ttl now m t held (filed w m t)
  ⟨m, t, now, held, served.1, served.2⟩

/-- A read has been made of the state `w`, which has led to `w'`. -/
structure Follows (r : Reading) (w w' : World (Backend ω)) : Prop where
  env : w'.env = ⟨w.env.state, r.questions ++ w.env.questions⟩
  filed : ∀ m t, filed w' m t = ((CacheTurn.read r).good? m t).or (filed w m t)
  unchanged : ∀ f, r.told = .error f →
    w'.cachedCommands = w.cachedCommands ∧ w'.cachedSigils = w.cachedSigils

theorem lookUpEnd_serves {place : CachePlace (Backend ω) α} {tell : α → Told}
    (hplace : place.Files m tell) (now : Rat) (answer : ω → Except Fault α)
    (complain : Rat → Fault → LogRecord) (w : World (Backend ω)) :
    let out := lookUpEnd ttl now place m t answer complain w
    let held := (answer w.env.state).map tell
    let served := serve ttl now m t held (filed w m t)
    out.1.map tell = served.2 ∧ Follows ⟨m, t, now, held, served.1, served.2⟩ w out.2 := by
  have hkeep : ∀ v, Follows ⟨m, t, now, .ok (tell v), [(m, t)], .ok (tell v)⟩ w
      (keeping place t now v (asking m t w)) := by
    refine fun v => ⟨hplace.env _ _, fun m' t' => ?_, nofun⟩
    rw [filed_keeping hplace, filed_asking]
    by_cases hsame : m = m' ∧ t = t'
    · simp [CacheTurn.good?, Reading.good?, hsame, Except.toOption]
    · simp [CacheTurn.good?, hsame]
  simp only [lookUpEnd, hplace.get w t]
  cases (place.get w).lookup t with
  | none =>
    cases answer w.env.state with
    | ok v => exact ⟨rfl, hkeep v⟩
    | error f =>
      refine ⟨rfl, rfl, fun m' t' => ?_, fun _ _ => ⟨rfl, rfl⟩⟩
      rw [filed_asking]
      simp [CacheTurn.good?, Reading.good?, Except.map, Except.toOption, serve]
  | some c =>
    have hfresh : isFresh ttl now c = decide (age now c.readAt < ttl) := rfl
    simp only [Option.map_some, serve, hfresh, decide_eq_true_eq]
    by_cases hage : age now c.readAt < ttl
    · simp only [if_pos hage]
      refine ⟨rfl, rfl, fun m' t' => ?_, nofun⟩
      simp [CacheTurn.good?, Reading.good?]
    · simp only [if_neg hage]
      cases answer w.env.state with
      | ok v => exact ⟨rfl, hkeep v⟩
      | error f =>
        refine ⟨rfl, rfl, fun m' t' => ?_, nofun⟩
        have hjournal : filed { asking m t w with
            journal := complain (age now c.readAt) f :: (asking m t w).journal } = filed w := by
          rw [← filed_asking m t w]
          funext m' t'
          cases m' <;> rfl
        rw [hjournal]
        simp [CacheTurn.good?, Reading.good?, Except.map, Except.toOption]

theorem comesTo_lookUp_served (H : Holdings ω) (ttl : Rat) {place : CachePlace (Backend ω) α}
    {tell : α → Told} (hplace : place.Files m tell) (t : Text) (answer : ω → Except Fault α)
    (complain : Rat → Fault → LogRecord) (w : World (Backend ω)) :
    let now := H.clock w.env.state
    let held := (answer w.env.state).map tell
    let served := serve ttl now m t held (filed w m t)
    ∃ w', (tell <$> lookUp (H.settings ttl) place t (Holdings.ask m t answer) fun age f =>
        Act.modify fun w => { w with journal := complain age f :: w.journal }).ComesTo w served.2 w' ∧
      Follows ⟨m, t, now, held, served.1, served.2⟩ w w' := by
  have hcomes := (comesTo_lookUp H ttl place m t answer complain w).map (f := tell)
  obtain ⟨htold, hfollows⟩ := lookUpEnd_serves hplace (H.clock w.env.state) answer complain w
  rw [htold] at hcomes
  exact ⟨_, hcomes, hfollows⟩

/-- What is logged when the commands of a tenant are told once more. -/
def commandComplaint (t : Text) (age : Rat) (f : Fault) : LogRecord :=
  ⟨.warning, .store, text "Registry refresh failed, serving stale commands",
    [("tenant_id", .str t), ("age_seconds", .real (Binary64.roundToTenths age)),
      ("error", .str f.wording)]⟩

/-- What is logged when the prefix of a tenant is told once more. -/
def sigilComplaint (t : Text) (_ : Rat) (f : Fault) : LogRecord :=
  ⟨.warning, .store, text "Prefix refresh failed, serving stale prefix",
    [("tenant_id", .str t), ("error", .str f.wording)]⟩

/-- **One read**: what it comes to. -/
theorem comesTo_read (H : Holdings ω) (ttl : Rat) (m : Matter) (t : Text) (w : World (Backend ω)) :
    ∃ w', (H.read ttl m t).ComesTo w (reading H ttl m t w).told w' ∧
      Follows (reading H ttl m t w) w w' := by
  cases m with
  | commands => exact comesTo_lookUp_served H ttl commandPlace_files t (H.commands t) (commandComplaint t) w
  | sigil => exact comesTo_lookUp_served H ttl sigilPlace_files t (H.sigil t) (sigilComplaint t) w

/-! ### All reads -/

/-- What is promised of a read, by what has happened to the cache before. -/
structure Bounded (ttl : Rat) (past : List CacheTurn) (r : Reading) : Prop where
  /-- The other registry is asked, once, if the last good read has reached the limit. -/
  asks : (∀ x ∈ (goodReads r.matter r.tenant past).head?, ttl ≤ age r.time x.1) →
    r.questions = [(r.matter, r.tenant)]
  /-- It is not asked otherwise, and the same is told again. -/
  spares : ∀ x ∈ (goodReads r.matter r.tenant past).head?, age r.time x.1 < ttl →
    r.questions = [] ∧ r.told = .ok x.2
  /-- What the other registry answers is told. -/
  refreshes : ∀ v, r.questions ≠ [] → r.held = .ok v → r.told = .ok v
  /-- If it fails, what was told at the last good read is told once more. -/
  bridges : ∀ f, r.questions ≠ [] → r.held = .error f →
    ∀ x ∈ (goodReads r.matter r.tenant past).head?, r.told = .ok x.2
  /-- If there was none, the read fails in the same way. -/
  fails : ∀ f, r.questions ≠ [] → r.held = .error f → goodReads r.matter r.tenant past = [] →
    r.told = .error (.fault f)
  /-- But for the failures that are bridged, what is told was held at this instant or at that of an
  earlier read, less than the limit ago. -/
  recent : ∀ v, r.told = .ok v → (r.questions ≠ [] → r.held.toOption.isSome) →
    r.held = .ok v ∨ ∃ r' : Reading, .read r' ∈ past ∧ r'.matter = r.matter ∧ r'.tenant = r.tenant ∧
      r'.held = .ok v ∧ r'.time ≤ r.time ∧ age r.time r'.time < ttl ∧
      (Binary64.snap ttl = ttl → r.time - r'.time < ttl)
  /-- When the other registry is asked, all good reads have reached the limit. -/
  apart : r.questions ≠ [] → ∀ x ∈ goodReads r.matter r.tenant past, ttl ≤ age r.time x.1

theorem mem_goodReads {x : Rat × Told} (hx : x ∈ goodReads m t h) : ∃ r : Reading, .read r ∈ h ∧
    r.matter = m ∧ r.tenant = t ∧ r.held = .ok x.2 ∧ r.time = x.1 := by
  obtain ⟨turn, hturn, hentry⟩ := List.mem_filterMap.mp hx
  have hmem := (List.takeWhile_prefix _).subset hturn
  cases turn with
  | forgot tenant => cases hentry
  | read r =>
    simp only [CacheTurn.good?, Reading.good?] at hentry
    split at hentry
    · rename_i hsame
      split at hentry
      · cases hentry
      · obtain ⟨v, hv, rfl⟩ := Option.map_eq_some_iff.mp hentry
        refine ⟨r, hmem, hsame.1, hsame.2, ?_, rfl⟩
        cases hheld : r.held with
        | ok v' =>
          rw [hheld] at hv
          exact congrArg _ (Option.some.inj hv)
        | error f =>
          rw [hheld] at hv
          cases hv
    · cases hentry

/-- An age below a limit that is a number of the clock's arithmetic is one of the exact difference. -/
theorem sub_lt_of_age_lt {now before : Rat} (h : age now before < ttl) (httl : Binary64.snap ttl = ttl) :
    now - before < ttl := by
  by_contra hle
  have hsnap := Binary64.snap_mono (not_lt.mp hle)
  rw [httl] at hsnap
  exact absurd h (not_lt.mpr hsnap)

variable {r : Reading}

theorem bounded_of_serve
    (hserve : (r.questions, r.told) =
      serve ttl r.time r.matter r.tenant r.held (goodReads r.matter r.tenant h).head?)
    (hpast : ∀ x ∈ goodReads r.matter r.tenant h, x.1 ≤ r.time)
    (hordered : (goodReads r.matter r.tenant h).Pairwise fun x y => y.1 ≤ x.1) :
    Bounded ttl h r := by
  cases hgood : goodReads r.matter r.tenant h with
  | nil =>
    rw [hgood] at hserve
    obtain ⟨hquestions, htold⟩ := Prod.mk.inj hserve
    constructor
    · exact fun _ => hquestions
    · simp [hgood]
    · intro v _ hheld
      rw [htold, hheld]
      rfl
    · simp [hgood]
    · intro f _ hheld _
      rw [htold, hheld]
      rfl
    · intro v hv _
      rw [htold] at hv
      cases hheld : r.held with
      | ok v' =>
        rw [hheld] at hv
        exact .inl (congrArg _ (Except.ok.inj hv))
      | error f =>
        rw [hheld] at hv
        cases hv
    · simp [hgood]
  | cons x good =>
    obtain ⟨time, v₀⟩ := x
    have hmem : (time, v₀) ∈ goodReads r.matter r.tenant h := hgood ▸ List.mem_cons_self
    rw [hgood] at hserve hordered
    by_cases hyoung : age r.time time < ttl
    · -- the last good read is told again
      simp only [List.head?_cons, serve, if_pos hyoung, Prod.mk.injEq] at hserve
      obtain ⟨hquestions, htold⟩ := hserve
      constructor
      · intro hold
        rw [hgood] at hold
        have hold : ttl ≤ age r.time time := hold (time, v₀) rfl
        exact absurd hyoung (not_lt.mpr hold)
      · intro x hx _
        rw [hgood] at hx
        cases hx
        exact ⟨hquestions, htold⟩
      · exact fun _ hasked => absurd hquestions hasked
      · exact fun _ hasked => absurd hquestions hasked
      · exact fun _ hasked => absurd hquestions hasked
      · intro v hv _
        rw [htold] at hv
        obtain rfl := Except.ok.inj hv
        have hbefore : time ≤ r.time := hpast _ hmem
        have hless := sub_lt_of_age_lt hyoung
        obtain ⟨r', hr', hmatter, htenant, hheld, htime⟩ := mem_goodReads hmem
        have htime : r'.time = time := htime
        rw [← htime] at hyoung hbefore hless
        exact .inr ⟨r', hr', hmatter, htenant, hheld, hbefore, hyoung, hless⟩
      · exact fun hasked => absurd hquestions hasked
    · -- the other registry is asked
      simp only [List.head?_cons, serve, if_neg hyoung, Prod.mk.injEq] at hserve
      obtain ⟨hquestions, htold⟩ := hserve
      constructor
      · exact fun _ => hquestions
      · intro x hx hless
        rw [hgood] at hx
        cases hx
        exact absurd hless hyoung
      · intro v _ hheld
        rw [htold, hheld]
        rfl
      · intro f _ hheld x hx
        rw [hgood] at hx
        cases hx
        rw [htold, hheld]
        rfl
      · intro f _ _ hnone
        rw [hgood] at hnone
        cases hnone
      · intro v hv hsome
        rw [htold] at hv
        obtain ⟨v', hv'⟩ := Option.isSome_iff_exists.mp (hsome (by simp [hquestions]))
        cases hheld : r.held with
        | ok v'' =>
          rw [hheld] at hv
          exact .inl (congrArg _ (Except.ok.inj hv))
        | error f =>
          rw [hheld] at hv'
          cases hv'
      · intro _ x hx
        rw [hgood] at hx
        have hlater : x.1 ≤ time := by
          rcases List.mem_cons.mp hx with rfl | hx
          · exact le_refl _
          · exact (List.pairwise_cons.mp hordered).1 x hx
        exact (not_lt.mp hyoung).trans (Binary64.snap_mono (sub_le_sub_left hlater _))

/-! ### All sequences of calls -/

/-- The cache holds the last good reads, which are in order, and its reads were as promised. -/
structure Accounted (H : Holdings ω) (ttl : Rat) (h : List CacheTurn) (w : World (Backend ω)) :
    Prop where
  filed : ∀ m t, filed w m t = (goodReads m t h).head?
  past : ∀ m t, ∀ x ∈ goodReads m t h, x.1 ≤ H.clock w.env.state
  ordered : ∀ m t, (goodReads m t h).Pairwise fun x y => y.1 ≤ x.1
  bounded : ∀ later r earlier, h = later ++ .read r :: earlier → Bounded ttl earlier r

/-- Nothing is cached. -/
def Unfilled (w : World ω) : Prop := w.cachedCommands = [] ∧ w.cachedSigils = []

/-- The state of the registry after the calls, the last of which comes first. -/
def stateAfter (e : ω) : List (CacheCall ω) → ω
  | [] => e
  | .change f :: calls => f (stateAfter e calls)
  | .forget _ :: calls | .read .. :: calls => stateAfter e calls

/-- No call sets the clock back. -/
def Forward (H : Holdings ω) (e : ω) : List (CacheCall ω) → Prop
  | [] => True
  | .change f :: calls =>
    H.clock (stateAfter e calls) ≤ H.clock (f (stateAfter e calls)) ∧ Forward H e calls
  | .forget _ :: calls | .read .. :: calls => Forward H e calls

variable {H : Holdings ω} {start w' : World (Backend ω)} {calls : List (CacheCall ω)}

theorem accounted_start (hstart : Unfilled start) : Accounted H ttl [] start := by
  refine ⟨fun m t => ?_, by simp [goodReads], by simp [goodReads], by simp⟩
  cases m with
  | commands => simp [Registry.filed, hstart.1, goodReads]
  | sigil => simp [Registry.filed, hstart.2, goodReads]

theorem filed_forgetting (tenant : Option Text) (w : World ω) (m : Matter) (t : Text) :
    filed (forgetting tenant w) m t = if Covers tenant t then none else filed w m t := by
  cases m with
  | commands =>
    simp only [filed, lookup_forgetting_commands]
    split <;> rfl
  | sigil =>
    simp only [filed, lookup_forgetting_sigils]
    split <;> rfl

theorem Accounted.forget (hw : Accounted H ttl h w) (tenant : Option Text) :
    Accounted H ttl (.forgot tenant :: h) (forgetting tenant w) := by
  refine ⟨fun m t => ?_, fun m t x hx => ?_, fun m t => ?_, fun later r earlier heq => ?_⟩
  · rw [filed_forgetting, goodReads_forgot, hw.filed]
    split <;> rfl
  · rw [forgetting_env]
    rw [goodReads_forgot] at hx
    split at hx
    · cases hx
    · exact hw.past m t x hx
  · rw [goodReads_forgot]
    split
    · exact .nil
    · exact hw.ordered m t
  · cases later with
    | nil => cases heq
    | cons _ later => exact hw.bounded later r earlier (List.cons.inj heq).2

/-- The read of a state is as promised. -/
theorem Accounted.reading_bounded (hw : Accounted H ttl h w) (m : Matter) (t : Text) :
    Bounded ttl h (reading H ttl m t w) := by
  refine bounded_of_serve ?_ (hw.past m t) (hw.ordered m t)
  change serve _ _ _ _ _ (Registry.filed w m t) = serve _ _ _ _ _ _
  rw [hw.filed]
  rfl

theorem good?_reading {x : Rat × Told} {m' : Matter} {t' : Text}
    (hx : x ∈ (CacheTurn.read (reading H ttl m t w)).good? m' t') : x.1 = H.clock w.env.state := by
  simp only [CacheTurn.good?, Reading.good?] at hx
  split at hx
  · split at hx
    · cases hx
    · obtain ⟨v, -, rfl⟩ := Option.map_eq_some_iff.mp hx
      rfl
  · cases hx

theorem Accounted.read (hw : Accounted H ttl h w) (m : Matter) (t : Text)
    (hfollows : Follows (reading H ttl m t w) w w') :
    Accounted H ttl (.read (reading H ttl m t w) :: h) w' := by
  have hclock : H.clock w'.env.state = H.clock w.env.state := by rw [hfollows.env]
  refine ⟨fun m' t' => ?_, fun m' t' x hx => ?_, fun m' t' => ?_, fun later r earlier heq => ?_⟩
  · rw [hfollows.filed, goodReads_read, hw.filed]
    cases (CacheTurn.read (reading H ttl m t w)).good? m' t' <;> rfl
  · rw [hclock]
    rw [goodReads_read] at hx
    rcases List.mem_append.mp hx with hx | hx
    · exact le_of_eq (good?_reading (Option.mem_toList.mp hx))
    · exact hw.past m' t' x hx
  · rw [goodReads_read]
    refine List.pairwise_append.mpr ⟨?_, hw.ordered m' t', fun x hx y hy => ?_⟩
    · cases (CacheTurn.read (reading H ttl m t w)).good? m' t' <;> simp
    · rw [good?_reading (Option.mem_toList.mp hx)]
      exact hw.past m' t' y hy
  · cases later with
    | nil =>
      obtain ⟨hr, rfl⟩ := List.cons.inj heq
      cases hr
      exact hw.reading_bounded m t
    | cons _ later => exact hw.bounded later r earlier (List.cons.inj heq).2

theorem Accounted.change (hw : Accounted H ttl h w) {f : ω → ω}
    (hf : H.clock w.env.state ≤ H.clock (f w.env.state)) :
    Accounted H ttl h { w with env := { w.env with state := f w.env.state } } := by
  refine ⟨fun m t => ?_, fun m t x hx => ?_, hw.ordered, hw.bounded⟩
  · refine Eq.trans ?_ (hw.filed m t)
    cases m <;> rfl
  · exact (hw.past m t x hx).trans hf

/-- A read leads to what was computed of it, and to nothing else. -/
theorem follows_of_comesTo {told : Ending Told} {questions : List (Matter × Text)}
    (hcall : (H.read ttl m t).ComesTo w told w')
    (hasked : w'.env.questions = questions ++ w.env.questions) :
    (⟨m, t, H.clock w.env.state, H.held m t w.env.state, questions, told⟩ : Reading) =
      reading H ttl m t w ∧ Follows (reading H ttl m t w) w w' := by
  obtain ⟨w'', hcomes, hfollows⟩ := comesTo_read H ttl m t w
  obtain ⟨rfl, rfl⟩ := hcall.unique hcomes
  rw [hfollows.env] at hasked
  obtain rfl := List.append_cancel_right hasked
  exact ⟨rfl, hfollows⟩

theorem Session.state (hs : Session H ttl start calls h w) :
    w.env.state = stateAfter start.env.state calls := by
  induction hs with
  | start => rfl
  | change f _ ih => exact congrArg f ih
  | forget tenant _ hcall ih =>
    obtain ⟨-, rfl⟩ := hcall.unique (comesTo_modify _ _)
    exact (congrArg Backend.state (forgetting_env tenant _)).trans ih
  | read m t _ hcall hasked ih =>
    rw [(follows_of_comesTo hcall hasked).2.env]
    exact ih

theorem Session.accounted (hstart : Unfilled start) (hs : Session H ttl start calls h w)
    (hforward : Forward H start.env.state calls) : Accounted H ttl h w := by
  induction hs with
  | start => exact accounted_start hstart
  | change f before ih =>
    obtain ⟨hclock, hforward⟩ := hforward
    rw [← before.state] at hclock
    exact (ih hforward).change hclock
  | forget tenant _ hcall ih =>
    obtain ⟨-, rfl⟩ := hcall.unique (comesTo_modify _ _)
    exact (ih hforward).forget tenant
  | read m t _ hcall hasked ih =>
    obtain ⟨hr, hfollows⟩ := follows_of_comesTo hcall hasked
    rw [hr]
    exact (ih hforward).read m t hfollows

theorem Session.unique {h' : List CacheTurn} (hs : Session H ttl start calls h w)
    (hs' : Session H ttl start calls h' w') : h' = h ∧ w' = w := by
  induction hs generalizing h' w' with
  | start =>
    cases hs'
    exact ⟨rfl, rfl⟩
  | change f _ ih =>
    cases hs' with
    | change _ before =>
      obtain ⟨rfl, rfl⟩ := ih before
      exact ⟨rfl, rfl⟩
  | forget tenant _ hcall ih =>
    cases hs' with
    | forget _ before hcall' =>
      obtain ⟨rfl, rfl⟩ := ih before
      obtain ⟨-, rfl⟩ := hcall.unique hcall'
      exact ⟨rfl, rfl⟩
  | read m t _ hcall hasked ih =>
    cases hs' with
    | read _ _ before hcall' hasked' =>
      obtain ⟨rfl, rfl⟩ := ih before
      obtain ⟨rfl, rfl⟩ := hcall.unique hcall'
      rw [(follows_of_comesTo hcall hasked).1, (follows_of_comesTo hcall' hasked').1]
      exact ⟨rfl, rfl⟩

/-- Every call comes to an end. -/
theorem exists_session (H : Holdings ω) (ttl : Rat) (start : World (Backend ω))
    (calls : List (CacheCall ω)) : ∃ h w, Session H ttl start calls h w := by
  induction calls with
  | nil => exact ⟨_, _, .start⟩
  | cons call calls ih =>
    obtain ⟨h, w, before⟩ := ih
    cases call with
    | change f => exact ⟨_, _, .change f before⟩
    | forget tenant => exact ⟨_, _, .forget tenant before (comesTo_modify _ _)⟩
    | read m t =>
      obtain ⟨w', hcomes, hfollows⟩ := comesTo_read H ttl m t w
      exact ⟨_, _, .read m t before hcomes (congrArg Backend.questions hfollows.env)⟩

/-- What is promised of a read settles what it asks and tells. -/
theorem Bounded.determined (hb : Bounded ttl h r) : (r.questions, r.told) =
    serve ttl r.time r.matter r.tenant r.held (goodReads r.matter r.tenant h).head? := by
  have hasked : r.questions = [(r.matter, r.tenant)] → r.questions ≠ [] := fun heq => by simp [heq]
  cases hgood : (goodReads r.matter r.tenant h).head? with
  | none =>
    have hquestions := hb.asks (by simp [hgood])
    refine Prod.ext hquestions ?_
    cases hheld : r.held with
    | ok v => exact hb.refreshes v (hasked hquestions) hheld
    | error f => exact hb.fails f (hasked hquestions) hheld (List.head?_eq_none_iff.mp hgood)
  | some x =>
    by_cases hyoung : age r.time x.1 < ttl
    · obtain ⟨hquestions, htold⟩ := hb.spares x hgood hyoung
      simp only [serve, if_pos hyoung, hquestions, htold]
    · have hquestions : r.questions = [(r.matter, r.tenant)] := by
        refine hb.asks fun x' hx' => ?_
        cases hgood.symm.trans hx'
        exact not_lt.mp hyoung
      simp only [serve, if_neg hyoung, hquestions, Prod.mk.injEq, true_and]
      cases hheld : r.held with
      | ok v => exact hb.refreshes v (hasked hquestions) hheld
      | error f => exact hb.bridges f (hasked hquestions) hheld x hgood

/-- Two reads of a matter and a tenant ask and tell the same if they happen at the same time, the other
registry would answer the same, and the histories agree in what concerns the matter and the
tenant. -/
def Agree (h h' : List CacheTurn) : Prop :=
  ∀ later r earlier later' r' earlier', h = later ++ .read r :: earlier →
    h' = later' ++ .read r' :: earlier' → r'.matter = r.matter → r'.tenant = r.tenant →
    r'.time = r.time → r'.held = r.held →
    earlier'.filter (CacheTurn.concerns r.matter r.tenant) =
      earlier.filter (CacheTurn.concerns r.matter r.tenant) →
    r'.questions = r.questions ∧ r'.told = r.told

theorem Accounted.agree {h' : List CacheTurn} (hw : Accounted H ttl h w)
    (hw' : Accounted H ttl h' w') : Agree h h' := by
  intro later r earlier later' r' earlier' heq heq' hmatter htenant htime hheld hfilter
  have hserve := (hw.bounded later r earlier heq).determined
  have hserve' := (hw'.bounded later' r' earlier' heq').determined
  rw [hmatter, htenant, htime, hheld, ← goodReads_filter, hfilter, goodReads_filter, ← hserve]
    at hserve'
  exact Prod.mk.inj hserve'

/-- **How old what is told may be.**  Calls that come one after the other, with the registry behind the
cache and its clock changing in between as they like as long as the clock does not go back, come to
an end in one way only.  Every read is as promised by the history before it; one that fails leaves
the cache as it was; and reads of other matters and other tenants do not matter to it. -/
theorem reads_are_bounded (ttl : Rat) (hstart : Unfilled start) (hforward : Forward H start.env.state calls) :
    ∃ h w, Session H ttl start calls h w ∧
      (∀ h' w', Session H ttl start calls h' w' → h' = h ∧ w' = w) ∧
      (∀ later r earlier, h = later ++ .read r :: earlier → Bounded ttl earlier r) ∧
      (∀ m t f w', (H.read ttl m t).ComesTo w (.error f) w' →
        w'.cachedCommands = w.cachedCommands ∧ w'.cachedSigils = w.cachedSigils) ∧
      ∀ start' calls' h' w', Unfilled start' → Forward H start'.env.state calls' →
        Session H ttl start' calls' h' w' → Agree h h' := by
  obtain ⟨h, w, hs⟩ := exists_session H ttl start calls
  have hw := hs.accounted hstart hforward
  refine ⟨h, w, hs, fun _ _ hs' => hs.unique hs', hw.bounded, fun m t f w' hcomes => ?_, ?_⟩
  · obtain ⟨w'', hcomes', hfollows⟩ := comesTo_read H ttl m t w
    obtain ⟨htold, rfl⟩ := hcomes.unique hcomes'
    exact hfollows.unchanged f htold.symm
  · intro start' calls' h' w' hstart' hforward' hs'
    exact hw.agree (hs'.accounted hstart' hforward')

/-! ### A store that fails for a while -/

/-- A store with a clock that can be out of order. -/
structure Shelf where
  clock : Rat := 0
  store : Store := {}
  outOfOrder : Option Fault := none

namespace Shelf

/-- What it holds, unless it is out of order. -/
def answer (f : Store → α) (e : Shelf) : Except Fault α :=
  match e.outOfOrder with
  | some fault => .error fault
  | none => .ok (f e.store)

def holdings : Holdings Shelf where
  clock := Shelf.clock
  commands tenant := answer fun s => s.commandsOf tenant
  sigil tenant := answer fun s => s.sigilOf tenant

/-- A read, another one nine seconds later, when the store has another prefix, and one after nine more,
when it is out of order; the last one first. -/
def visits : List (CacheCall Shelf) := [
  .read .sigil (text "tenant"),
  .change fun e => { e with clock := e.clock + 9, outOfOrder := some (.of .registryUnavailable []) },
  .read .sigil (text "tenant"),
  .change fun e =>
    { e with clock := e.clock + 9, store := e.store.setSigil (text "tenant") (some (text "?")) },
  .read .sigil (text "tenant")]

theorem visits_forward : Forward holdings {} visits := by
  refine ⟨?_, ?_, trivial⟩
  · exact le_add_of_nonneg_right (by norm_num)
  · exact le_add_of_nonneg_right (by norm_num)

end Shelf

theorem reads_are_bounded_shelf :
    Unfilled ({ env := ⟨{}, []⟩ } : World (Backend Shelf)) ∧ Forward Shelf.holdings {} Shelf.visits ∧
    ∃ h w, Session Shelf.holdings 10 { env := ⟨{}, []⟩ } Shelf.visits h w ∧
      ∀ later r earlier, h = later ++ .read r :: earlier → Bounded 10 earlier r := by
  have hstart : Unfilled ({ env := ⟨{}, []⟩ } : World (Backend Shelf)) := ⟨rfl, rfl⟩
  obtain ⟨h, w, hs, -, hbounded, -⟩ := reads_are_bounded 10 hstart Shelf.visits_forward
  exact ⟨hstart, Shelf.visits_forward, h, w, hs, hbounded⟩

end ChatCommands.Registry
