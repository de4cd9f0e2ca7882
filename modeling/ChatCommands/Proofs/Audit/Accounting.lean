import ChatCommands.Proofs.Audit.Recording
import ChatCommands.Proofs.Concurrency.Sessions

/-!
No entry is lost.

Calls of one log come in at any time and overlap, and the sink takes as long and fails as often as it
likes.  What the calls came to is kept in a list of reports, and the log's own books agree with it
whenever no call has its turn.  Main statement: `records_accounted`.
-/

namespace ChatCommands.Audit

open Concurrency Act Delivery

/-! ### Reports -/

/-- What is seen of the calls from outside. -/
inductive Report
  /-- The sink has returned from an append of this call. -/
  | appended (call : Nat)
  /-- The sink was asked to trim, by this call. -/
  | trimming (call : Nat) (tenant : Text)
  /-- The call has returned. -/
  | returned (call : Nat) (accepted : Bool)

def Report.call : Report → Nat
  | .appended n | .trimming n _ | .returned n _ => n

/-- The reports of a call. -/
def reportsOf (n : Nat) (log : List Report) : List Report := log.filter (·.call == n)

/-- The calls whose entry was appended. -/
def appendedBy (log : List Report) : List Nat :=
  log.filterMap fun | .appended n => some n | _ => none

/-- The calls that were told that their entry was given up. -/
def refusedTo (log : List Report) : List Nat :=
  log.filterMap fun | .returned n false => some n | _ => none

/-- The calls that asked to trim the entries of a tenant, once for each attempt. -/
def trimmedBy (t : Text) (log : List Report) : List Nat :=
  log.filterMap fun | .trimming n u => if u = t then some n else none | _ => none

variable {n o : Nat} {r : Report} {t : Text} {log : List Report}

theorem trimmedBy_cons (n : Nat) (u t : Text) (log : List Report) :
    trimmedBy t (.trimming n u :: log) = if u = t then n :: trimmedBy t log else trimmedBy t log := by
  unfold trimmedBy
  rw [List.filterMap_cons]
  by_cases h : u = t
  · simp only [if_pos h]
  · simp only [if_neg h]

theorem mem_reportsOf : r ∈ reportsOf n log ↔ r ∈ log ∧ r.call = n := by
  simp [reportsOf]

theorem reportsOf_cons_of_ne (h : r.call ≠ o) : reportsOf o (r :: log) = reportsOf o log := by
  simp [reportsOf, h]

theorem not_mem_of_reportsOf (h : reportsOf n log = []) (hr : r.call = n) : r ∉ log := fun hin =>
  List.not_mem_nil (h ▸ mem_reportsOf.mpr ⟨hin, hr⟩)

theorem mem_appendedBy : n ∈ appendedBy log ↔ .appended n ∈ log := by
  unfold appendedBy
  rw [List.mem_filterMap]
  constructor
  · rintro ⟨r, hr, heq⟩
    cases r with
    | appended m => cases heq; exact hr
    | trimming | returned => cases heq
  · exact fun h => ⟨_, h, rfl⟩

theorem mem_refusedTo : n ∈ refusedTo log ↔ .returned n false ∈ log := by
  unfold refusedTo
  rw [List.mem_filterMap]
  constructor
  · rintro ⟨r, hr, heq⟩
    match r with
    | .returned m false => cases heq; exact hr
    | .returned m true | .appended _ | .trimming .. => cases heq
  · exact fun h => ⟨_, h, rfl⟩

theorem mem_trimmedBy : n ∈ trimmedBy t log ↔ .trimming n t ∈ log := by
  unfold trimmedBy
  rw [List.mem_filterMap]
  constructor
  · rintro ⟨r, hr, heq⟩
    cases r with
    | trimming m u =>
      dsimp only at heq
      split at heq
      · rename_i hu
        cases heq
        exact hu ▸ hr
      · cases heq
    | appended | returned => cases heq
  · exact fun h => ⟨_, h, if_pos rfl⟩

/-- The reports come in an order that makes sense: a call appends first if it does, asks for trims and
returns. -/
inductive Sound (entryOf : Nat → AuditEntry) : List Report → Prop
  | nil : Sound entryOf []
  | appended {n : Nat} {log : List Report} (h : Sound entryOf log) (hnew : reportsOf n log = []) :
    Sound entryOf (.appended n :: log)
  | trimming {n : Nat} {log : List Report} (h : Sound entryOf log) (hstored : .appended n ∈ log) :
    Sound entryOf (.trimming n (entryOf n).tenant :: log)
  | accepted {n : Nat} {log : List Report} (h : Sound entryOf log) (hstored : .appended n ∈ log) :
    Sound entryOf (.returned n true :: log)
  | refused {n : Nat} {log : List Report} (h : Sound entryOf log) (hnew : reportsOf n log = []) :
    Sound entryOf (.returned n false :: log)

variable {entryOf : Nat → AuditEntry} {every : Nat}

/-- No entry is appended twice. -/
theorem Sound.nodup_appendedBy (h : Sound entryOf log) : (appendedBy log).Nodup := by
  induction h with
  | nil => exact List.nodup_nil
  | appended _ hnew ih =>
    exact List.nodup_cons.mpr ⟨fun hin => not_mem_of_reportsOf hnew rfl (mem_appendedBy.mp hin), ih⟩
  | trimming _ _ ih | accepted _ _ ih | refused _ _ ih => exact ih

/-- No call is refused twice. -/
theorem Sound.nodup_refusedTo (h : Sound entryOf log) : (refusedTo log).Nodup := by
  induction h with
  | nil => exact List.nodup_nil
  | refused _ hnew ih =>
    exact List.nodup_cons.mpr ⟨fun hin => not_mem_of_reportsOf hnew rfl (mem_refusedTo.mp hin), ih⟩
  | appended _ _ ih | trimming _ _ ih | accepted _ _ ih => exact ih

/-- **A call is told whether its entry was appended.** -/
theorem Sound.returned_iff (h : Sound entryOf log) {b : Bool} (hreturned : .returned n b ∈ log) :
    b = true ↔ .appended n ∈ log := by
  induction h with
  | nil => cases hreturned
  | appended _ hnew ih =>
    rcases List.mem_cons.mp hreturned with heq | hin
    · cases heq
    · rw [ih hin, List.mem_cons, or_iff_right]
      rintro ⟨⟩
      exact not_mem_of_reportsOf hnew rfl hin
  | trimming _ _ ih =>
    rcases List.mem_cons.mp hreturned with heq | hin
    · cases heq
    · rw [ih hin, List.mem_cons, or_iff_right nofun]
  | accepted _ hstored ih =>
    rw [List.mem_cons, or_iff_right nofun]
    rcases List.mem_cons.mp hreturned with heq | hin
    · cases heq
      exact ⟨fun _ => hstored, fun _ => rfl⟩
    · exact ih hin
  | refused _ hnew ih =>
    rw [List.mem_cons, or_iff_right nofun]
    rcases List.mem_cons.mp hreturned with heq | hin
    · cases heq
      exact ⟨nofun, fun hin => absurd hin (not_mem_of_reportsOf hnew rfl)⟩
    · exact ih hin

/-! ### The books -/

/-- The records about entries that were given up. -/
def failureRecords (journal : List LogRecord) : List LogRecord :=
  journal.filter fun x => x.level == .error && x.message == text "Audit write failed"

/-- The books of a log agree with the reports. -/
structure Accounts {ω : Type} (entryOf : Nat → AuditEntry) (every : Nat) (log : List Report)
    (w : World ω) : Prop where
  failures : w.auditFailures = (refusedTo log).length
  records : (failureRecords w.journal).map (·.context.lookup "audit") =
    (refusedTo log).map fun n => some (entryOf n).toJson
  counts : ∀ t, countOf t w.auditAppends = (appendedBy log).countP fun n => (entryOf n).tenant = t
  trims : ∀ t, (trimmedBy t log).dedup.length = countOf t w.auditAppends / every

variable {ω : Type} {w w' : World ω}

theorem Accounts.of_same (h : Accounts entryOf every log w)
    (hfailures : w'.auditFailures = w.auditFailures) (hjournal : failureRecords w'.journal = failureRecords w.journal)
    (happends : w'.auditAppends = w.auditAppends) : Accounts entryOf every log w' :=
  ⟨hfailures ▸ h.failures, hjournal ▸ h.records, happends ▸ h.counts, happends ▸ h.trims⟩

/-- An entry is given up. -/
theorem Accounts.refuse (h : Accounts entryOf every log w) (n : Nat) (f : Fault) :
    Accounts entryOf every (.returned n false :: log) (afterGivingUp (entryOf n) f w) :=
  ⟨congrArg (· + 1) h.failures, congrArg (_ :: ·) h.records, h.counts, h.trims⟩

theorem Accounts.accept (h : Accounts entryOf every log w) (n : Nat) :
    Accounts entryOf every (.returned n true :: log) w :=
  ⟨h.failures, h.records, h.counts, h.trims⟩

/-- An entry is counted, and then it may be time to trim. -/
theorem Accounts.count (h : Accounts entryOf every log w) (hn : reportsOf n log = []) :
    if (countOf (entryOf n).tenant w.auditAppends + 1) % every = 0
    then Accounts entryOf every (.trimming n (entryOf n).tenant :: .appended n :: log)
      (afterCounting (entryOf n).tenant w)
    else Accounts entryOf every (.appended n :: log) (afterCounting (entryOf n).tenant w) := by
  have hcount : ∀ t, countOf t (afterCounting (entryOf n).tenant w).auditAppends =
      if t = (entryOf n).tenant then countOf t w.auditAppends + 1 else countOf t w.auditAppends :=
    fun t => countOf_countAppend (entryOf n).tenant t w.auditAppends
  have hcounts : ∀ t, countOf t (afterCounting (entryOf n).tenant w).auditAppends =
      (appendedBy (.appended n :: log)).countP fun n => (entryOf n).tenant = t := by
    intro t
    change _ = (n :: appendedBy log).countP _
    rw [hcount, List.countP_cons, h.counts t]
    by_cases ht : t = (entryOf n).tenant
    · simp [ht]
    · simp [ht, Ne.symm ht]
  have hdiv : (countOf (entryOf n).tenant w.auditAppends + 1) / every =
      countOf (entryOf n).tenant w.auditAppends / every +
        if every ∣ countOf (entryOf n).tenant w.auditAppends + 1 then 1 else 0 := Nat.succ_div
  split
  · rename_i hfull
    rw [if_pos (Nat.dvd_of_mod_eq_zero hfull)] at hdiv
    refine ⟨h.failures, h.records, hcounts, fun t => ?_⟩
    change (trimmedBy t (.trimming n _ :: log)).dedup.length = _
    rw [trimmedBy_cons, hcount]
    by_cases ht : t = (entryOf n).tenant
    · subst ht
      have hnot : n ∉ trimmedBy (entryOf n).tenant log := fun hin =>
        not_mem_of_reportsOf hn rfl (mem_trimmedBy.mp hin)
      rw [if_pos rfl, if_pos rfl, List.dedup_cons_of_notMem hnot, List.length_cons, h.trims, hdiv]
    · rw [if_neg (Ne.symm ht), if_neg ht, h.trims]
  · rename_i hroom
    rw [if_neg fun hdvd => hroom (Nat.mod_eq_zero_of_dvd hdvd)] at hdiv
    refine ⟨h.failures, h.records, hcounts, fun t => (h.trims t).trans ?_⟩
    rw [hcount]
    split
    · rename_i ht
      rw [ht, hdiv, Nat.add_zero]
    · rfl

/-- A request to trim that is repeated counts once. -/
theorem Accounts.again (h : Accounts entryOf every log w) (hin : .trimming n t ∈ log) :
    Accounts entryOf every (.trimming n t :: log) w := by
  refine ⟨h.failures, h.records, h.counts, fun u => (congrArg _ ?_).trans (h.trims u)⟩
  rw [trimmedBy_cons]
  split
  · rename_i heq
    exact List.dedup_cons_of_mem (mem_trimmedBy.mpr (heq ▸ hin))
  · rfl

/-! ### The calls -/

/-- A sink that may behave in any way. -/
structure Outside (ω : Type) where
  append : AuditEntry → OutsideCall ω Unit
  trim : Text → Int → OutsideCall ω Nat

/-- An append for a call, which is reported when the sink returns from it. -/
def appendFor (n : Nat) (c : OutsideCall ω Unit) : OutsideCall (ω × List Report) Unit where
  start x := ((c.start x.1).1, ((c.start x.1).2, x.2))
  finish x := ((c.finish x.1).1, ((c.finish x.1).2,
    match (c.finish x.1).1 with
    | .ok _ => .appended n :: x.2
    | .error _ => x.2))

/-- A trim for a call, which is reported when the sink is asked for it. -/
def trimFor (n : Nat) (tenant : Text) (c : OutsideCall ω Nat) :
    OutsideCall (ω × List Report) Nat where
  start x := ((c.start x.1).1, ((c.start x.1).2, .trimming n tenant :: x.2))
  finish x := ((c.finish x.1).1, ((c.finish x.1).2, x.2))

/-- The sink as one call sees it. -/
def Outside.sinkFor (c : Outside ω) (n : Nat) : Sink (ω × List Report) :=
  ⟨fun e => (appendFor n (c.append e)).make, fun tenant keep =>
    (trimFor n tenant (c.trim tenant keep)).make⟩

/-- A call that comes in after a while and reports what it was told. -/
def call (s : Settings) (c : Outside ω) (n : Nat) (after : Rat) (e : AuditEntry) :
    Action (ω × List Report) Bool := do
  Act.sleep (some after)
  let accepted ← record s (some (c.sinkFor n)) e
  Act.modify fun w => { w with env := (w.env.1, .returned n accepted :: w.env.2) }
  pure accepted

/-! ### What the calls keep -/

/-- The reports make sense, and the books agree with them as soon as `next` is reported too. -/
structure Agreed (entryOf : Nat → AuditEntry) (every : Nat) (next : List Report)
    (x : World (ω × List Report)) : Prop where
  sound : Sound entryOf x.env.2
  accounts : Accounts entryOf every (next ++ x.env.2) x

/-- What the calls of a log keep. -/
def bookkeeping (ω : Type) (entryOf : Nat → AuditEntry) (every : Nat) :
    Pact (World (ω × List Report)) Product where
  holds x := Agreed entryOf every [] x
  meanwhile n x x' := reportsOf n x'.env.2 = reportsOf n x.env.2
  fresh n x := reportsOf n x.env.2 = []
  done n r x := ∃ b, r = .ok (.flag b) ∧ .returned n b ∈ x.env.2
  alone := False

variable {me : Nat} {x x' : World (ω × List Report)} {next : List Report}

/-- What was reported of a call remains so. -/
theorem mem_of_meanwhile (h : reportsOf r.call x'.env.2 = reportsOf r.call x.env.2)
    (hr : r ∈ x.env.2) : r ∈ x'.env.2 := by
  have hin : r ∈ reportsOf r.call x'.env.2 := h ▸ mem_reportsOf.mpr ⟨hr, rfl⟩
  exact (mem_reportsOf.mp hin).1

theorem bookkeeping_lawful : (bookkeeping ω entryOf every).Lawful where
  refl _ _ := rfl
  trans h h' := h'.trans h
  fresh h hf := h.trans hf
  done h hd := by
    obtain ⟨b, hr, hin⟩ := hd
    exact ⟨b, hr, mem_of_meanwhile h hin⟩

theorem oblivious_bookkeeping (me : Nat) : Oblivious (bookkeeping ω entryOf every) me :=
  fun _ _ henv o _ => congrArg (fun e : ω × List Report => reportsOf o e.2) henv

/-- A report of one call is nothing to the others. -/
theorem unminded_report {a : ω} (hcall : r.call = me) :
    Unminded (bookkeeping ω entryOf every) me x { x with env := (a, r :: x.env.2) } :=
  fun _ ho => reportsOf_cons_of_ne (hcall.trans_ne ho.symm)

theorem Agreed.of_same (h : Agreed entryOf every next x) (hreports : x'.env.2 = x.env.2)
    (hfailures : x'.auditFailures = x.auditFailures)
    (hjournal : failureRecords x'.journal = failureRecords x.journal)
    (happends : x'.auditAppends = x.auditAppends) : Agreed entryOf every next x' :=
  ⟨hreports ▸ h.sound, hreports ▸ h.accounts.of_same hfailures hjournal happends⟩

/-! ### The stages of a call -/

/-- Nothing was reported of the call. -/
def Untold (entryOf : Nat → AuditEntry) (every me : Nat) (x : World (ω × List Report)) : Prop :=
  Agreed entryOf every [] x ∧ reportsOf me x.env.2 = []

/-- The entry was appended, and the books do not know. -/
def Uncounted (entryOf : Nat → AuditEntry) (every me : Nat) (x : World (ω × List Report)) : Prop :=
  ∃ before, x.env.2 = .appended me :: before ∧ reportsOf me before = [] ∧
    Sound entryOf before ∧ Accounts entryOf every before x

/-- The entry was appended, and the books say that `next` is to be reported. -/
def Counted (entryOf : Nat → AuditEntry) (every me : Nat) (next : List Report)
    (x : World (ω × List Report)) : Prop :=
  Agreed entryOf every next x ∧ .appended me ∈ x.env.2

/-- The call has asked for a trim. -/
def Trimming (entryOf : Nat → AuditEntry) (every me : Nat) (x : World (ω × List Report)) : Prop :=
  Counted entryOf every me [] x ∧ .trimming me (entryOf me).tenant ∈ x.env.2

/-- The entry was given up, and the books say so. -/
def GivenUp (entryOf : Nat → AuditEntry) (every me : Nat) (x : World (ω × List Report)) : Prop :=
  Agreed entryOf every [.returned me false] x ∧ reportsOf me x.env.2 = []

variable {c : Outside ω} {timeout : Rat} {keep : Int}

/-- The attempts to append an entry. -/
theorem serves_appendFor (me : Nat) (hdelay : ∀ e a d, ((c.append e).start a).1 = some d → 0 ≤ d) :
    Serves (bookkeeping ω entryOf every) me (appendFor me (c.append (entryOf me)))
      (Untold entryOf every me) (Untold entryOf every me)
      fun _ => Uncounted entryOf every me where
  delay a d hd := hdelay _ a.1 d hd
  start x hx := ⟨fun _ _ => rfl, hx.1.of_same rfl rfl rfl rfl, hx.2⟩
  finish x hx := by
    unfold appendFor
    dsimp only
    cases ((c.append (entryOf me)).finish x.env.1).1 with
    | ok _ =>
      exact ⟨unminded_report rfl, x.env.2, rfl, hx.2, hx.1.sound,
        hx.1.accounts.of_same rfl rfl rfl⟩
    | error f => exact ⟨fun _ _ => rfl, hx.1.of_same rfl rfl rfl rfl, hx.2⟩
  warn x f hx := ⟨hx.1.of_same rfl rfl rfl rfl, hx.2⟩
  holds x hx := hx.1
  stable x x' hx hh hm := ⟨hh, hm.trans hx.2⟩
  again x hx := hx

/-- The attempts to trim: the first is a request, and the others repeat it. -/
theorem serves_trimFor (me : Nat) (hdelay : ∀ t k a d, ((c.trim t k).start a).1 = some d → 0 ≤ d) :
    Serves (bookkeeping ω entryOf every) me
      (trimFor me (entryOf me).tenant (c.trim (entryOf me).tenant keep))
      (Counted entryOf every me [.trimming me (entryOf me).tenant]) (Trimming entryOf every me)
      fun _ => Trimming entryOf every me where
  delay a d hd := hdelay _ _ a.1 d hd
  start x hx := ⟨unminded_report rfl,
    ⟨⟨.trimming hx.1.sound hx.2, hx.1.accounts.of_same rfl rfl rfl⟩, List.mem_cons_of_mem _ hx.2⟩,
    List.mem_cons_self⟩
  finish x hx := by
    have hsame : Trimming entryOf every me { x with env :=
        ((trimFor me (entryOf me).tenant (c.trim (entryOf me).tenant keep)).finish x.env).2 } :=
      ⟨⟨hx.1.1.of_same rfl rfl rfl rfl, hx.1.2⟩, hx.2⟩
    refine ⟨fun _ _ => rfl, ?_⟩
    cases ((trimFor me (entryOf me).tenant (c.trim (entryOf me).tenant keep)).finish x.env).1 with
    | ok _ => exact hsame
    | error _ => exact hsame
  warn x f hx := ⟨⟨hx.1.1.of_same rfl rfl rfl rfl, hx.1.2⟩, hx.2⟩
  holds x hx := hx.1.1
  stable x x' hx hh hm := ⟨⟨hh, mem_of_meanwhile (r := .appended me) hm hx.1.2⟩,
    mem_of_meanwhile (r := .trimming me _) hm hx.2⟩
  again x hx := ⟨⟨hx.1.1.sound, hx.1.1.accounts.again hx.2⟩, hx.1.2⟩

/-- **A record** ends with a truth value.  If it is false the books know, and the reports are to say
so. -/
theorem paces_recordFor (me : Nat)
    (happend : ∀ e a d, ((c.append e).start a).1 = some d → 0 ≤ d)
    (htrim : ∀ t k a d, ((c.trim t k).start a).1 = some d → 0 ≤ d) (hevery : 0 < every) :
    Paces (bookkeeping ω entryOf every) me 10
      (fun j => j.hand.Unarmed ∧ Untold entryOf every me j.shared)
      (record (delivering timeout keep every) (some (c.sinkFor me)) (entryOf me)) fun r j =>
        ∃ b : Bool, r = .ok b ∧ j.hand.Unarmed ∧
          if b then Counted entryOf every me [] j.shared else GivenUp entryOf every me j.shared := by
  have hothers : Oblivious (bookkeeping ω entryOf every) me := oblivious_bookkeeping me
  have hdelivery : Paces (bookkeeping ω entryOf every) me 5
      (fun j => j.hand.Unarmed ∧ Untold entryOf every me j.shared)
      (withRetries (some timeout) defaultAttempts (appendFor me (c.append (entryOf me))).make)
      fun r j => j.hand.Unarmed ∧ Attempted (Untold entryOf every me)
        (fun _ => Uncounted entryOf every me) r j.shared :=
    (serves_appendFor me happend).paces_withRetries id hothers timeout defaultAttempts
  have htrimmed : Paces (bookkeeping ω entryOf every) me 5
      (fun j => j.hand.Unarmed ∧
        Counted entryOf every me [.trimming me (entryOf me).tenant] j.shared)
      (trim (delivering timeout keep every) (c.sinkFor me) (entryOf me).tenant) fun r j =>
        r = .ok () ∧ j.hand.Unarmed ∧ Counted entryOf every me [] j.shared :=
    paces_trim hothers
      ((serves_trimFor me htrim).paces_withRetries id hothers timeout defaultAttempts)
      (fun x hx => hx.1) (fun x _ hx => ⟨hx.1.1.of_same rfl rfl rfl rfl, hx.1.2⟩)
      fun x _ hx => ⟨hx.1.1.of_same rfl rfl rfl rfl, hx.1.2⟩
  have hstored : Paces (bookkeeping ω entryOf every) me 5
      (fun j => j.hand.Unarmed ∧ Uncounted entryOf every me j.shared)
      (stored (delivering timeout keep every) (c.sinkFor me) (entryOf me).tenant) fun r j =>
        r = .ok () ∧ j.hand.Unarmed ∧ Counted entryOf every me [] j.shared := by
    refine paces_storedEvery hothers hevery (fun x hx => ?_) htrimmed
    obtain ⟨before, hreports, hnew, hsound, haccounts⟩ := hx
    have hcount := haccounts.count hnew
    rw [← hreports] at hcount
    have hnow : Sound entryOf x.env.2 := hreports ▸ hsound.appended hnew
    have hin : .appended me ∈ x.env.2 := hreports ▸ List.mem_cons_self
    split
    · rename_i hfull
      rw [if_pos hfull] at hcount
      exact ⟨⟨hnow, hcount⟩, hin⟩
    · rename_i hroom
      rw [if_neg hroom] at hcount
      exact ⟨⟨hnow, hcount⟩, hin⟩
  exact paces_record hothers (fun x hx => ⟨hx.1.of_same rfl rfl rfl rfl, hx.2⟩) hdelivery hstored
    fun x f hx => ⟨⟨hx.1.sound, hx.1.accounts.refuse me f⟩, hx.2⟩

/-- **A call** comes to its end with a truth value, and is reported. -/
theorem paces_call (me : Nat) (after : Rat)
    (happend : ∀ e a d, ((c.append e).start a).1 = some d → 0 ≤ d)
    (htrim : ∀ t k a d, ((c.trim t k).start a).1 = some d → 0 ≤ d) (hevery : 0 < every) :
    Paces (bookkeeping ω entryOf every) me 11
      (fun j => j.hand.Unarmed ∧ Untold entryOf every me j.shared)
      (call (delivering timeout keep every) c me after (entryOf me)) fun r j =>
        ∃ b : Bool, r = .ok b ∧ j.hand.Unarmed ∧ Agreed entryOf every [] j.shared ∧
          .returned me b ∈ j.shared.env.2 := by
  have hwaited : Paces (bookkeeping ω entryOf every) me 1
      (fun j => j.hand.Unarmed ∧ Untold entryOf every me j.shared) (Act.sleep (some after))
      fun r j => r = .ok () ∧ j.hand.Unarmed ∧ Untold entryOf every me j.shared := by
    refine (paces_nap after (fun _ hj => hj.2.1) fun _ hj => hj.1).weaken (fun _ hj => hj) ?_
    rintro r j ⟨hok, hclean, hholds, j₀, hj, hm, -⟩
    exact ⟨hok, by rw [hclean]; trivial, hholds, hm.trans hj.2.2⟩
  have hreport : ∀ b : Bool, Paces (bookkeeping ω entryOf every) me 0
      (fun j => j.hand.Unarmed ∧
        if b then Counted entryOf every me [] j.shared else GivenUp entryOf every me j.shared)
      (Act.modify fun w => { w with env := (w.env.1, .returned me b :: w.env.2) }) fun r j =>
        r = .ok () ∧ j.hand.Unarmed ∧ Agreed entryOf every [] j.shared ∧
          .returned me b ∈ j.shared.env.2 := by
    refine fun b => paces_modify (fun _ _ => unminded_report rfl) fun j hj =>
      ⟨rfl, hj.1, ?_, List.mem_cons_self⟩
    cases b with
    | true =>
      exact ⟨.accepted hj.2.1.sound hj.2.2, (hj.2.1.accounts.accept me).of_same rfl rfl rfl⟩
    | false => exact ⟨.refused hj.2.1.sound hj.2.2, hj.2.1.accounts.of_same rfl rfl rfl⟩
  refine Paces.bind (n := 1) (l := 10) hwaited (fun _ => ?_) fun e j he => nomatch he.1
  refine Paces.bind (n := 10) (l := 0)
    ((paces_recordFor me happend htrim hevery).weaken (fun j hj => hj.2) fun _ _ hr => hr)
    (fun b => ?_) fun e j he => ?_
  · refine Paces.bind (n := 0) (l := 0) ((hreport b).weaken (fun j hj => ?_) fun _ _ hr => hr)
      (fun _ => paces_pure fun j hj => ⟨b, rfl, hj.2⟩) fun e j he => nomatch he.1
    obtain ⟨_, heq, hunarmed, hstage⟩ := hj
    cases heq
    exact ⟨hunarmed, hstage⟩
  · obtain ⟨_, heq, -⟩ := he
    cases heq

/-! ### All calls -/

/-- A log that was not used yet. -/
structure Unused (x : World (ω × List Report)) : Prop where
  reports : x.env.2 = []
  journal : x.journal = []
  failures : x.auditFailures = 0
  appends : x.auditAppends = []

theorem Unused.agreed (h : Unused x) :
    (bookkeeping ω entryOf every).holds x ∧ ∀ n, (bookkeeping ω entryOf every).fresh n x := by
  have hsound : Sound entryOf x.env.2 := h.reports ▸ .nil
  have haccounts : Accounts entryOf every x.env.2 x := by
    rw [h.reports]
    refine ⟨h.failures, ?_, fun t => ?_, fun t => ?_⟩
    · rw [h.journal]
      rfl
    · rw [h.appends]
      rfl
    · rw [h.appends]
      exact (Nat.zero_div every).symm
  exact ⟨⟨hsound, haccounts⟩, fun n => congrArg (reportsOf n) h.reports⟩

/-- The call that comes in under a number. -/
def Calls (s : Settings) (c : Outside ω) (entryOf : Nat → AuditEntry) (after : Nat → Rat) (n : Nat)
    (body : Task (World (ω × List Report)) Product) : Prop :=
  body = Act.toTask .flag (call s c n (after n) (entryOf n))

/-- What a call was told that has ended. -/
def told {σ : Type} (k : Scheduler σ Product) (n : Nat) : Option Bool :=
  match k.statusOf n with
  | .ended (.ok (.flag b)) => some b
  | _ => none

/-- The calls that were told this. -/
def callsTold {σ : Type} (k : Scheduler σ Product) (b : Bool) (crew : List Nat) : List Nat :=
  crew.filter fun n => told k n == some b

variable {after : Nat → Rat} {crew : List Nat} {k : Scheduler (World (ω × List Report)) Product}

theorem Calls.paced (happend : ∀ e a d, ((c.append e).start a).1 = some d → 0 ≤ d)
    (htrim : ∀ t k a d, ((c.trim t k).start a).1 = some d → 0 ≤ d) (hevery : 0 < every)
    {body : Task (World (ω × List Report)) Product}
    (h : Calls (delivering timeout keep every) c entryOf after me body) : ∃ n, ∀ x clock,
      (bookkeeping ω entryOf every).holds x → (bookkeeping ω entryOf every).fresh me x →
      body.Paced (bookkeeping ω entryOf every) me n ⟨x, clock, .clean⟩ := by
  refine ⟨11, fun x clock hholds hfresh => ?_⟩
  rw [h]
  refine (paces_call me (after me) happend htrim hevery).toTask ⟨trivial, hholds, hfresh⟩ ?_
  rintro _ j ⟨b, rfl, hunarmed, hagreed, hreported⟩
  exact ⟨hunarmed, hagreed, b, rfl, hreported⟩

/-! ### All calls together -/

/-- All calls have ended. -/
structure Concluded (entryOf : Nat → AuditEntry) (every : Nat) (crew : List Nat)
    (k : Scheduler (World (ω × List Report)) Product) : Prop where
  agreed : Agreed entryOf every [] k.shared
  nodup : crew.Nodup
  others : ∀ n, n ∉ crew → reportsOf n k.shared.env.2 = []
  ended : ∀ n ∈ crew, ∃ b, k.statusOf n = .ended (.ok (.flag b)) ∧
    .returned n b ∈ k.shared.env.2

/-- The reports say what the calls were told. -/
theorem Concluded.mem_callsTold (h : Concluded entryOf every crew k) (b : Bool) :
    n ∈ callsTold k b crew ↔ .returned n b ∈ k.shared.env.2 := by
  have htold : ∀ {m c}, k.statusOf m = .ended (.ok (.flag c)) → told k m = some c :=
    fun heq => by rw [told, heq]
  unfold callsTold
  rw [List.mem_filter, beq_iff_eq]
  constructor
  · rintro ⟨hn, heq⟩
    obtain ⟨c, hended, hreturned⟩ := h.ended n hn
    rw [htold hended] at heq
    cases heq
    exact hreturned
  · intro hb
    have hn : n ∈ crew := by
      by_contra hnot
      exact not_mem_of_reportsOf (h.others n hnot) rfl hb
    obtain ⟨c, hended, hc⟩ := h.ended n hn
    have hsame : b = true ↔ c = true :=
      (h.agreed.sound.returned_iff hb).trans (h.agreed.sound.returned_iff hc).symm
    rw [htold hended, Bool.eq_iff_iff.mpr hsame]
    exact ⟨hn, rfl⟩

theorem Concluded.refused (h : Concluded entryOf every crew k) :
    (refusedTo k.shared.env.2).Perm (callsTold k false crew) :=
  (List.perm_ext_iff_of_nodup h.agreed.sound.nodup_refusedTo (h.nodup.filter _)).mpr fun _ =>
    mem_refusedTo.trans (h.mem_callsTold false).symm

theorem Concluded.accepted (h : Concluded entryOf every crew k) :
    (appendedBy k.shared.env.2).Perm (callsTold k true crew) := by
  have hnodup : (callsTold k true crew).Nodup := h.nodup.filter _
  refine (List.perm_ext_iff_of_nodup h.agreed.sound.nodup_appendedBy hnodup).mpr fun n => ?_
  rw [mem_appendedBy, h.mem_callsTold]
  constructor
  · intro hin
    have hn : n ∈ crew := by
      by_contra hnot
      exact not_mem_of_reportsOf (h.others n hnot) rfl hin
    obtain ⟨b, -, hb⟩ := h.ended n hn
    rwa [(h.agreed.sound.returned_iff hb).mpr hin] at hb
  · exact fun hb => (h.agreed.sound.returned_iff hb).mp rfl

/-- The books are right in the end. -/
theorem Concluded.balance (h : Concluded entryOf every crew k) :
    k.shared.auditFailures = (callsTold k false crew).length ∧
      ((failureRecords k.shared.journal).map (·.context.lookup "audit")).Perm
        ((callsTold k false crew).map fun n => some (entryOf n).toJson) ∧
      ∀ tenant, (trimmedBy tenant k.shared.env.2).dedup.length =
        (callsTold k true crew).countP (fun n => (entryOf n).tenant = tenant) / every := by
  refine ⟨h.agreed.accounts.failures.trans h.refused.length_eq, ?_, fun tenant => ?_⟩
  · rw [h.agreed.accounts.records]
    exact h.refused.map _
  · refine (h.agreed.accounts.trims tenant).trans ?_
    rw [h.agreed.accounts.counts]
    exact congrArg (· / every) (h.accepted.countP_eq _)

/-- **No entry is lost.**  However the calls of a log overlap, and whatever the sink does, they all
come to an end.  Each of them ends with a truth value, which says whether the sink has returned from
one of its appends.  When they have ended, the failures that the log has counted are the calls that
were told that their entry was given up, and for each of these there is one record with the entry;
and the calls that have asked for a trim are as many as are due. -/
theorem records_accounted (c : Outside ω)
    (happend : ∀ e a d, ((c.append e).start a).1 = some d → 0 ≤ d)
    (htrim : ∀ t k a d, ((c.trim t k).start a).1 = some d → 0 ≤ d) (timeout : Rat) (keep : Int)
    (every : Nat) (hevery : 0 < every) (entryOf : Nat → AuditEntry) (after : Nat → Rat)
    {crew : List Nat} {k : Scheduler (World (ω × List Report)) Product}
    (h : k.Session Unused (Calls (delivering timeout keep every) c entryOf after) crew) :
    (∃ n, ∀ t ∈ crew, ∃ b, (k.rounds n).statusOf t = .ended (.ok (.flag b))) ∧
    (∀ t ∈ crew, ∀ r, k.statusOf t = .ended r → ∃ b : Bool, r = .ok (.flag b) ∧
      (b = true ↔ .appended t ∈ k.shared.env.2)) ∧
    ((∀ t ∈ crew, k.statusOf t ≠ .pending) →
      k.shared.auditFailures = (callsTold k false crew).length ∧
      ((failureRecords k.shared.journal).map (·.context.lookup "audit")).Perm
        ((callsTold k false crew).map fun n => some (entryOf n).toJson) ∧
      ∀ tenant, (trimmedBy tenant k.shared.env.2).dedup.length =
        (callsTold k true crew).countP (fun n => (entryOf n).tenant = tenant) / every) := by
  have hlawful : (bookkeeping ω entryOf every).Lawful := bookkeeping_lawful
  have hstart : ∀ x : World (ω × List Report), Unused x → (bookkeeping ω entryOf every).holds x ∧
      ∀ n, (bookkeeping ω entryOf every).fresh n x := fun x hx => hx.agreed
  have hpaced : ∀ me body, Calls (delivering timeout keep every) c entryOf after me body → ∃ n,
      ∀ x clock, (bookkeeping ω entryOf every).holds x → (bookkeeping ω entryOf every).fresh me x →
        body.Paced (bookkeeping ω entryOf every) me n ⟨x, clock, .clean⟩ :=
    fun me body hbody => hbody.paced happend htrim hevery
  obtain ⟨hholds, st, hrhythm⟩ := h.rhythm hlawful id hstart hpaced
  have hended : ∀ t ∈ crew, ∀ r, k.statusOf t = .ended r → ∃ b : Bool, r = .ok (.flag b) ∧
      .returned t b ∈ k.shared.env.2 := by
    intro t ht r hr
    rcases h.ended hlawful id hstart hpaced ht with ⟨r', hr', b, hb, hreturned⟩ | ⟨hpending, -⟩
    · cases hr'.symm.trans hr
      exact ⟨b, hb, hreturned⟩
    · exact nomatch hpending.symm.trans hr
  refine ⟨?_, fun t ht r hr => ?_, fun hall => ?_⟩
  · obtain ⟨n, hnone⟩ := h.settles hlawful id hstart hpaced
    refine ⟨n, fun t ht => ?_⟩
    rcases (h.rounds n).ended hlawful id hstart hpaced ht with ⟨r, hr, b, rfl, -⟩ | ⟨-, hgoes⟩
    · exact ⟨b, hr⟩
    · exact absurd hnone hgoes
  · obtain ⟨b, rfl, hreturned⟩ := hended t ht r hr
    exact ⟨b, rfl, hholds.sound.returned_iff hreturned⟩
  · have hconcluded : Concluded entryOf every crew k := by
      refine ⟨hholds, h.nodup hlawful id hstart hpaced, hrhythm.fresh, fun t ht => ?_⟩
      rcases h.ended hlawful id hstart hpaced ht with ⟨r, hr, b, rfl, hreturned⟩ | ⟨hpending, -⟩
      · exact ⟨b, hr, hreturned⟩
      · exact absurd hpending (hall t ht)
    exact hconcluded.balance

/-- A sink that fails every second append, and never comes back from a trim. -/
def unreliable : Outside Nat where
  append _ := ⟨fun n => (some 1, n), fun n =>
    (if n % 2 = 1 then .error (.of .auditSink []) else .ok (), n + 1)⟩
  trim _ _ := ⟨fun n => (none, n), fun n => (.ok 0, n)⟩

/-- The body of a call with an empty entry. -/
def plainCall (n : Nat) : Task (World (Nat × List Report)) Product :=
  Act.toTask .flag (call (delivering 2 10 1) unreliable n 0 default)

/-- Two calls overlap. -/
def twoCalls : Scheduler (World (Nat × List Report)) Product :=
  (Scheduler.addTask (Scheduler.addTask { shared := { env := (0, []) } } false (plainCall 0)).2 false
    (plainCall 1)).2

theorem records_accounted_twoCalls : ∃ n, let k := twoCalls.rounds n
    (∀ t ∈ [1, 0], ∃ b, k.statusOf t = .ended (.ok (.flag b)) ∧
      (b = true ↔ .appended t ∈ k.shared.env.2)) ∧
    k.shared.auditFailures = (callsTold k false [1, 0]).length ∧
    ((failureRecords k.shared.journal).map (·.context.lookup "audit")).Perm
      ((callsTold k false [1, 0]).map fun _ => some (default : AuditEntry).toJson) ∧
    ∀ tenant, (trimmedBy tenant k.shared.env.2).dedup.length =
      (callsTold k true [1, 0]).countP (fun _ => (default : AuditEntry).tenant = tenant) / 1 := by
  have happend : ∀ e a d, ((unreliable.append e).start a).1 = some d → 0 ≤ d :=
    fun _ _ d hd => by cases hd; decide
  have htrim : ∀ t k a d, ((unreliable.trim t k).start a).1 = some d → 0 ≤ d :=
    fun _ _ _ d hd => by cases hd
  have hsession : twoCalls.Session Unused
      (Calls (delivering 2 10 1) unreliable (fun _ => default) fun _ => 0) [1, 0] :=
    .arrive (.arrive (.start ⟨rfl, rfl, rfl, rfl⟩) rfl) rfl
  obtain ⟨n, hended⟩ := (records_accounted unreliable happend htrim 2 10 1 (by decide)
    (fun _ => default) (fun _ => 0) hsession).1
  obtain ⟨-, htold, hbalance⟩ := records_accounted unreliable happend htrim 2 10 1 (by decide)
    (fun _ => default) (fun _ => 0) (hsession.rounds n)
  refine ⟨n, fun t ht => ?_, hbalance fun t ht hpending => ?_⟩
  · obtain ⟨b, hb⟩ := hended t ht
    obtain ⟨b', heq, hiff⟩ := htold t ht _ hb
    cases heq
    exact ⟨b, hb, hiff⟩
  · obtain ⟨b, hb⟩ := hended t ht
    exact nomatch hpending.symm.trans hb

end ChatCommands.Audit
