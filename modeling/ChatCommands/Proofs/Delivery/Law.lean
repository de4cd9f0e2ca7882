import ChatCommands.Delivery
import ChatCommands.Proofs.Concurrency.Sessions

/-!
The law of a delivery.

An operation is called until a call is not a failure that is tried again, or until there is no attempt
left.  When a call begins follows from how long the calls before it took; whether it is cut off is
decided by the clock of the scheduler, which takes for the same what lies within its resolution.
-/

namespace ChatCommands.Delivery

open Concurrency Act Scheduler

/-! ### Operations -/

/-- What the calls of an operation do, in order: how long each of them takes, and how it ends. -/
abbrev Behaviour := Nat → Rat × Except Fault Json

/-- The calls so far, latest first: when each was made, and how many records there were by then. -/
abbrev CallLog := List (Rat × Nat)

/-- Something that takes its time and ends so. -/
def lasting {ω : Type} (delay : Rat) (ending : Except Fault Json) : Action ω Json := do
  if delay ≠ 0 then Act.sleep (some delay)
  Act.ofExcept ending

/-- One call of the operation. -/
def call (b : Behaviour) : Action CallLog Json := do
  let now ← Act.now
  let written ← Act.gets fun w => w.journal.length
  let number ← Action.onEnv fun calls => (calls.length, (now, written) :: calls)
  lasting (b number).1 (b number).2

/-- A call that takes so long is cut off if it begins at this time: its time is up when it is to end,
as far as the clock can tell. -/
def IsCut (limit delay begun : Rat) : Prop :=
  delay ≠ 0 ∧ Due (dueAfter begun delay) (dueAfter begun limit)

instance (limit delay begun : Rat) : Decidable (IsCut limit delay begun) :=
  inferInstanceAs (Decidable (_ ∧ (_ ∨ _)))

/-- When a call ends that takes so long. -/
def endOf (limit delay begun : Rat) : Rat :=
  if delay = 0 then begun else min (dueAfter begun delay) (dueAfter begun limit)

variable (limit : Rat) (b : Behaviour)

/-- When a call begins: the first one at once, and each one after a pause. -/
def beginOf : (number : Nat) → Rat
  | 0 => 0
  | number + 1 => dueAfter (endOf limit (b number).1 (beginOf number)) pause

/-- What a call comes to. -/
def verdict (number : Nat) : Except Fault Json :=
  if IsCut limit (b number).1 (beginOf limit b number) then .error (.of .timeout []) else (b number).2

/-- A failure that is tried again. -/
def IsRetryable {α : Type} : Except Fault α → Prop
  | .ok _ => False
  | .error f => f.kind.isRetryable = true

/-- So many calls were made, and so many records written, each about the call before. -/
structure History (calls records : Nat) (w : World CallLog) : Prop where
  calls : w.env.reverse = (List.range calls).map fun i => (beginOf limit b i, i)
  written : w.journal.length = records
  records : ∀ i < records, ∃ f, verdict limit b i = .error f ∧ f.kind.isRetryable = true ∧
    w.journal.reverse[i]? = some (retryRecord f)

variable {limit b} {start : World CallLog} {post : Ending Product → World CallLog → Prop}
  {number calls records : Nat} {w : World CallLog} {j : Juncture (World CallLog)}

theorem History.length_env (h : History limit b calls records w) : w.env.length = calls := by
  have hlength := congrArg List.length h.calls
  simpa using hlength

theorem History.call (h : History limit b number number w) :
    History limit b (number + 1) number { w with
      env := (beginOf limit b number, w.journal.length) :: w.env } := by
  refine ⟨?_, h.written, h.records⟩
  rw [List.range_succ, List.map_append, ← h.calls, h.written]
  exact List.reverse_cons ..

theorem History.retry (h : History limit b (number + 1) number w) {f : Fault}
    (hf : verdict limit b number = .error f) (hretry : f.kind.isRetryable = true) :
    History limit b (number + 1) (number + 1)
      { w with journal := [retryRecord f].reverse ++ w.journal } := by
  refine ⟨h.calls, congrArg (· + 1) h.written, fun i hi => ?_⟩
  have hlist : ([retryRecord f].reverse ++ w.journal).reverse = w.journal.reverse ++ [retryRecord f] :=
    List.reverse_cons ..
  have hlength : w.journal.reverse.length = number := List.length_reverse.trans h.written
  simp only [hlist]
  rcases Nat.lt_succ_iff_lt_or_eq.mp hi with hi | rfl
  · obtain ⟨g, hg, hretry', hrecord⟩ := h.records i hi
    exact ⟨g, hg, hretry', by rw [List.getElem?_append_left (hlength ▸ hi), hrecord]⟩
  · refine ⟨f, hf, hretry, ?_⟩
    rw [← hlength, List.getElem?_concat_length]

/-! ### A call -/

/-- What lasts too long is cut off, and nothing else. -/
theorem paces_lasting {ω : Type} {start s : World ω} {post : Ending Product → World ω → Prop}
    {delay clock : Rat} (hdelay : 0 ≤ delay) (ending : Except Fault Json) (a : Nat) (limit : Rat) :
    Paces (Pact.solo True start post : Pact _ Product) 0 1
      (· = ⟨s, clock, .armed a (dueAfter clock limit)⟩) (lasting delay ending) fun r j =>
        j.shared = s ∧ j.clock = endOf limit delay clock ∧ if IsCut limit delay clock
        then r = .error .interrupted ∧ j.hand = .struck a (dueAfter clock limit)
        else r = ending.mapError .fault ∧ j.hand = .armed a (dueAfter clock limit) := by
  unfold lasting
  by_cases hzero : delay = 0
  · simp only [hzero, ne_eq, not_true_eq_false, if_false]
    refine Paces.mono (paces_ofExcept fun j hj => ?_) (Nat.zero_le 1)
    rw [hj]
    exact ⟨rfl, rfl, by rw [if_neg fun hcut => hcut.1 rfl]; exact ⟨rfl, rfl⟩⟩
  · simp only [ne_eq, hzero, not_false_eq_true, if_true]
    have hrepose : Repose.ofDelay clock (some delay) = .until (dueAfter clock delay) :=
      if_neg (not_le.mpr (lt_of_le_of_ne hdelay (Ne.symm hzero)))
    have hend : endOf limit delay clock = min (dueAfter clock delay) (dueAfter clock limit) :=
      if_neg hzero
    refine ((paces_sleep (some delay) (fun _ _ => trivial) fun j hj => ?_).bind (fun _ =>
      paces_ofExcept fun j hj => ?_) fun e j hj => ?_)
    · rw [hj, hrepose]
      trivial
    · obtain ⟨_, rfl, -, hm, answer, hanswer, hw⟩ := hj
      obtain ⟨s', clock', hand⟩ := j
      dsimp only at hw
      rw [hrepose] at hw
      cases hw with
      | rested hunarmed => exact hunarmed.elim
      | inTime hdue _ hearly halone =>
        obtain rfl : clock' = dueAfter clock delay := halone trivial
        have hnot : ¬ IsCut limit delay clock := fun hcut => hearly hcut.2
        have hlt : dueAfter clock delay ≤ dueAfter clock limit :=
          le_of_lt (lt_of_not_ge fun hle => hearly (.inl hle))
        exact ⟨hm rfl, by rw [hend, min_eq_left hlt], by rw [if_neg hnot]; exact ⟨rfl, rfl⟩⟩
      | cut => cases hanswer
    · obtain ⟨_, rfl, -, hm, answer, hanswer, hw⟩ := hj
      obtain ⟨s', clock', hand⟩ := j
      dsimp only at hw
      rw [hrepose] at hw
      cases hw with
      | rested hunarmed => exact hunarmed.elim
      | inTime => cases hanswer
      | cut hlimit hle _ halone =>
        obtain rfl := halone trivial
        have hcut : IsCut limit delay clock := by
          refine ⟨hzero, ?_⟩
          rcases min_choice (dueAfter clock delay) (dueAfter clock limit) with heq | heq
          · exact heq ▸ hlimit
          · exact .inl (heq ▸ min_le_left ..)
        cases hanswer
        exact ⟨hm rfl, hend.symm, by rw [if_pos hcut]; exact ⟨rfl, rfl⟩⟩

theorem solo_onEnv {ω α : Type} {start : World ω} {post : Ending Product → World ω → Prop}
    {j : Juncture (World ω)} {f : ω → α × ω} :
    Paces (Pact.solo True start post) 0 0 (· = j) (Action.onEnv f) fun r j' =>
      r = .ok (f j.shared.env).1 ∧
        j' = { j with shared := { j.shared with env := (f j.shared.env).2 } } :=
  solo_change

/-- The task is about to make the call with this number. -/
structure Calling (limit : Rat) (b : Behaviour) (number : Nat) (j : Juncture (World CallLog)) :
    Prop where
  history : History limit b number number j.shared
  clock : j.clock = beginOf limit b number
  hand : j.hand = .clean

/-- The task has made the call with this number. -/
structure Called (limit : Rat) (b : Behaviour) (number : Nat) (r : Ending Json)
    (j : Juncture (World CallLog)) : Prop where
  history : History limit b (number + 1) number j.shared
  clock : j.clock = endOf limit (b number).1 (beginOf limit b number)
  hand : j.hand = .spent
  ending : r = (verdict limit b number).mapError .fault

theorem Called.fault {f : Fault} (hj : Called limit b number (.error (.fault f)) j) :
    verdict limit b number = .error f := by
  have hending := hj.ending
  cases hv : verdict limit b number with
  | ok a => rw [hv] at hending; cases hending
  | error g => rw [hv] at hending; cases hending; rfl

theorem Called.value {a : Json} (hj : Called limit b number (.ok a) j) :
    verdict limit b number = .ok a := by
  have hending := hj.ending
  cases hv : verdict limit b number with
  | ok a => rw [hv] at hending; cases hending; rfl
  | error g => rw [hv] at hending; cases hending

theorem Called.not_interrupted : ¬ Called limit b number (.error .interrupted) j := by
  intro hj
  have hending := hj.ending
  cases hv : verdict limit b number with
  | ok a => rw [hv] at hending; cases hending
  | error g => rw [hv] at hending; cases hending

/-- **A call** is made. -/
theorem paces_call (hdelay : 0 ≤ (b number).1) :
    Paces (Pact.solo True start post) 0 1 (Calling limit b number) (Act.within (some limit) (call b))
      (Called limit b number) := by
  refine Paces.within (fun j hj => ?_) (fun j hj _ => hj.hand) fun a => ?_
  · rw [hj.hand]
    trivial
  · refine paces_of_forall ?_
    rintro _ ⟨j, hj, rfl⟩
    have hnumber := hj.history.length_env
    refine solo_now.follow (solo_gets.follow (solo_onEnv.follow ?_))
    dsimp only
    rw [hnumber, hj.clock]
    refine (paces_lasting hdelay (b number).2 a limit).weaken (fun j hj => hj) fun r j' hr => ?_
    obtain ⟨hshared, hclock, hr⟩ := hr
    have hhistory : History limit b (number + 1) number j'.shared := hshared ▸ hj.history.call
    unfold Limited
    split at hr
    · rename_i hcut
      rw [hr.2]
      exact ⟨rfl, hr.1, hhistory, hclock, rfl, by rw [verdict, if_pos hcut]; rfl⟩
    · rename_i hcut
      rw [hr.2]
      exact ⟨rfl, hhistory, hclock, rfl, by rw [verdict, if_neg hcut]; exact hr.1⟩

/-! ### All calls -/

/-- The call with the number `last` was the last one, and has ended the delivery. -/
def Delivered (limit : Rat) (b : Behaviour) (most : Nat) (r : Ending Json)
    (j : Juncture (World CallLog)) : Prop :=
  ∃ last ≤ most, Called limit b last r j ∧ (last = most ∨ ¬ IsRetryable (verdict limit b last))

/-- After a failure that is tried again, the next call is made after a pause. -/
theorem paces_retry {f : Fault} (hretry : f.kind.isRetryable = true)
    (hj : Called limit b number (.error (.fault f)) j) :
    Paces (Pact.solo True start post) 0 1 (· = j)
      (do Action.logAll [retryRecord f]; Act.sleep (some pause)) fun r j' =>
        r = .ok () ∧ Calling limit b (number + 1) j' := by
  have hpause : Scheduler.resolution ≤ pause := by decide +kernel
  refine (solo_change.follow (solo_nap trivial hpause (by decide +kernel) ?_)).weaken (fun j' hj' => hj')
    fun r j' hr => ⟨hr.1, ?_⟩
  · change j.hand.Unarmed
    rw [hj.hand]
    trivial
  · rw [hr.2]
    exact ⟨hj.history.retry hj.fault hretry, by rw [beginOf, ← hj.clock], rfl⟩

/-- **The attempts of a delivery.** -/
theorem paces_attempts (hdelay : ∀ i, 0 ≤ (b i).1) (more number : Nat) :
    Paces (Pact.solo True start post) 0 (2 * more + 1) (Calling limit b number)
      (attempts (some limit) (call b) more) (Delivered limit b (number + more)) := by
  induction more generalizing number with
  | zero =>
    exact (paces_call (hdelay number)).weaken (fun _ hj => hj) fun r j hr =>
      ⟨number, le_rfl, hr, .inl rfl⟩
  | succ more ih =>
    have hhandle : ∀ f, Paces (Pact.solo True start post) 0 (2 * more + 1 + 1)
        (Called limit b number (.error (.fault f)))
        (if f.kind.isRetryable then do
            Action.logAll [retryRecord f]
            Act.sleep (some pause)
            attempts (some limit) (call b) more
          else Act.throw f) (Delivered limit b (number + (more + 1))) := by
      intro f
      split
      · rename_i hretry
        refine paces_of_forall fun j hj => ?_
        have hagain : Paces (Pact.solo True start post) 0 1 (· = j) _ _ := paces_retry hretry hj
        have hnext := hagain.bind
          (fun _ => (ih (number + 1)).weaken (fun _ hj' => hj'.2) fun _ _ hr => hr)
          fun e j' he => nomatch he.1
        rwa [Nat.add_right_comm number 1 more] at hnext
      · rename_i hgiveUp
        exact Paces.mono (paces_ofEnding fun j hj => ⟨number, Nat.le_add_right .., hj,
          .inr (hj.fault ▸ hgiveUp)⟩) (Nat.zero_le _)
    exact (paces_call (hdelay number)).recover hhandle (fun a j hj => ⟨number, Nat.le_add_right ..,
      hj, .inr (hj.value ▸ id)⟩) fun j hj => hj.not_interrupted.elim

/-! ### Deliveries -/

/-- The task that delivers, with so many attempts. -/
def delivery (limit : Rat) (count : Int) (b : Behaviour) : Scheduler (World CallLog) Product :=
  (Scheduler.addTask { shared := { env := [] } } false
    (Act.toTask .report (withRetries (some limit) count (call b)))).2

theorem delivery_ends (limit : Rat) (count : Int) (hdelay : ∀ i, 0 ≤ (b i).1) :
    ∃ (k : Scheduler (World CallLog) Product) (last : Nat),
      (∃ n, ∀ m, n ≤ m → (delivery limit count b).runUntil 0 m = k) ∧
      (last + 1 : Int) ≤ max count 1 ∧
      ((last + 1 : Int) = max count 1 ∨ ¬ IsRetryable (verdict limit b last)) ∧
      History limit b (last + 1) last k.shared ∧
      k.statusOf 0 = .ended (((verdict limit b last).mapError .fault).map .report) := by
  have hstart : Calling limit b 0 ⟨{ env := [] }, 0, .clean⟩ := ⟨⟨rfl, rfl, nofun⟩, rfl, rfl⟩
  have hpaced : (Act.toTask Product.report (withRetries (some limit) count (call b))).Paced
      (.solo True { env := [] } fun r w => ∃ r' j, j.shared = w ∧ r'.map Product.report = r ∧
        Delivered limit b (0 + (count - 1).toNat) r' j) 0 (2 * (count - 1).toNat + 1)
      ⟨{ env := [] }, 0, .clean⟩ :=
    (paces_attempts hdelay (count - 1).toNat 0).toTask hstart fun r j hr =>
      ⟨by obtain ⟨last, -, hcalled, -⟩ := hr; rw [hcalled.hand]; trivial, trivial,
        fun _ => ⟨r, j, rfl, rfl, hr⟩⟩
  obtain ⟨k, hruns, r, hr, r', j, hshared, rfl, last, hle, hcalled, hlast⟩ := solo_ends hpaced
  have hmost : ((count - 1).toNat + 1 : Int) = max count 1 := by omega
  refine ⟨k, last, hruns, by omega, ?_, hshared ▸ hcalled.history, hcalled.ending ▸ hr⟩
  refine hlast.imp_left fun heq => ?_
  omega

/-- A transient failure, one call that lasts too long, and one that returns in time. -/
def recovering : Behaviour
  | 0 => (0, .error (.of .auditSink []))
  | 1 => (2, .ok .null)
  | _ => (mkRat 1 2, .ok (.bool true))

/-- Something that returns a value when its time is almost up. -/
def lastMoment : Behaviour := fun _ => (mkRat 9999999999 10000000000, .ok (.int 1))

end ChatCommands.Delivery
