import ChatCommands.Proofs.Audit.Store
import ChatCommands.Proofs.Delivery.Attempts

/-!
The steps of a record.

A record ends with a truth value, whatever the sink does: the entry is appended and counted, and it may
be time to trim, or it is given up.  What holds before and after these steps is a parameter here.  Main
statement: `paces_record`.
-/

namespace ChatCommands.Audit

open Concurrency Act Delivery

variable {ω : Type} {P : Pact (World ω) Product} {me n : Nat} {s : Settings} {sink : Sink ω}
  {tenant : Text} {e : AuditEntry} {before amid appended due trimmed given finished : World ω → Prop}

/-- The record about an entry that was given up. -/
def failureRecord (e : AuditEntry) (f : Fault) : LogRecord :=
  ⟨.error, .audit, text "Audit write failed", ("audit", e.toJson) :: faultContext f⟩

/-- The state after an entry was given up. -/
def afterGivingUp (e : AuditEntry) (f : Fault) (w : World ω) : World ω :=
  { w with auditFailures := w.auditFailures + 1, journal := failureRecord e f :: w.journal }

/-- The state after one more entry of a tenant was counted. -/
def afterCounting (tenant : Text) (w : World ω) : World ω :=
  { w with auditAppends := (countAppend tenant w.auditAppends).2 }

theorem paces_log (hothers : Oblivious P me) {level : Level} {component : Component} {message : Text}
    {context : List (String × Json)} (h : ∀ w, before w →
      finished { w with journal := ⟨level, component, message, context⟩ :: w.journal }) :
    Paces P me 0 (fun j => j.hand.Unarmed ∧ before j.shared)
      (Action.log level component message context) fun r j =>
        r = .ok () ∧ j.hand.Unarmed ∧ finished j.shared :=
  paces_modify (fun _ _ => hothers _ _ rfl) fun j hj => ⟨rfl, hj.1, h j.shared hj.2⟩

/-- A trim ends, and may have written a record. -/
theorem paces_trim (hothers : Oblivious P me)
    (hdelivery : Paces P me n (fun j => j.hand.Unarmed ∧ due j.shared)
      (withRetries s.timeout defaultAttempts (sink.trim tenant s.retention)) fun r j =>
        j.hand.Unarmed ∧ Attempted amid (fun _ => trimmed) r j.shared)
    (htrimmed : ∀ w, trimmed w → finished w)
    (hremoved : ∀ w context, trimmed w → finished
      { w with journal := ⟨.debug, .audit, text "Audit trimmed", context⟩ :: w.journal })
    (hfailed : ∀ w context, amid w → finished
      { w with journal := ⟨.error, .audit, text "Audit trim failed", context⟩ :: w.journal }) :
    Paces P me n (fun j => j.hand.Unarmed ∧ due j.shared) (trim s sink tenant) fun r j =>
      r = .ok () ∧ j.hand.Unarmed ∧ finished j.shared := by
  have hrequest : Paces P me n (fun j => j.hand.Unarmed ∧ due j.shared)
      (do
        let removed ← withRetries s.timeout defaultAttempts (sink.trim tenant s.retention)
        if removed ≠ 0 then
          Action.log .debug .audit (text "Audit trimmed")
            [("tenant_id", .str tenant), ("removed", .int removed)])
      fun r j => j.hand.Unarmed ∧ Attempted amid (fun _ => finished) r j.shared := by
    refine Paces.mono (hdelivery.bind (l := 0) (fun removed => ?_) fun e j hj => ?_)
      (Nat.zero_add n).le
    · split
      · refine (paces_log hothers fun w hw => hremoved w _ hw).weaken (fun j hj => hj) fun r j hr => ?_
        obtain ⟨rfl, hunarmed, hfinished⟩ := hr
        exact ⟨hunarmed, hfinished⟩
      · exact paces_pure fun j hj => ⟨hj.1, htrimmed _ hj.2⟩
    · cases e with
      | fault f => exact hj
      | interrupted => exact hj
  unfold trim
  refine Paces.mono (hrequest.recover (l := 0) (fun f => ?_) (fun a j hj => ⟨rfl, hj⟩)
    fun j hj => hj.2.elim) (Nat.zero_add n).le
  exact (paces_log hothers fun w hw => hfailed w _ hw).weaken (fun j hj => hj) fun _ _ hr => hr

/-- An entry that is stored is counted, and it is trimmed if it is time to. -/
theorem paces_stored (hothers : Oblivious P me) (hevery : s.trimEvery ≠ 0)
    (hcount : ∀ w, appended w →
      if ((countOf tenant w.auditAppends + 1 : Nat) : Int) % s.trimEvery = 0
      then due (afterCounting tenant w) else finished (afterCounting tenant w))
    (htrim : Paces P me n (fun j => j.hand.Unarmed ∧ due j.shared) (trim s sink tenant) fun r j =>
      r = .ok () ∧ j.hand.Unarmed ∧ finished j.shared) :
    Paces P me n (fun j => j.hand.Unarmed ∧ appended j.shared) (stored s sink tenant) fun r j =>
      r = .ok () ∧ j.hand.Unarmed ∧ finished j.shared := by
  unfold stored
  refine paces_of_forall fun j hj => ?_
  have hnext := hcount j.shared hj.2
  refine Paces.follow (n := 0) (change_at (hothers _ _ rfl)) ?_
  dsimp only
  rw [if_neg hevery, countAppend_fst]
  split
  · rename_i hdue
    rw [if_pos hdue] at hnext
    exact htrim.weaken (fun j' hj' => hj' ▸ ⟨hj.1, hnext⟩) fun _ _ hr => hr
  · rename_i hnot
    rw [if_neg hnot] at hnext
    exact Paces.mono (paces_pure fun j' hj' => hj' ▸ ⟨rfl, hj.1, hnext⟩) (Nat.zero_le n)

/-- How a log delivers that asks for a trim whenever so many entries of a tenant were stored. -/
def delivering (timeout : Rat) (keep : Int) (every : Nat) : Settings :=
  { timeout := some timeout, retention := keep, trimEvery := every }

theorem paces_storedEvery (hothers : Oblivious P me) {timeout : Rat} {keep : Int} {every : Nat}
    (hevery : 0 < every)
    (hcount : ∀ w, appended w → if (countOf tenant w.auditAppends + 1) % every = 0
      then due (afterCounting tenant w) else finished (afterCounting tenant w))
    (htrim : Paces P me n (fun j => j.hand.Unarmed ∧ due j.shared)
      (trim (delivering timeout keep every) sink tenant) fun r j =>
        r = .ok () ∧ j.hand.Unarmed ∧ finished j.shared) :
    Paces P me n (fun j => j.hand.Unarmed ∧ appended j.shared)
      (stored (delivering timeout keep every) sink tenant) fun r j =>
        r = .ok () ∧ j.hand.Unarmed ∧ finished j.shared := by
  have htime : ∀ k : Nat, (k : Int) % (every : Int) = 0 ↔ k % every = 0 := fun k => by
    rw [← Int.natCast_mod, Int.natCast_eq_zero]
  refine paces_stored hothers (fun h => ?_) (fun w hw => ?_) htrim
  · exact Nat.pos_iff_ne_zero.mp hevery (Int.natCast_eq_zero.mp h)
  · have hnext := hcount w hw
    split
    · rename_i hdue
      rwa [if_pos ((htime _).mp hdue)] at hnext
    · rename_i hnot
      rwa [if_neg fun hdue => hnot ((htime _).mpr hdue)] at hnext

/-- An entry is given up. -/
theorem paces_giveUp (hothers : Oblivious P me) {f : Fault}
    (h : ∀ w, amid w → given (afterGivingUp e f w)) :
    Paces P me 0 (fun j => j.hand.Unarmed ∧ amid j.shared) (giveUp e f) fun r j =>
      r = .ok () ∧ j.hand.Unarmed ∧ given j.shared := by
  refine paces_of_forall fun j hj => ?_
  refine Paces.follow (change_at (hothers _ _ rfl)) ?_
  exact paces_modify (fun j' _ => hothers _ _ rfl) fun j' hj' => hj' ▸ ⟨rfl, hj.1, h _ hj.2⟩

/-- **A record ends with a truth value**, whatever the sink does. -/
theorem paces_record (hothers : Oblivious P me) {started : World ω → Prop}
    (hnote : ∀ w, started w → before { w with deeds := .recorded e :: w.deeds })
    (hdelivery : Paces P me n (fun j => j.hand.Unarmed ∧ before j.shared)
      (withRetries s.timeout defaultAttempts (sink.append e)) fun r j =>
        j.hand.Unarmed ∧ Attempted amid (fun _ => appended) r j.shared)
    (hstored : Paces P me n (fun j => j.hand.Unarmed ∧ appended j.shared)
      (stored s sink e.tenant) fun r j => r = .ok () ∧ j.hand.Unarmed ∧ finished j.shared)
    (hgiveUp : ∀ w f, amid w → given (afterGivingUp e f w)) :
    Paces P me (n + n) (fun j => j.hand.Unarmed ∧ started j.shared) (record s (some sink) e) fun r j =>
      ∃ b : Bool, r = .ok b ∧ j.hand.Unarmed ∧ if b then finished j.shared else given j.shared := by
  have hattempt : Paces P me n (fun j => j.hand.Unarmed ∧ before j.shared)
      (Act.attempt (withRetries s.timeout defaultAttempts (sink.append e))) fun r j =>
        ∃ r', r = .ok r' ∧ j.hand.Unarmed ∧ Attempted amid (fun _ => appended) r' j.shared :=
    Paces.attempt (hdelivery.weaken (fun _ hj => hj) fun r _ hr => ⟨r, rfl, hr⟩)
  have hnoted : Paces P me 0 (fun j => j.hand.Unarmed ∧ started j.shared)
      (Action.note (.recorded e)) fun r j => r = .ok () ∧ j.hand.Unarmed ∧ before j.shared :=
    paces_modify (fun _ _ => hothers _ _ rfl) fun j hj => ⟨rfl, hj.1, hnote _ hj.2⟩
  unfold record
  refine hnoted.bind (fun _ => ?_) fun e j he => nomatch he.1
  refine Paces.bind (n := n) (l := n) (hattempt.weaken (fun _ hj => hj.2) fun _ _ hr => hr)
    (fun r => ?_) fun e j he => ?_
  · match r with
    | .ok () =>
      refine Paces.mono (Paces.bind (l := 0) (hstored.weaken (fun j hj => ?_) fun _ _ hr => hr)
        (fun _ => paces_pure fun j hj => ⟨true, rfl, hj.2⟩) fun e j he => nomatch he.1)
        (Nat.zero_add n).le
      obtain ⟨_, heq, hunarmed, happended⟩ := hj
      cases heq
      exact ⟨hunarmed, happended⟩
    | .error (.fault f) =>
      refine Paces.mono (Paces.bind (n := 0) (l := 0) ((paces_giveUp hothers
        fun w hw => hgiveUp w f hw).weaken (fun j hj => ?_) fun _ _ hr => hr)
        (fun _ => paces_pure fun j hj => ⟨false, rfl, hj.2⟩) fun e j he => nomatch he.1)
        (Nat.zero_le n)
      obtain ⟨_, heq, hunarmed, hamid⟩ := hj
      cases heq
      exact ⟨hunarmed, hamid⟩
    | .error .interrupted =>
      refine Paces.mono (paces_ofEnding fun j hj => ?_) (Nat.zero_le n)
      obtain ⟨_, heq, -, hnever⟩ := hj
      cases heq
      exact hnever.elim
  · obtain ⟨_, heq, -⟩ := he
    cases heq

end ChatCommands.Audit
