import ChatCommands.Proofs.Concurrency.Timekeeping
import ChatCommands.Proofs.Engine.Milestones

/-!
Where the results of messages come from.

A message that has matched a command comes to a result by the limiter, the review, the languages of the
pool, its run, or its deadline.  Faults of the review and of the run are told apart by their kind alone:
one of the kind `timeout` counts as a deadline that was up, and of any other a record is written.  The
settlements of an engine are attributed to their origins, and the records to the settlements.
-/

namespace ChatCommands

open Concurrency

variable {ω : Type}

/-- What a runtime has come to in a call that was not interrupted. -/
structure Report where
  call : RuntimeCall
  ending : Except Fault RunResult

/-- What a message with its command has come to. -/
structure Settlement where
  number : Nat
  message : Message
  command : Command
  result : RunResult

/-- The settlement that a deed tells of. -/
def Deed.settlement? : Deed → Option Settlement
  | .concluded n m c result _ => some ⟨n, m, c, result⟩
  | _ => none

/-- How many messages an engine has taken in, what they have come to, the records that work has failed,
and the reports of runtimes, latest first. -/
structure Upshot where
  messages : Nat
  settlements : List Settlement
  failures : List LogRecord
  reports : List Report

namespace World

/-- What messages have come to, latest first. -/
def settlements (w : World ω) : List Settlement := w.deeds.filterMap Deed.settlement?

/-- The upshot of an engine's work, with the reports in a part of its environment. -/
def upshot (p : Part ω (List Report)) (w : World ω) : Upshot :=
  ⟨w.messages, w.settlements, w.failures, p.get w.env⟩

theorem settlements_milestones (ds : List Deed) :
    (ds.filter Deed.isMilestone).filterMap Deed.settlement? = ds.filterMap Deed.settlement? := by
  induction ds with
  | nil => rfl
  | cons d ds ih =>
    cases d with
    | received | listed => exact ih
    | concluded n m c result _ => exact congrArg (⟨n, m, c, result⟩ :: ·) ih
    | _ => exact ih

instance distant_upshot {p : Part ω (List Report)} : Distant (upshot p) where
  eq_of {w w'} hmessages hmilestones henv _ _ hfailures := by
    have hsettlements : w.settlements = w'.settlements := by
      rw [settlements, settlements, ← settlements_milestones w.deeds, ← settlements_milestones w'.deeds]
      exact congrArg _ hmilestones
    rw [upshot, upshot, hmessages, hsettlements, hfailures, henv]

end World

namespace Engine

variable {e : Setup ω} {p : Part ω (List Report)} {late late' : Prop} {m : Message} {c : Command}
  {result : RunResult} {f? : Option Fault} {report? : Option Report}

/-! ### Reports -/

/-- What a runtime reports of an ending of a call. -/
def reported (call : RuntimeCall) : Ending RunResult → Option Report
  | .ok result => some ⟨call, .ok result⟩
  | .error (.fault f) => some ⟨call, .error f⟩
  | .error .interrupted => none

/-- A call of a runtime that reports how it ends. -/
def reportingCall (p : Part ω (List Report)) (call : RuntimeCall) (run : Action ω RunResult) :
    Action ω RunResult := do
  let r ← Act.attempt run
  p.modify ((reported call r).toList ++ ·)
  Act.ofEnding r

/-- The runtimes, each of which reports how its calls end. -/
def reporting (p : Part ω (List Report)) (rs : Runtimes ω) : Runtimes ω :=
  rs.map fun (l, run) => (l, fun code bindings timeout =>
    reportingCall p ⟨l, code, bindings, timeout⟩ (run code bindings timeout))

/-! ### Origins -/

/-- The deadline of a message that has come in at one time is up at another time. -/
def Setup.Overdue (e : Setup ω) (received now : Rat) : Prop :=
  ∃ d, (e.config.messageDeadline none).toRat? = some d ∧
    Scheduler.Due now (Binary64.snap (received + d))

theorem Setup.Overdue.mono {received received' now now' : Rat} (h : e.Overdue received now)
    (hreceived : received' ≤ received) (hnow : now ≤ now') : e.Overdue received' now' := by
  obtain ⟨d, hd, hdue⟩ := h
  refine ⟨d, hd, (hdue.anti ?_).mono hnow⟩
  exact Binary64.snap_mono (add_le_add_left hreceived d)

/-- The fault, if a record is written of it. -/
def unexpected? (f : Fault) : Option Fault := if f.kind = .timeout then none else some f

/-- Where the result of a message and its command comes from, if the deadline was up or was not.  The
fault is the one of which a record is written, and the report is the one of the run. -/
inductive Origin (e : Setup ω) (late : Prop) (m : Message) (c : Command) :
    RunResult → Option Fault → Option Report → Prop
  | denied (d : Decision) : Origin e late m c (rateLimited d) none none
  | unreviewed {f : Fault} (h : e.review c.language c.code = .error f) :
    Origin e late m c (failureResult e f) (unexpected? f) none
  | rejected {records : List LogRecord} {v : Verdict}
    (h : e.review c.language c.code = .ok (records, v)) (hv : v.ok = false) :
    Origin e late m c (rejected v) none none
  | unsupported (hreview : ∃ records v, e.review c.language c.code = .ok (records, v) ∧ v.ok = true)
    (h : runtimeLanguage? e c = none) : Origin e late m c (unsupportedLanguage c) none none
  | returned {l : Language} (hc : Cleared e c l) (result : RunResult) :
    Origin e late m c result none (some ⟨callFor e m c l, .ok result⟩)
  | raised {l : Language} (hc : Cleared e c l) (f : Fault) :
    Origin e late m c (failureResult e f) (unexpected? f) (some ⟨callFor e m c l, .error f⟩)
  | expired {l : Language} (hc : Cleared e c l) (h : late) :
    Origin e late m c (deadlineExceeded (e.config.messageDeadline none)) none none

theorem Origin.mono (h : Origin e late m c result f? report?) (hl : late → late') :
    Origin e late' m c result f? report? := by
  cases h with
  | denied d => exact .denied d
  | unreviewed h => exact .unreviewed h
  | rejected h hv => exact .rejected h hv
  | unsupported hreview h => exact .unsupported hreview h
  | returned hc result => exact .returned hc result
  | raised hc f => exact .raised hc f
  | expired hc h => exact .expired hc (hl h)

/-! ### Attribution -/

/-- The record that the work on a message and its command has failed. -/
def failureRecord (m : Message) (c : Command) (f : Fault) : LogRecord :=
  ⟨.error, .coordinator, text "Command pipeline failed", [("tenant_id", .str m.tenant),
    ("command_id", .str c.id), ("error_type", .str (text f.kind.name))]⟩

/-- Every settlement is traced to a fault or to none, and to a report or to none.  The records tell of the
faults, one of each, and the reports are these. -/
inductive Attributed (traced : Settlement → Option Fault → Option Report → Prop) :
    List Settlement → List LogRecord → List Report → Prop
  | nil : Attributed traced [] [] []
  | cons {c : Settlement} {f? : Option Fault} {report? : Option Report} {cs : List Settlement}
    {fs : List LogRecord} {rs : List Report} (h : traced c f? report?)
    (hs : Attributed traced cs fs rs) : Attributed traced (c :: cs)
      ((f?.map (failureRecord c.message c.command)).toList ++ fs) (report?.toList ++ rs)

variable {traced traced' : Settlement → Option Fault → Option Report → Prop} {cs : List Settlement}
  {fs : List LogRecord} {rs : List Report}

theorem Attributed.mono (h : Attributed traced cs fs rs)
    (ht : ∀ c ∈ cs, ∀ f? report?, traced c f? report? → traced' c f? report?) :
    Attributed traced' cs fs rs := by
  induction h with
  | nil => exact .nil
  | cons h _ ih =>
    exact .cons (ht _ List.mem_cons_self _ _ h) (ih fun c hc => ht c (List.mem_cons_of_mem _ hc))

/-- The result of the settlement has an origin, given when its message has come in. -/
def Traced (e : Setup ω) (x : Moment (World ω)) (c : Settlement) (f? : Option Fault)
    (report? : Option Report) : Prop :=
  ∃ t, x.stamps[c.number]? = some t ∧
    Origin e (e.Overdue t x.clock) c.message c.command c.result f? report?

theorem Traced.later {x x' : Moment (World ω)} (hl : x.Later x') {c : Settlement}
    (h : Traced e x c f? report?) : Traced e x' c f? report? := by
  obtain ⟨t, ht, h⟩ := h
  exact ⟨t, hl.stamp ht, h.mono fun hlate => hlate.mono le_rfl hl.clock⟩

/-- The messages taken in are counted, and all settlements, records and reports are attributed, apart
from a record and a report that are ahead of their settlement. -/
def attribution (e : Setup ω) (p : Part ω (List Report)) (record? : Option LogRecord)
    (report? : Option Report) : Timetable (World ω) where
  count w := w.messages
  holds x := x.stamps.length = x.shared.messages ∧
    ∃ fs rs, x.shared.failures = record?.toList ++ fs ∧ p.get x.shared.env = report?.toList ++ rs ∧
      Attributed (Traced e x) x.shared.settlements fs rs
  lasts := by
    rintro x x' ⟨hcount, fs, rs, hfs, hrs, h⟩ hl hshared hstamps
    rw [hshared, hstamps]
    exact ⟨hcount, fs, rs, hfs, hrs, h.mono fun _ _ _ _ => Traced.later hl⟩

theorem about_attribution {record? : Option LogRecord} :
    (attribution e p record? report?).About (World.upshot p) where
  count _ _ h := congrArg Upshot.messages h
  holds x s h hx := by
    have hmessages : x.shared.messages = s.messages := congrArg Upshot.messages h
    have hsettlements : x.shared.settlements = s.settlements := congrArg Upshot.settlements h
    have hfailures : x.shared.failures = s.failures := congrArg Upshot.failures h
    have hreports : p.get x.shared.env = p.get s.env := congrArg Upshot.reports h
    obtain ⟨hcount, hattributed⟩ := hx
    rw [hmessages] at hcount
    rw [hsettlements, hfailures, hreports] at hattributed
    exact ⟨hcount, hattributed⟩

end Engine

end ChatCommands
