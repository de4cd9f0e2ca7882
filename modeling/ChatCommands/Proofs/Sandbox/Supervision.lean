import ChatCommands.Proofs.Concurrency.View
import ChatCommands.Proofs.Host.FileTree
import ChatCommands.Sandbox.Execution

/-!
What the supervision of processes does to the files and the processes of the host.

Talking to processes and waiting for them changes neither the files nor what was done to kill a
process.  Cleaning up a process strikes it: it is killed unless it has exited by itself.
-/

namespace ChatCommands

/-- What is put into a part is found there. -/
def Part.Lawful {ω α : Type} (p : Part ω α) : Prop := ∀ a w, p.get (p.set a w) = a

namespace Sandbox

open Concurrency Host Act

variable {ω α : Type} {h : Part ω Host}

/-- What is known of a process as to its end. -/
def outline (p : Process) : Process :=
  { behaviour := p.behaviour, exited := 0, kills := p.kills, foundExited := p.foundExited }

/-- What the host has in custody for runs: files and processes. -/
structure Custody where
  files : FileSystem
  processes : List Process

/-- The custody of the host. -/
def custodyOf (s : Host) : Custody := ⟨s.files, s.processes.map outline⟩

/-- The custody of the host behind an engine. -/
def custody (h : Part ω Host) (w : World ω) : Custody := custodyOf (h.get w.env)

theorem custody_processes (w : World ω) (n : Nat) :
    (custody h w).processes[n]? = (h.get w.env).processes[n]?.map outline :=
  List.getElem?_map

theorem about_custody (P : Custody → Prop) : About (custody h) fun w => P (custody h w) := by
  intro w w' heq hP
  rwa [heq] at hP

/-! ### The host -/

theorem sure_ask (f : Host → α) : Sure (custody h) (h.ask f) := sure_gets _

theorem sure_changeHost (hl : h.Lawful) {f : Host → α × Host}
    (hf : ∀ s, custodyOf (f s).2 = custodyOf s) : Sure (custody h) (h.change f) := by
  refine sure_change fun w => ?_
  change custodyOf (h.get w.env) = custodyOf (h.get (h.set (f (h.get w.env)).2 w.env))
  rw [hl, hf]

theorem sure_modifyHost (hl : h.Lawful) {f : Host → Host} (hf : ∀ s, custodyOf (f s) = custodyOf s) :
    Sure (custody h) (h.modify f) :=
  sure_changeHost hl hf

theorem meets_changeHost {R : Regime (World ω)} {pre : World ω → Prop}
    {post : Ending α → World ω → Prop} (hmay : ∀ w w', R.may w w') (hl : h.Lawful)
    {f : Host → α × Host} (hpost : ∀ w, pre w → ∀ w', h.get w'.env = (f (h.get w.env)).2 →
      post (.ok (f (h.get w.env)).1) w') : Meets R pre (h.change f) post :=
  meets_change (fun w _ => hmay w _) fun w hw => hpost w hw _ (hl _ _)

theorem custodyOf_modifyProcess {f : Process → Process} (hf : ∀ p, outline (f p) = outline p)
    (s : Host) (n : Nat) : custodyOf (s.modifyProcess n f) = custodyOf s := by
  unfold custodyOf Host.modifyProcess
  refine congrArg (Custody.mk s.files) (List.ext_getElem? fun i => ?_)
  simp only [List.getElem?_map, List.getElem?_modify]
  cases s.processes[i]? with
  | none => rfl
  | some p => by_cases hi : n = i <;> simp [hi, hf]

theorem sure_modifyProcess (hl : h.Lawful) (n : Nat) {f : Process → Process}
    (hf : ∀ p, outline (f p) = outline p) :
    Sure (custody h) (h.modify fun s => s.modifyProcess n f) :=
  sure_modifyHost hl fun s => custodyOf_modifyProcess hf s n

theorem sure_note (hl : h.Lawful) (c : ProcessCall) : Sure (custody h) (note h c) :=
  sure_modifyHost hl fun _ => rfl

theorem sure_log (level : Level) (component : Component) (message : Text)
    (context : List (String × Json)) :
    Sure (custody h) (Action.log level component message context : Action ω Unit) :=
  sure_modify fun _ => rfl

theorem sure_exitCode? (n : Nat) : Sure (custody h) (exitCode? h n) :=
  sure_bind (sure_ask _) fun _ => sure_bind (sure_call _) fun _ => sure_pure _

/-! ### Waiting and talking -/

theorem leaves_waitForExit (n : Nat) : Leaves (custody h) (waitForExit h n) := by
  refine leaves_bind (sure_ask _).leaves fun p => leaves_bind (leaves_call _) fun status =>
    leaves_ite ?_ (leaves_pure ())
  exact leaves_bind leaves_newSignal fun s => leaves_bind (leaves_watch fun _ => leaves_call _)
    fun w => leaves_ensuring (leaves_wait _) (leaves_call _)

theorem leaves_pass (d : Option Rat) : Leaves (custody h) (pass d : Action ω Unit) :=
  leaves_ite (leaves_pure ()) (leaves_sleep d)

theorem leaves_readStream (limit : Int) (ending : Option Rat) (chunks : List (Rat × Bytes))
    (c : Capture) : Leaves (custody h) (readStream limit ending chunks c : Action ω Capture) := by
  induction chunks generalizing c with
  | nil => exact leaves_bind (leaves_pass ending) fun _ => leaves_pure c
  | cons chunk rest ih => exact leaves_bind (leaves_pass _) fun _ => ih _

theorem leaves_feed (hl : h.Lawful) (n : Nat) (input : Text) :
    Leaves (custody h) (feed h n input) := by
  refine leaves_bind (sure_ask _).leaves fun p => ?_
  split
  · exact leaves_pure ()
  · have hwrite : Leaves (custody h)
        (h.modify fun s => s.modifyProcess n fun p => { p with input }) :=
      Sure.leaves (sure_modifyProcess hl n fun _ => rfl)
    have hclose : Leaves (custody h)
        (h.modify fun s => s.modifyProcess n fun p => { p with inputClosed := true }) :=
      Sure.leaves (sure_modifyProcess hl n fun _ => rfl)
    refine leaves_bind hwrite fun _ => leaves_bind (leaves_pass _) fun _ => ?_
    split
    · exact leaves_ite (leaves_bind (leaves_throw _) fun _ => hclose) hclose
    · exact hclose

theorem leaves_communicate (hl : h.Lawful) (n : Nat) (input : Text) (stdoutLimit stderrLimit : Int) :
    Leaves (custody h) (communicate h n input stdoutLimit stderrLimit) :=
  leaves_bind (sure_ask _).leaves fun _ =>
    leaves_bind (leaves_spawn (leaves_feed hl n input)) fun _ =>
    leaves_bind (leaves_spawn (leaves_readStream _ _ _ _)) fun _ =>
    leaves_bind (leaves_spawn (leaves_readStream _ _ _ _)) fun _ =>
    leaves_bind (leaves_together _ _) fun _ => leaves_bind (leaves_valueOf _ _) fun _ =>
    leaves_bind (leaves_valueOf _ _) fun _ => leaves_pure _

/-! ### Killing -/

/-- Killing the group of the process, if it has one, fails only as documented: there is no such
group any more, or it is somebody else's. -/
def GroupKillable (b : Behaviour) : Prop :=
  ∀ e, b.entry = some e → (∀ f, e.group = .error f → f.kind = .processLookup) ∧
    ∀ f, e.groupKill = .error f → f.kind = .processLookup ∨ f.kind = .permission

/-- There is a process of this number, and its group can be killed. -/
def Custody.Killable (c : Custody) (n : Nat) : Prop :=
  ∃ q, c.processes[n]? = some q ∧ GroupKillable q.behaviour

/-- The process of this number was killed, or it had exited by itself. -/
def Custody.Struck (c : Custody) (n : Nat) : Prop :=
  ∃ q, c.processes[n]? = some q ∧ (0 < q.kills ∨ q.foundExited = true)

theorem sure_die (hl : h.Lawful) (n : Nat) (survival : Option Rat) :
    Sure (custody h) (die h n survival) := by
  unfold die
  split
  · exact sure_pure ()
  · refine sure_bind (sure_call _) fun now => sure_bind ?_ fun _ => sure_bind (sure_ask _) fun p =>
      sure_ite (sure_call _) (sure_bind (sure_call _) fun _ => sure_pure ())
    exact sure_modifyProcess hl n fun _ => rfl

theorem sure_descendants (n : Nat) : Sure (custody h) (descendants h n) := by
  refine sure_bind (sure_ask _) fun p => ?_
  split
  · exact sure_pure _
  · exact sure_pure _

section

variable {R : Regime (World ω)} {F : FileSystem → Prop} {n : Nat}

/-- A process of this number can be killed, and the files are as `F` says. -/
def Alive (h : Part ω Host) (F : FileSystem → Prop) (n : Nat) (w : World ω) : Prop :=
  F (custody h w).files ∧ (custody h w).Killable n

theorem about_alive : About (custody h) (Alive h F n) :=
  about_custody fun c => F c.files ∧ c.Killable n

theorem Alive.groupKillable {w : World ω} (hw : Alive h F n w) :
    GroupKillable ((h.get w.env).process n).behaviour := by
  obtain ⟨-, q, hq, hkillable⟩ := hw
  rw [custody_processes] at hq
  obtain ⟨p, hp, rfl⟩ := Option.map_eq_some_iff.mp hq
  simp only [Host.process, hp, Option.getD_some]
  exact hkillable

theorem safe_ownsGroup (hR : R.About (custody h)) (hl : h.Lawful) :
    Safe R (Alive h F n) (ownsGroup h n) := by
  refine meets_gets_bind fun p hp => (sure_exitCode? n R _ hR about_alive).meets_bind fun code => ?_
  split
  · rename_i code e hentry
    refine safe_bind (sure_note hl _ R _ hR about_alive) fun _ => ?_
    split
    · exact safe_pure _
    · rename_i f hgroup
      obtain ⟨w, hw, rfl⟩ := hp
      rw [if_pos ((hw.groupKillable e hentry).1 f hgroup)]
      exact safe_pure _
  · exact safe_pure _

theorem safe_killGroup (hR : R.About (custody h)) (hl : h.Lawful) :
    Safe R (Alive h F n) (killGroup h n) := by
  refine meets_gets_bind fun p hp => ?_
  split
  · exact safe_pure _
  · rename_i e hentry
    refine safe_bind (safe_ownsGroup hR hl) fun owns => safe_ite ?_ (safe_pure _)
    refine safe_bind (sure_note hl _ R _ hR about_alive) fun _ => ?_
    split
    · rename_i ends hkill
      have hdie : Sure (custody h) (do
          if ends && (← exitCode? h n).isNone then die h n (some 0)) :=
        sure_bind (sure_exitCode? n) fun _ => sure_ite (sure_die hl n _) (sure_pure ())
      exact hdie R _ hR about_alive
    · rename_i f hkill
      obtain ⟨w, hw, rfl⟩ := hp
      rcases (hw.groupKillable e hentry).2 f hkill with hkind | hkind
      · simp only [hkind]
        exact safe_pure _
      · simp only [hkind]
        exact safe_pure _

/-- The process of this number was struck, and the files are as `F` says. -/
def Slain (h : Part ω Host) (F : FileSystem → Prop) (n : Nat) (w : World ω) : Prop :=
  F (custody h w).files ∧ (custody h w).Struck n

theorem about_slain : About (custody h) (Slain h F n) :=
  about_custody fun c => F c.files ∧ c.Struck n

theorem meets_strike (hmay : ∀ w w', R.may w w') (hl : h.Lawful) {f : Process → Process}
    (hf : ∀ p, 0 < (f p).kills ∨ (f p).foundExited = true) :
    Meets R (Alive h F n) (h.modify fun s => s.modifyProcess n f) fun _ => Slain h F n := by
  refine meets_changeHost hmay hl fun w hw w' hw' => ?_
  obtain ⟨hfiles, q, hq, -⟩ := hw
  rw [custody_processes] at hq
  obtain ⟨p, hp, -⟩ := Option.map_eq_some_iff.mp hq
  unfold Slain custody
  rw [hw']
  refine ⟨hfiles, outline (f p), ?_, hf p⟩
  simp [custodyOf, Host.modifyProcess, hp]

theorem meets_killItself (hR : R.About (custody h)) (hmay : ∀ w w', R.may w w') (hl : h.Lawful) :
    Meets R (Alive h F n) (killItself h n) fun _ => Slain h F n := by
  refine (sure_exitCode? n R _ hR about_alive).meets_bind fun code => ?_
  split
  · refine (sure_note hl _ R _ hR about_alive).meets_bind fun _ => ?_
    refine meets_bind (meets_strike hmay hl fun _ => .inl (Nat.succ_pos _)) (fun _ => ?_)
      fun _ _ h => h
    refine quiet_bind (sure_ask _).quiet (fun p => ?_) R _ hR about_slain
    split
    · exact quiet_ite (quiet_throw _) (quiet_pure ())
    · exact (sure_die hl n _).quiet
  · exact meets_strike hmay hl fun _ => .inr rfl

theorem meets_killTree (hR : R.About (custody h)) (hmay : ∀ w w', R.may w w') (hl : h.Lawful) :
    Meets R (Alive h F n) (killTree h n) fun _ => Slain h F n :=
  (sure_descendants n R _ hR about_alive).meets_bind fun below =>
    (safe_killGroup hR hl).meets_bind fun _ =>
      (sure_forM (fun _ => sure_note hl _) below R _ hR about_alive).meets_bind fun _ =>
        meets_killItself hR hmay hl

/-! ### Cleaning up -/

theorem meets_killAndReap (hR : R.About (custody h)) (hmay : ∀ w w', R.may w w') (hl : h.Lawful)
    (hS : R.Stable (Slain h F n)) {name id : Text} {timeout : Json} {limit : Rat} :
    Meets R (Alive h F n) (killAndReap h n name id timeout limit) fun _ => Slain h F n := by
  refine (sure_exitCode? n R _ hR about_alive).meets_bind fun code =>
    meets_bind (meets_killTree hR hmay hl) (fun _ => ?_) fun _ _ h => h
  have hrest : Leaves (custody h) (do
      if ← Act.waitAtMost .nothing limit (waitForExit h n) then
        if code.isNone then
          Action.log .debug .cleanup (name ++ text " killed")
            [("context_id", .str id), ("returncode", .orNull ((← exitCode? h n).map .int))]
        pure true
      else
        Action.log .error .cleanup (name ++ text " didn't exit after SIGKILL within timeout")
          [("context_id", .str id), ("kill_timeout", timeout)]
        let _ ← Act.spawn (fun _ => .nothing) (waitForExit h n)
        pure false) := by
    refine leaves_bind (leaves_waitAtMost (leaves_waitForExit n)) fun ended => leaves_ite ?_ ?_
    · exact leaves_ite (leaves_bind (sure_exitCode? n).leaves fun _ =>
        leaves_bind (sure_log _ _ _ _).leaves fun _ => leaves_pure true) (leaves_pure true)
    · exact leaves_bind (sure_log _ _ _ _).leaves fun _ =>
        leaves_bind (leaves_spawn (leaves_waitForExit n)) fun _ => leaves_pure false
  exact hrest R _ hR about_slain hS

/-- **Cleaning up a process** strikes it, however it ends; only an interruption gets through. -/
theorem meets_cleanupProcess (hR : R.About (custody h)) (hmay : ∀ w w', R.may w w')
    (hl : h.Lawful) (hS : R.Stable (Slain h F n)) {name id : Text} :
    Meets R (Alive h F n) (cleanupProcess h n name id) fun r w =>
      ((∃ b, r = .ok b) ∨ r = .error .interrupted) ∧ Slain h F n w := by
  refine meets_recover (meets_killAndReap hR hmay hl hS) (fun b _ h => ⟨.inl ⟨b, rfl⟩, h⟩)
    (fun _ h => ⟨.inr rfl, h⟩) fun f => ?_
  have hhandle : Sure (custody h) (do
      if f.kind = .processLookup then pure true
      else
        cleanupFailed name id f
        pure false : Action ω Bool) :=
    sure_ite (sure_pure true) (sure_bind (sure_log _ _ _ _) fun _ => sure_pure false)
  exact (hhandle R _ hR about_slain).weaken (fun _ h => h) fun _ _ h => ⟨.inl h.1, h.2⟩

end

end Sandbox

end ChatCommands
