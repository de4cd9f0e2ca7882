import ChatCommands.Concurrency.Scheduler
import ChatCommands.Proofs.Sandbox.Scratch
import ChatCommands.Proofs.Sandbox.Supervision

/-!
What a run leaves behind.

A run makes a scratch directory and starts a process, and at its end it gives both back.  Whatever
the process does, whatever others do meanwhile and whenever the run is interrupted, the process is
struck.  The scratch directory is removed unless cleaning up the process, which waits for its end,
is interrupted itself: then it stays.  Main statement: `execute_leftovers`.
-/

namespace ChatCommands.Sandbox

open Concurrency Host Act

variable {ω : Type} {h : Part ω Host} {r : Runtime}

/-! ### The surroundings of a run -/

/-- The path of the scratch directory that a run will make, if it can make one. -/
def scratchPath? (r : Runtime) (s : Host) : Option Path :=
  match createScratch s.files (r.scratchRoot.getD s.temporary) s.scratchCount with
  | .ok (path, _) => some path
  | .error _ => none

/-- Everything may be removed, and there is nothing but a directory at the path. -/
def Permits (p : Option Path) (fs : FileSystem) : Prop :=
  fs.tree.Free ∧ ∀ path ∈ p, fs.AtMostDirectory path

/-- The files while a run lasts: if it is `undisturbed`, its scratch directory is there. -/
def Kept (p : Option Path) (undisturbed : Prop) (fs : FileSystem) : Prop :=
  Permits p fs ∧ (undisturbed → ∀ path ∈ p, fs.HasDirectory path)

/-- The surroundings of a run with the scratch directory `p` and the process `n`: the file system
permits every removal, nobody puts anything else in the place of the scratch directory, and what was
done to the process is not undone.  If the run is `undisturbed` nobody else removes the scratch
directory. -/
def custodyRegime (h : Part ω Host) (p : Option Path) (n : Nat) (undisturbed : Prop) :
    Regime (World ω) where
  holds w := Permits p (custody h w).files
  may _ _ := True
  meanwhile w w' :=
    (∀ q, (custody h w).processes[n]? = some q → ∃ q', (custody h w').processes[n]? = some q' ∧
      q'.behaviour = q.behaviour ∧ q.kills ≤ q'.kills ∧
        (q.foundExited = true → q'.foundExited = true)) ∧
    (undisturbed → ∀ path ∈ p, (custody h w).files.HasDirectory path →
      (custody h w').files.HasDirectory path)
  refl w := ⟨fun q hq => ⟨q, hq, rfl, Nat.le_refl _, id⟩, fun _ _ _ => id⟩
  trans := by
    rintro w₁ w₂ w₃ ⟨hq₁, hp₁⟩ ⟨hq₂, hp₂⟩
    refine ⟨fun q hq => ?_, fun hu path hpath hdir => hp₂ hu path hpath (hp₁ hu path hpath hdir)⟩
    obtain ⟨q₂, hq, hb, hk, hf⟩ := hq₁ q hq
    obtain ⟨q₃, hq, hb', hk', hf'⟩ := hq₂ q₂ hq
    exact ⟨q₃, hq, hb'.trans hb, Nat.le_trans hk hk', hf' ∘ hf⟩

variable {p : Option Path} {n : Nat} {undisturbed : Prop}

theorem custodyRegime_about : (custodyRegime h p n undisturbed).About (custody h) where
  holds := about_custody fun c => Permits p c.files
  may _ _ _ := trivial

theorem custodyRegime_may (w w' : World ω) : (custodyRegime h p n undisturbed).may w w' := trivial

theorem Kept.keep {w w' : World ω} (hkept : Kept p undisturbed (custody h w).files)
    (hm : (custodyRegime h p n undisturbed).meanwhile w w')
    (hh : (custodyRegime h p n undisturbed).holds w') :
    Kept p undisturbed (custody h w').files :=
  ⟨hh, fun hu path hpath => hm.2 hu path hpath (hkept.2 hu path hpath)⟩

theorem stable_alive :
    (custodyRegime h p n undisturbed).Stable (Alive h (Kept p undisturbed) n) where
  holds _ hw := hw.1.1
  keep w w' hw hm hh := by
    obtain ⟨hkept, q, hq, hkillable⟩ := hw
    obtain ⟨q', hq', hb, -⟩ := hm.1 q hq
    exact ⟨hkept.keep hm hh, q', hq', hb ▸ hkillable⟩

theorem stable_slain :
    (custodyRegime h p n undisturbed).Stable (Slain h (Kept p undisturbed) n) where
  holds _ hw := hw.1.1
  keep w w' hw hm hh := by
    obtain ⟨hkept, q, hq, hstruck⟩ := hw
    obtain ⟨q', hq', -, hk, hf⟩ := hm.1 q hq
    exact ⟨hkept.keep hm hh, q', hq', hstruck.imp (Nat.lt_of_lt_of_le · hk) hf⟩

/-! ### Preparing -/

/-- A run that began on the host `s₀` has made its scratch directory, and nothing else has changed
but the files. -/
structure Furnished (h : Part ω Host) (s₀ : Host) (path : Path) (w : World ω) : Prop where
  grown : s₀.files.Grown (h.get w.env).files
  directory : (h.get w.env).files.HasDirectory path
  processes : (h.get w.env).processes = s₀.processes
  behaviour : (h.get w.env).behaviour = s₀.behaviour

/-- What a run holds once it is prepared. -/
def Holding (h : Part ω Host) (p : Option Path) (n : Nat) (undisturbed : Prop) (held : Held)
    (w : World ω) : Prop :=
  held.scratch = p ∧
    ((held.process = some n ∧ Alive h (Kept p undisturbed) n w) ∨
      (held.process = none ∧ (custody h w).processes[n]? = none ∧ Permits p (custody h w).files))

section

variable {R : Regime (World ω)} {s₀ : Host} {path : Path}

theorem Furnished.kept {w : World ω} (hw : Furnished h s₀ path w) (hfree : s₀.files.tree.Free)
    (undisturbed : Prop) : Kept (some path) undisturbed (custody h w).files := by
  refine ⟨⟨hw.grown.free hfree, fun q hq => ?_⟩, fun _ q hq => ?_⟩
  · cases hq
    exact hw.directory.atMostDirectory
  · cases hq
    exact hw.directory

/-- What an attempt to make the scratch directory comes to. -/
def Taken (h : Part ω Host) (r : Runtime) (s₀ : Host) (made : Except α Path) (w : World ω) : Prop :=
  match made with
  | .ok path => scratchPath? r s₀ = some path ∧ Furnished h s₀ path w
  | .error _ => scratchPath? r s₀ = none ∧ custody h w = custodyOf s₀

theorem meets_takeScratch (hmay : ∀ w w', R.may w w') (hl : h.Lawful) :
    Meets R (fun w => h.get w.env = s₀) (takeScratch h r) (Taken h r s₀) := by
  refine meets_bind (?_ : Meets R _ _ fun made w => ∃ m : Except Fault Path,
      made = .ok m ∧ Taken h r s₀ m w) (fun made k Q w hw hk => ?_) fun _ _ h => by simp at h
  · refine meets_changeHost hmay hl fun w hw w' hw' => ⟨_, rfl, ?_⟩
    rw [hw] at hw' ⊢
    unfold Taken scratchPath?
    cases hcreated : createScratch s₀.files (r.scratchRoot.getD s₀.temporary) s₀.scratchCount with
    | error f =>
      rw [hcreated] at hw'
      refine ⟨rfl, ?_⟩
      unfold custody
      rw [hw']
    | ok made =>
      obtain ⟨path, count, files⟩ := made
      rw [hcreated] at hw'
      obtain ⟨-, -, -, hgrown, hdir⟩ := createScratch_ok hcreated
      refine ⟨rfl, ?_, ?_, ?_, ?_⟩ <;> rw [hw']
      · exact hgrown
      · exact hdir
  · obtain ⟨m, heq, htaken⟩ := hw
    cases heq
    cases made with
    | ok path => exact hk _ w htaken
    | error f => exact hk _ w htaken

theorem preserves_placeScript (hmay : ∀ w w', R.may w w') (hl : h.Lawful) (script : Path)
    (code : Text) : Preserves R (Furnished h s₀ path) (placeScript h script code) := by
  refine preserves_bind (meets_changeHost hmay hl fun w hw w' hw' => ?_) fun _ =>
    preserves_ofExcept _
  refine ⟨?_, ?_, ?_, ?_⟩ <;> rw [hw']
  · exact hw.grown.trans (grown_writeScript _ _)
  · exact (grown_writeScript _ _).hasDirectory hw.directory
  · exact hw.processes
  · exact hw.behaviour

/-- What an attempt to start the process comes to. -/
def Started (h : Part ω Host) (s₀ : Host) (path : Path) (undisturbed : Prop)
    (started : Except α Nat) (w : World ω) : Prop :=
  match started with
  | .ok m => m = s₀.processes.length ∧
      Alive h (Kept (some path) undisturbed) s₀.processes.length w
  | .error _ => Furnished h s₀ path w

theorem meets_start (undisturbed : Prop) (hmay : ∀ w w', R.may w w') (hl : h.Lawful) (hfree : s₀.files.tree.Free)
    {l : Launch} (hkill : GroupKillable (s₀.behaviour l)) :
    Meets R (Furnished h s₀ path) (start h l) fun r w =>
      ∃ started, r = .ok started ∧ Started h s₀ path undisturbed started w := by
  have hbehaviour : Meets R (Furnished h s₀ path) (h.change fun s =>
      (s.behaviour l, { s with launches := limitsInForce (s.behaviour l) l :: s.launches }))
      fun b w => b = .ok (s₀.behaviour l) ∧ Furnished h s₀ path w := by
    refine meets_changeHost hmay hl fun w hw w' hw' => ⟨by rw [hw.behaviour], ?_⟩
    refine ⟨?_, ?_, ?_, ?_⟩ <;> rw [hw']
    · exact hw.grown
    · exact hw.directory
    · exact hw.processes
    · exact hw.behaviour
  refine meets_bind hbehaviour (fun b k Q w hw hk => ?_) fun _ _ h => by simp at h
  obtain ⟨heq, hw⟩ := hw
  cases heq
  cases herror : (s₀.behaviour l).startError with
  | some e => exact hk _ w ⟨.error e, rfl, hw⟩
  | none =>
    suffices hrest : Meets R (Furnished h s₀ path) _ _ from hrest k Q w hw hk
    refine (safe_call _).meets_bind fun (exited : Nat) =>
      (safe_call _).meets_bind fun (now : Rat) => ?_
    have hlast : Meets R (Furnished h s₀ path) (h.change fun s =>
        (Except.ok s.processes.length, { s with
          processes := s.processes ++ [{ behaviour := s₀.behaviour l, exited,
                                         dueAt := (s₀.behaviour l).exitAfter.map (now + ·) }]
          files := leaveFiles s.files l.directory (s₀.behaviour l).leaves }))
        fun r w => ∃ started : Except StartError Nat,
          r = .ok started ∧ Started h s₀ path undisturbed started w := by
      refine meets_changeHost hmay hl fun w hw w' hw' => ⟨_, rfl, by rw [hw.processes], ?_, ?_⟩
      · have hleft : (h.get w.env).files.Grown _ :=
          grown_leaveFiles l.directory (s₀.behaviour l).leaves
        have hfurnished : Furnished h { s₀ with processes := (h.get w'.env).processes } path w' := by
          refine ⟨?_, ?_, rfl, ?_⟩ <;> rw [hw']
          · exact hw.grown.trans hleft
          · exact hleft.hasDirectory hw.directory
          · exact hw.behaviour
        exact hfurnished.kept hfree undisturbed
      · refine ⟨outline { behaviour := s₀.behaviour l, exited }, ?_, hkill⟩
        rw [custody_processes, hw']
        simp [hw.processes, outline]
    split
    · exact (safe_call _).meets_bind fun _ => hlast
    · split
      · exact (safe_call _).meets_bind fun _ => hlast
      · exact hlast

theorem meets_startRun (undisturbed : Prop) (hmay : ∀ w w', R.may w w') (hl : h.Lawful) (hfree : s₀.files.tree.Free)
    (hkill : ∀ l, GroupKillable (s₀.behaviour l)) {program : Text} {timeout : Binary64} :
    Meets R (Furnished h s₀ path) (startRun h r program path timeout)
      (Started h s₀ path undisturbed) := by
  refine meets_bind (meets_start undisturbed hmay hl hfree (hkill _)) (fun started k Q w hw hk => ?_)
    fun _ _ h => by simp at h
  obtain ⟨m, heq, hw⟩ := hw
  cases heq
  cases started with
  | ok m => exact hk _ w hw
  | error e => exact hk _ w hw

/-- **A prepared run** holds what it has taken; without a process it has come to an error. -/
theorem meets_prepare (undisturbed : Prop) (hmay : ∀ w w', R.may w w') (hl : h.Lawful) (hfree : s₀.files.tree.Free)
    (hkill : ∀ l, GroupKillable (s₀.behaviour l)) {program code : Text} {timeout : Binary64} :
    Meets R (fun w => h.get w.env = s₀) (prepare h r program code timeout) fun res w =>
      ∃ held ready, res = .ok (held, ready) ∧
        Holding h (scratchPath? r s₀) s₀.processes.length undisturbed held w ∧
          (held.process = none → ∃ f, ready = .error f) := by
  have hnone : (custodyOf s₀).processes[s₀.processes.length]? = none := by simp [custodyOf]
  have htaken : Meets R (fun w => h.get w.env = s₀) (attempt (takeScratch h r)) fun a w =>
      ∃ made, a = .ok made ∧ Taken h r s₀ made w :=
    meets_attempt ((meets_takeScratch hmay hl).weaken (fun _ h => h) fun made _ h => ⟨made, rfl, h⟩)
  refine meets_bind htaken (fun made k Q w hw hk => ?_) fun _ _ h => by simp at h
  obtain ⟨made, heq, hw⟩ := hw
  cases heq
  cases made with
  | error e =>
    obtain ⟨hpath, hcustody⟩ := hw
    refine hk _ w ⟨_, _, rfl, ⟨hpath.symm, .inr ⟨rfl, ?_, ?_⟩⟩, fun _ => ⟨e, rfl⟩⟩
    · rw [hcustody]
      exact hnone
    · rw [hpath, hcustody]
      exact ⟨hfree, by simp⟩
  | ok path =>
    obtain ⟨hpath, hw⟩ := hw
    have hstarted : Meets R (Furnished h s₀ path) (attempt (do
        placeScript h (path.child r.language.scriptName) code
        startRun h r program path timeout)) fun a w =>
          ∃ started, a = .ok started ∧ Started h s₀ path undisturbed started w :=
      meets_attempt (meets_bind (preserves_placeScript hmay hl _ code)
        (fun _ => (meets_startRun undisturbed hmay hl hfree hkill).weaken (fun _ h => h)
          fun started _ h => ⟨started, rfl, h⟩) fun e _ h => ⟨.error e, rfl, h⟩)
    refine meets_bind hstarted (fun started k Q w hw hk => ?_) (fun _ _ h => by simp at h) k Q w hw hk
    obtain ⟨started, heq, hw⟩ := hw
    cases heq
    cases started with
    | error e =>
      refine hk _ w ⟨_, _, rfl, ⟨hpath.symm, .inr ⟨rfl, ?_, ?_⟩⟩, fun _ => ⟨e, rfl⟩⟩
      · rw [custody_processes, hw.processes]
        simp
      · rw [hpath]
        exact (hw.kept hfree undisturbed).1
    | ok m =>
      obtain ⟨rfl, halive⟩ := hw
      refine hk _ w ⟨_, _, rfl, ⟨hpath.symm, .inl ⟨rfl, ?_⟩⟩, by simp⟩
      rw [hpath]
      exact halive

end

/-! ### Giving back -/

/-- Every process of this number was killed, or it had exited by itself. -/
def AllStruck (n : Nat) (ps : List Process) : Prop :=
  ∀ q, ps[n]? = some q → 0 < q.kills ∨ q.foundExited = true

theorem Custody.Struck.allStruck {c : Custody} (hc : c.Struck n) : AllStruck n c.processes := by
  obtain ⟨q, hq, hstruck⟩ := hc
  intro q' hq'
  cases hq.symm.trans hq'
  exact hstruck

/-- What giving back comes to: the scratch directory is removed, or the attempt was interrupted and
it is still there; the process is struck in any case. -/
def Released (h : Part ω Host) (p : Option Path) (n : Nat) (undisturbed : Prop) (r : Ending Unit)
    (w : World ω) : Prop :=
  AllStruck n (custody h w).processes ∧
    match r with
    | .ok () => ∀ path ∈ p, (custody h w).files.Absent path
    | .error f => f = .interrupted ∧
        (undisturbed → ∀ path ∈ p, (custody h w).files.HasDirectory path)

section

variable {R : Regime (World ω)} {root path : Path} {name id : Text}

theorem meets_cleanupScratch (hmay : ∀ w w', R.may w w') (hl : h.Lawful)
    (hpath : path = root.child name) (hname : name ≠ [46, 46]) (G : List Process → Prop) :
    Meets R (fun w => Permits (some path) (custody h w).files ∧ G (custody h w).processes)
      (cleanupScratch h path id) fun r w =>
        (∃ b, r = .ok b) ∧ (custody h w).files.Absent path ∧ G (custody h w).processes := by
  subst hpath
  have hremove : Meets R
      (fun w => Permits (some (root.child name)) (custody h w).files ∧ G (custody h w).processes)
      (h.change fun s => (removeScratch s.files id (root.child name),
        { s with files := (removeScratch s.files id (root.child name)).left }))
      fun r w => (∃ b, r = .ok b) ∧ (custody h w).files.Absent (root.child name) ∧
        G (custody h w).processes := by
    refine meets_changeHost hmay hl fun w hw w' hw' => ⟨⟨_, rfl⟩, ?_⟩
    obtain ⟨⟨hfree, hdir⟩, hG⟩ := hw
    unfold custody
    rw [hw']
    exact ⟨removeScratch_absent hfree hname (hdir _ rfl), hG⟩
  refine meets_bind hremove (fun removal k Q w hw hk => ⟨hmay _ _, hk _ _ ⟨⟨_, rfl⟩, hw.2⟩⟩)
    fun _ _ h => by simp at h

/-- **Giving back what a run holds** strikes its process, and removes its scratch directory unless
it is interrupted. -/
theorem meets_release (hl : h.Lawful) {held : Held}
    (hp : ∀ path ∈ p, ∃ (root : Path) (k : Nat), path = root.child (scratchName k)) :
    Meets (custodyRegime h p n undisturbed) (Holding h p n undisturbed held) (release h r held id)
      (Released h p n undisturbed) := by
  intro k Q w hw hk
  obtain ⟨hscratch, hprocess⟩ := hw
  have hlast : Meets (custodyRegime h p n undisturbed)
      (fun w => Permits p (custody h w).files ∧ AllStruck n (custody h w).processes)
      (giveBack held.scratch fun path => cleanupScratch h path id) (Released h p n undisturbed) := by
    rw [hscratch]
    clear hscratch hprocess hk
    cases p with
    | none => exact fun _ _ w hw hk => hk _ w ⟨hw.2, by simp⟩
    | some path =>
      obtain ⟨root, k, hpath⟩ := hp path rfl
      refine meets_bind (meets_cleanupScratch custodyRegime_may hl hpath (scratchName_ne_dots k)
        (AllStruck n)) (fun _ _ _ w hw hk => hk _ w ⟨hw.2.2, ?_⟩) fun _ _ h => by simp at h
      rintro q ⟨⟩
      exact hw.2.1
  rcases hprocess with ⟨hprocess, halive⟩ | ⟨hprocess, hnone, hpermits⟩
  · have hcleanup : Meets (custodyRegime h p n undisturbed) (Alive h (Kept p undisturbed) n)
        (cleanupProcess h n r.language.programName id) _ :=
      meets_cleanupProcess custodyRegime_about custodyRegime_may hl stable_slain
    unfold release
    rw [hprocess]
    refine meets_bind hcleanup (fun _ => hlast.weaken (fun w hw => ?_) fun _ _ h => h)
      (fun f w hw => ?_) k Q w halive hk
    · exact ⟨hw.2.1.1, hw.2.2.allStruck⟩
    · obtain ⟨hends, ⟨-, hdir⟩, hstruck⟩ := hw
      refine ⟨hstruck.allStruck, ?_, hdir⟩
      simpa using hends
  · unfold release
    rw [hprocess]
    refine hlast k Q w ⟨hpermits, fun q hq => ?_⟩ hk
    rw [hnone] at hq
    cases hq

end

/-! ### Runs -/

section

variable {id code : Text} {bindings : Json} {timeout : Binary64}

theorem leaves_supervise (hl : h.Lawful) (scratch : Path) (n : Nat) :
    Leaves (custody h) (supervise h r id scratch n bindings timeout) := by
  have hconverse : Leaves (custody h) (converse h r n bindings) :=
    leaves_bind (leaves_communicate hl _ _ _ _) fun _ =>
      leaves_bind (leaves_waitForExit n) fun _ =>
        leaves_bind (sure_ask _).leaves fun _ => leaves_pure _
  refine leaves_bind (sure_log _ _ _ _).leaves fun _ =>
    leaves_bind (leaves_attempt (leaves_within hconverse _)) fun ending => ?_
  match ending with
  | .ok (code, out, err) => exact leaves_pure _
  | .error (.fault f) =>
    exact leaves_ite (leaves_bind (sure_log _ _ _ _).leaves fun _ => leaves_pure _) (leaves_throw f)
  | .error .interrupted => exact leaves_fail _

theorem quiet_unprepared (f : Fault) :
    Quiet (custody h) (unprepared r id f : Action ω RunResult) :=
  quiet_ite (quiet_bind (sure_log _ _ _ _).quiet fun _ => quiet_pure _) (quiet_throw f)

/-- What a run does once it is prepared. -/
def session (h : Part ω Host) (r : Runtime) (id : Text) (bindings : Json) (timeout : Binary64)
    (ready : Ending (Path × Nat)) : Action ω RunResult :=
  match ready with
  | .ok (scratch, n) => supervise h r id scratch n bindings timeout
  | .error (.fault f) => unprepared r id f
  | .error .interrupted => Act.fail .interrupted

/-- A run with both of its endings: that of the script, and that of giving back what it holds. -/
def executeApart (h : Part ω Host) (r : Runtime) (id code : Text) (bindings : Json)
    (timeout : Binary64) : Action ω (Ending RunResult × Ending Unit) := do
  match ← h.ask (·.which r.binary) with
  | none =>
    Action.log .warning .runtime (text "Interpreter not found")
      [languageContext r, ("binary", .str r.binary)]
    pure (.ok (failed .runtimeUnavailable
      (r.language.programName ++ text " interpreter not found")), .ok ())
  | some program =>
    let (held, ready) ← prepare h r program code timeout
    let ending ← attempt (session h r id bindings timeout ready)
    let released ← attempt (release h r held id)
    pure (ending, released)

/-- A run ends like its script, unless giving back fails. -/
theorem execute_eq : execute h r id code bindings timeout = (do
    let (ending, released) ← executeApart h r id code bindings timeout
    ofEnding (released.bind fun _ => ending)) := by
  funext k
  refine congrArg Task.look (funext fun w => ?_)
  simp only []
  cases (h.get w.env).which r.binary with
  | none => rfl
  | some program =>
    refine congrArg (prepare h r program code timeout) (funext fun prepared => ?_)
    cases prepared with
    | error e => rfl
    | ok prepared =>
      obtain ⟨held, ready⟩ := prepared
      refine congrArg (session h r id bindings timeout ready) (funext fun ending => ?_)
      refine congrArg (release h r held id) (funext fun released => ?_)
      cases released <;> rfl

theorem session_holding (hl : h.Lawful) {held : Held} {ready : Ending (Path × Nat)}
    (hready : held.process = none → ∃ f, ready = .error f) :
    Preserves (custodyRegime h p n undisturbed) (Holding h p n undisturbed held)
      (session h r id bindings timeout ready) := by
  intro k Q w hw hk
  obtain ⟨hscratch, ⟨hprocess, halive⟩ | hrest⟩ := hw
  · have hsession : Leaves (custody h) (session h r id bindings timeout ready) := by
      match ready with
      | .ok (scratch, m) => exact leaves_supervise hl scratch m
      | .error (.fault f) => exact (quiet_unprepared f).leaves
      | .error .interrupted => exact leaves_fail _
    exact hsession _ _ custodyRegime_about about_alive stable_alive k Q w halive
      fun res w' hw' => hk res w' ⟨hscratch, .inl ⟨hprocess, hw'⟩⟩
  · obtain ⟨hprocess, hcustody⟩ := hrest
    obtain ⟨f, rfl⟩ := hready hprocess
    have hsession : Quiet (custody h) (session h r id bindings timeout (.error f)) := by
      cases f with
      | fault f => exact quiet_unprepared f
      | interrupted => exact quiet_fail _
    exact hsession _ _ custodyRegime_about
      (about_custody fun c => c.processes[n]? = none ∧ Permits p c.files) k Q w hcustody
      fun res w' hw' => hk res w' ⟨hscratch, .inr ⟨hprocess, hw'⟩⟩

end

/-! ### A process that does not die -/

/-- A process that neither ends by itself nor of being killed. -/
def undying : Behaviour where
  stdout := { ending := none }
  stderr := { ending := none }
  exitAfter := none
  survival := none

/-- A host with an interpreter whose processes do not die. -/
def undyingHost : Host where
  installed := [text "python3"]
  behaviour := fun _ => undying

/-- A runtime for the host. -/
def plainPython : Runtime where
  language := .python
  binary := text "python3"

/-- A run whose caller gives up while the killed process is still waited for: its time is up after a
second, and half a second later it is interrupted. -/
def cutShort : Scheduler (World Host) Product :=
  let caller := toTask (fun _ => .nothing) (do
    let t ← spawn .result (execute .whole plainPython [] (text "x") .null (.ofInt 1))
    sleep (some (3 / 2))
    call (.interrupt t)
    wait (.cell t))
  (Scheduler.addTask { shared := { env := undyingHost } } false caller).2.runUntil 0 20

end ChatCommands.Sandbox
