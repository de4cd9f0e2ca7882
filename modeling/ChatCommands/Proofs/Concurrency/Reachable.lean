import ChatCommands.Proofs.Concurrency.Charter
import ChatCommands.Proofs.Concurrency.Programs
import Mathlib.Logic.Function.Basic

/-!
What holds in every state that a scheduler reaches.

A run begins with a shared state alone.  From then on tasks arrive at any time, and rounds are run.
If every task that arrives heeds a charter, so does every program that ever comes to be, no two tasks
ever hold the same number, and what the charter says holds of the shared state whenever no task has
its turn: between any two rounds, and within a round between any two jobs.  Main statements:
`Reachable.settled`, `Settled.amid`, and for regimes `Reachable.holds`.
-/

namespace ChatCommands.Concurrency

variable {σ ν : Type} {C : Charter σ} {ρ : Role}

/-- A program that will go on later, as `ρ`, heeds the charter from then on. -/
def Ready {α : Type} (C : Charter σ) (ρ : Role) (s : σ) (program : α → Task σ ν) : Prop :=
  ∀ a s', C.holds s' → C.meanwhile ρ.number? s s' → (program a).Heeds C ρ (fun _ => C.holds) s'

theorem Ready.mono {α : Type} {s s' : σ} {program : α → Task σ ν}
    (hm : C.meanwhile ρ.number? s s') (h : Ready C ρ s program) : Ready C ρ s' program :=
  fun a s'' hh hm' => h a s'' hh (C.trans hm hm')

/-- What a task begins with: it can be interrupted before. -/
theorem Ready.first {s : σ} {body : Task σ ν} (h : Ready C ρ s fun _ : Unit => body) :
    Ready C ρ s fun
      | none => body
      | some f => Task.finish (.error f) := by
  intro a s' hh hm
  cases a with
  | none => exact h () s' hh hm
  | some f => exact hh

/-- The programs that heed a charter from the state `s` on, if the tasks have these roles. -/
def Charter.programs (C : Charter σ) (role : Nat → Role) (s : σ) : Programs σ ν where
  next t := Ready C (role t) s
  again t body := Ready C (role t).child s fun _ : Unit => body
  reaction := Ready C .common s

namespace Scheduler

/-- A number that has been taken has one holder, and one that has not has none. -/
structure Distinct (C : Charter σ) (role : Nat → Role) (s : σ) : Prop where
  apart : ∀ t t' n, role t = .holder n → role t' = .holder n → t = t'
  taken : ∀ t n, role t = .holder n → n < C.taken s

theorem Distinct.update {role : Nat → Role} {s : σ} (h : Distinct C role s) (t : Nat)
    (hρ : ∀ n, ρ ≠ .holder n) : Distinct C (Function.update role t ρ) s := by
  have hrole : ∀ t' n, Function.update role t ρ t' = .holder n → role t' = .holder n := by
    intro t' n heq
    by_cases ht : t' = t
    · subst ht
      rw [Function.update_self] at heq
      exact absurd heq (hρ n)
    · rwa [Function.update_of_ne ht] at heq
  exact ⟨fun t₁ t₂ n h₁ h₂ => h.apart t₁ t₂ n (hrole t₁ n h₁) (hrole t₂ n h₂),
    fun t' n ht' => h.taken t' n (hrole t' n ht')⟩

/-- The tasks have these roles, and all programs heed the charter; nothing is said of what a busy
task was to do next. -/
structure Sound (C : Charter σ) (role : Nat → Role) (busy : Option Nat) (k : Scheduler σ ν) :
    Prop where
  distinct : Distinct C role k.shared
  programs : Holds ((C.programs role k.shared).except busy) k.shared k

/-- One whose program is run is the busy task, or it takes no number. -/
def Runs (role : Nat → Role) (busy : Option Nat) (me : Nat) : Prop :=
  busy = some me ∨ busy = none ∧ role me = .common

theorem Runs.eq_of_busy {role : Nat → Role} {busy : Option Nat} {me c : Nat}
    (h : Runs role busy me) (hc : busy = some c) : c = me := by
  rcases h with rfl | ⟨rfl, -⟩
  · exact (Option.some.inj hc).symm
  · cases hc

variable {k : Scheduler σ ν} {role : Nat → Role} {busy : Option Nat} {me : Nat}

/-- What an operation on the scheduler that makes up no program leaves as it is. -/
theorem Sound.step {k' : Scheduler σ ν} (h : Sound C role busy k)
    (hop : Holds ((C.programs role k.shared).except busy) k.shared k') : Sound C role busy k' := by
  have hshared := hop.shared
  refine ⟨hshared ▸ h.distinct, ?_⟩
  rw [hshared]
  exact hop

theorem Sound.of_holds {k' : Scheduler σ ν} (h : Sound C role busy k)
    (hop : Holds (C.programs role k.shared) k.shared k') : Sound C role none k' := by
  have hshared := hop.shared
  refine ⟨hshared ▸ h.distinct, ?_⟩
  rw [hshared]
  exact hop.except none

/-- Nobody is busy: nothing is excepted. -/
theorem Sound.holds (h : Sound C role none k) : Holds (C.programs role k.shared) k.shared k :=
  h.programs.imp (fun _ _ _ hn => hn.resolve_left nofun) (fun _ _ _ ha => ha) fun _ hr => hr

theorem Sound.except (h : Sound C role none k) (t : Nat) : Sound C role (some t) k :=
  ⟨h.distinct, h.holds.except (some t)⟩

/-- One that starts over is no longer the holder of a number. -/
theorem Sound.restart (h : Sound C role busy k) (hme : Runs role busy me) :
    Sound C (Function.update role me (role me).child) busy k := by
  refine ⟨h.distinct.update me (Role.child_ne_holder _), h.programs.imp ?_ ?_ fun _ hr => hr⟩
  · intro c _ program hn
    by_cases hc : c = me
    · subst hc
      rcases hme with hbusy | ⟨hbusy, hrole⟩
      · exact .inl hbusy
      · refine hn.imp_right fun hn => ?_
        have hchild : (role c).child = role c := by rw [hrole]; rfl
        change Ready C (Function.update role c (role c).child c) k.shared program
        rw [Function.update_self, hchild]
        exact hn
    · refine hn.imp_right fun hn => ?_
      change Ready C (Function.update role me (role me).child c) k.shared program
      rw [Function.update_of_ne hc]
      exact hn
  · intro c _ body ha
    change Ready C (Function.update role me (role me).child c).child k.shared fun _ : Unit => body
    by_cases hc : c = me
    · subst hc
      rw [Function.update_self, Role.child_child]
      exact ha
    · rw [Function.update_of_ne hc]
      exact ha

/-! ### Steps of a program -/

/-- **A step that one may take does not disturb the others.** -/
theorem Sound.put (hC : C.Lawful) (h : Sound C role busy k) (hme : Runs role busy me) {s' : σ}
    (hstep : C.Step (role me) ρ k.shared s') :
    Sound C (Function.update role me ρ) busy { k with shared := s' } := by
  have hgrows : C.taken k.shared ≤ C.taken s' := hC.grows hstep.may
  have hfresh : ∀ t n, role t = .holder n → ρ = .holder n → t = me := by
    intro t n ht hρ
    rcases hstep.becomes with heq | ⟨-, heq, -⟩
    · exact h.distinct.apart t me n ht (heq ▸ hρ)
    · cases heq.symm.trans hρ
      exact absurd (h.distinct.taken t _ ht) (Nat.lt_irrefl _)
  have hnone : C.meanwhile none k.shared s' := hC.apart hstep.may fun _ _ => nofun
  refine ⟨⟨?_, ?_⟩, (h.programs.imp ?_ ?_ ?_).put s'⟩
  · -- numbers are held by one task each
    intro t t' n ht ht'
    by_cases hm : t = me
    · by_cases hm' : t' = me
      · exact hm.trans hm'.symm
      · rw [hm, Function.update_self] at ht
        rw [Function.update_of_ne hm'] at ht'
        exact hm.trans (hfresh t' n ht' ht).symm
    · rw [Function.update_of_ne hm] at ht
      by_cases hm' : t' = me
      · rw [hm', Function.update_self] at ht'
        exact (hfresh t n ht ht').trans hm'.symm
      · rw [Function.update_of_ne hm'] at ht'
        exact h.distinct.apart t t' n ht ht'
  · intro t n ht
    by_cases hm : t = me
    · rw [hm, Function.update_self] at ht
      rcases hstep.becomes with heq | ⟨-, heq, hlt⟩
      · exact Nat.lt_of_lt_of_le (h.distinct.taken me n (heq ▸ ht)) hgrows
      · cases heq.symm.trans ht
        exact hlt
    · rw [Function.update_of_ne hm] at ht
      exact Nat.lt_of_lt_of_le (h.distinct.taken t n ht) hgrows
  · intro c _ program hn
    by_cases hc : c = me
    · rcases hme with hbusy | ⟨hbusy, hrole⟩
      · exact .inl (hc ▸ hbusy)
      · refine hn.imp_right fun hn => ?_
        have hρ : ρ = .common := by
          rcases hstep.becomes with heq | ⟨heq, -⟩
          · exact heq.trans hrole
          · exact absurd (hrole.symm.trans heq) nofun
        change Ready C (Function.update role me ρ c) s' program
        rw [hc, Function.update_self, hρ]
        rw [hc] at hn
        exact Ready.mono hnone (hrole ▸ hn)
    · refine hn.imp_right fun hn => ?_
      change Ready C (Function.update role me ρ c) s' program
      rw [Function.update_of_ne hc]
      refine Ready.mono (hC.apart hstep.may fun i hi heq => hc (hfresh c i ?_ ?_)) hn
      · cases hrole : role c <;> simp_all [Role.number?]
      · cases hρ : ρ <;> simp_all [Role.number?]
  · intro c _ body ha
    change Ready C (Function.update role me ρ c).child s' fun _ : Unit => body
    have hchild : (Function.update role me ρ c).child = (role c).child := by
      by_cases hc : c = me
      · rw [hc, Function.update_self, hstep.child_eq]
      · rw [Function.update_of_ne hc]
    rw [hchild]
    exact Ready.mono (by rwa [Role.number?_child]) ha
  · exact fun _ hr => Ready.mono hnone hr

/-- A role for the next cell. -/
theorem Sound.place (h : Sound C role busy k) (hρ : ∀ n, ρ ≠ .holder n) :
    Sound C (Function.update role k.cells.size ρ) busy k := by
  have hsame : ∀ c < k.cells.size, Function.update role k.cells.size ρ c = role c := fun c hc =>
    Function.update_of_ne (Nat.ne_of_lt hc) ..
  refine ⟨h.distinct.update _ hρ, h.programs.imp (fun c hc program hn => hn.imp_right fun hn => ?_)
    (fun c hc body ha => ?_) fun _ hr => hr⟩
  · change Ready C (Function.update role k.cells.size ρ c) k.shared program
    rw [hsame c hc]
    exact hn
  · change Ready C (Function.update role k.cells.size ρ c).child k.shared fun _ : Unit => body
    rw [hsame c hc]
    exact ha

/-- The roles once `me` starts a task; to a reaction the number of the next task has been lent. -/
def spawned (role : Nat → Role) (me t : Nat) : Nat → Role :=
  if t = me then role else Function.update role t (role me).child

theorem spawned_self (role : Nat → Role) (me t : Nat) : spawned role me t me = role me := by
  unfold spawned
  split
  · rfl
  · rename_i ht
    rw [Function.update_of_ne (Ne.symm ht)]

theorem child_spawned (role : Nat → Role) (me t : Nat) :
    (spawned role me t t).child = (role me).child := by
  unfold spawned
  split
  · rename_i ht
    rw [ht]
  · rw [Function.update_self, Role.child_child]

theorem Sound.spawn (h : Sound C role busy k) (hme : Runs role busy me) (repeated : Bool)
    {body : Task σ ν} (hbody : Ready C (role me).child k.shared fun _ : Unit => body) :
    Sound C (spawned role me k.cells.size) busy (k.addTask repeated body).2 := by
  have hplaced : Sound C (spawned role me k.cells.size) busy k := by
    unfold spawned
    split
    · exact h
    · exact h.place (Role.child_ne_holder _)
  refine hplaced.step (hplaced.programs.addTask repeated ?_ fun _ => ?_)
  · change busy = some k.cells.size ∨ Ready C (spawned role me k.cells.size k.cells.size) _ _
    by_cases heq : k.cells.size = me
    · rcases hme with hbusy | ⟨-, hrole⟩
      · exact .inl (heq ▸ hbusy)
      · right
        have hchild : (role me).child = .common := by rw [hrole]; rfl
        rw [heq, spawned_self, hrole]
        exact (hchild ▸ hbody).first
    · right
      unfold spawned
      rw [if_neg heq, Function.update_self]
      exact hbody.first
  · change Ready C (spawned role me k.cells.size k.cells.size).child k.shared _
    rw [child_spawned]
    exact hbody

/-! ### Turns -/

/-- The program of `me` has been run: it waits, or has ended, or is to start over. -/
structure Ran (C : Charter σ) (busy : Option Nat) (me : Nat) (k : Scheduler σ ν)
    (result : Option (Task σ ν) × Scheduler σ ν) : Prop where
  meanwhile : C.meanwhile none k.shared result.2.shared
  holds : C.holds result.2.shared
  ended : result.1 = none → ∃ role, Sound C role none result.2
  again : ∀ body, result.1 = some body → ∃ role, Sound C role busy result.2 ∧ Runs role busy me ∧
    Ready C (role me) result.2.shared fun _ : Unit => body

theorem Ran.after {k' : Scheduler σ ν} {result : Option (Task σ ν) × Scheduler σ ν}
    (h : Ran C busy me k' result) (hm : C.meanwhile none k.shared k'.shared) :
    Ran C busy me k result :=
  { h with meanwhile := C.trans hm h.meanwhile }

/-- **A program that heeds the charter** takes the scheduler to a state that is as the charter
says, and so do the programs that it leaves behind. -/
theorem exec_ran (hC : C.Lawful) (me : Nat) (busy : Option Nat) (t : Task σ ν) :
    ∀ (k : Scheduler σ ν) (role : Nat → Role), Sound C role busy k → Runs role busy me →
      t.Heeds C (role me) (fun _ => C.holds) k.shared → Ran C busy me k (exec me t k) := by
  induction t with
  | finish r =>
    intro k role h hme ht
    obtain ⟨hagain, hover⟩ := h.programs.finish (fun c hc => hme.eq_of_busy hc) r
    have hshared : (k.finish me r).2.shared = k.shared := by
      cases hbody : (k.finish me r).1 with
      | none => exact (hover hbody).shared
      | some body => exact (hagain body hbody).1.shared
    refine ⟨hshared.symm ▸ C.refl none _, hshared.symm ▸ ht,
      fun hnone => ⟨role, h.of_holds (hover hnone)⟩, fun body hbody => ?_⟩
    obtain ⟨hop, hready⟩ := hagain body hbody
    refine ⟨_, (h.step hop).restart hme, ?_, ?_⟩
    · rcases hme with hbusy | ⟨hbusy, hrole⟩
      · exact .inl hbusy
      · exact .inr ⟨hbusy, by rw [Function.update_self, hrole]; rfl⟩
    · change Ready C _ (k.finish me r).2.shared _
      rw [Function.update_self, hshared]
      exact hready
  | look next ih => exact fun k role h hme ht => ih k.shared k role h hme ht
  | put s' next ih =>
    intro k role h hme ht
    obtain ⟨ρ', hstep, hnext⟩ := ht
    have hsound := h.put hC hme hstep
    have hme' : Runs (Function.update role me ρ') busy me := by
      rcases hme with hbusy | ⟨hbusy, hrole⟩
      · exact .inl hbusy
      · refine .inr ⟨hbusy, ?_⟩
        rw [Function.update_self]
        rcases hstep.becomes with heq | ⟨heq, -⟩
        · exact heq.trans hrole
        · exact absurd (hrole.symm.trans heq) nofun
    have hran := ih { k with shared := s' } _ hsound hme' (by rwa [Function.update_self])
    exact hran.after (hC.apart hstep.may fun _ _ => nofun)
  | call c next ih =>
    intro k role h hme ht
    have hop := h.programs.perform me c
    have hran := ih (k.perform me c).1 (k.perform me c).2 role (h.step hop) hme
      (hop.shared.symm ▸ ht _)
    exact hran.after (hop.shared.symm ▸ C.refl none _)
  | spawn repeated body next _ ih =>
    intro k role h hme ht
    have hbody : Ready C (role me).child k.shared fun _ : Unit => body :=
      fun _ s' hh hm => ht.1 s' hh (by rwa [Role.number?_child] at hm)
    have hsound := h.spawn hme repeated hbody
    have hself := spawned_self role me k.cells.size
    have hme' : Runs (spawned role me k.cells.size) busy me := by
      unfold Runs at hme ⊢
      rwa [hself]
    have hran := ih (k.addTask repeated body).1 (k.addTask repeated body).2 _ hsound hme'
      (hself.symm ▸ ht.2 _)
    exact hran.after (C.refl none _)
  | watch c reaction next _ ih =>
    intro k role h hme ht
    have hop := h.programs.addWatcher c (w := .run reaction) ht.1
    have hran := ih k.watches (k.addWatcher c (.run reaction)) role (h.step hop) hme
      (hop.shared.symm ▸ ht.2 _)
    exact hran.after (hop.shared.symm ▸ C.refl none _)
  | wait what next ih =>
    intro k role h hme ht
    have hnext : Ready C (role me) k.shared next := fun a s' hh hm => ht.2 a s' hh hm
    have hbusy : Holds ((C.programs role k.shared).except (some me)) k.shared k :=
      h.programs.imp (fun c _ _ hn => hn.imp_left fun hc => congrArg some (hme.eq_of_busy hc).symm)
        (fun _ _ _ ha => ha) fun _ hr => hr
    have hover : ∀ {k' : Scheduler σ ν}, Holds (C.programs role k.shared) k.shared k' →
        Ran C busy me k (none, k') := fun hop =>
      ⟨hop.shared.symm ▸ C.refl none _, hop.shared.symm ▸ ht.1, fun _ => ⟨role, h.of_holds hop⟩,
        nofun⟩
    cases what with
    | turn => exact hover (hbusy.awaitTurn hnext)
    | cell c =>
      unfold exec
      split
      · exact ih _ k role h hme (ht.2 _ k.shared ht.1 (C.refl _ _))
      · exact hover (hbusy.awaitCell c hnext)

/-- No task has its turn: all programs heed the charter, and the shared state is as it says. -/
structure Settled (C : Charter σ) (k : Scheduler σ ν) : Prop where
  holds : C.holds k.shared
  sound : ∃ role, Sound C role none k

/-- The scheduler has gone from `k` to `k'` by heeding the charter. -/
structure Moved (C : Charter σ) (k k' : Scheduler σ ν) : Prop where
  settled : Settled C k'
  meanwhile : C.meanwhile none k.shared k'.shared

theorem Moved.trans {k₁ k₂ k₃ : Scheduler σ ν} (h₁ : Moved C k₁ k₂) (h₂ : Moved C k₂ k₃) :
    Moved C k₁ k₃ :=
  ⟨h₂.settled, C.trans h₁.meanwhile h₂.meanwhile⟩

theorem Settled.moved {k' : Scheduler σ ν} (h : Settled C k)
    (hop : ∀ P : Programs σ ν, Holds P k.shared k → Holds P k.shared k') : Moved C k k' := by
  obtain ⟨role, hsound⟩ := h.sound
  have hshared := (hop _ hsound.holds).shared
  exact ⟨⟨hshared.symm ▸ h.holds, role, hsound.of_holds (hop _ hsound.holds)⟩,
    hshared.symm ▸ C.refl none _⟩

theorem Settled.turn (hC : C.Lawful) (h : Settled C k) (t : Nat) (wokenBy : Option Nat) :
    Moved C k (k.turn t wokenBy) := by
  unfold Scheduler.turn
  split
  · rename_i ts hts
    simp only []
    generalize (if ts.interruptDue = true then some Failure.interrupted
      else wokenBy.bind fun c => failureOf (k.statusOf c)) = answer
    obtain ⟨role, hsound⟩ := h.sound
    have hnext : Ready C (role t) k.shared ts.next := (hsound.holds.task hts).1
    have hbegun := (hsound.except t).step ((hsound.except t).programs.modifyTask t
      (f := fun s => { s with waitingFor := none, interruptDue := false }) fun _ hts => hts)
    have hran := exec_ran hC t (some t) (ts.next answer) _ role hbegun (.inl rfl)
      (hnext answer _ h.holds (C.refl _ _))
    split
    · rename_i k' heq
      rw [heq] at hran
      exact ⟨⟨hran.holds, hran.ended rfl⟩, hran.meanwhile⟩
    · rename_i body k' heq
      rw [heq] at hran
      obtain ⟨role', hsound', hruns, hbody⟩ := hran.again body rfl
      have hran' := (exec_ran hC t (some t) body k' role' hsound' hruns
        (hbody () _ hran.holds (C.refl _ _))).after hran.meanwhile
      -- what the task starts over with ends at once: it waits for its next turn
      split
      · rename_i k'' heq'
        rw [heq'] at hran'
        exact ⟨⟨hran'.holds, hran'.ended rfl⟩, hran'.meanwhile⟩
      · rename_i body' k'' heq'
        rw [heq'] at hran'
        obtain ⟨role'', hsound'', -, hbody'⟩ : ∃ role, Sound C role (some t) k'' ∧ _ ∧
            Ready C (role t) k''.shared fun _ : Unit => body' := hran'.again body' rfl
        exact ⟨⟨hran'.holds, role'', hsound''.of_holds (hsound''.programs.awaitTurn hbody'.first)⟩,
          hran'.meanwhile⟩
  · exact h.moved fun _ h => h

/-! ### Rounds -/

/-- The reactions that a job would run heed the charter. -/
def JobOk (C : Charter σ) (s : σ) : Job σ ν → Prop
  | .run _ program => Ready C .common s program
  | .turn .. | .timer _ => True

theorem JobOk.mono {s s' : σ} {j : Job σ ν} (hm : C.meanwhile none s s') (h : JobOk C s j) :
    JobOk C s' j := by
  cases j with
  | run c program => exact Ready.mono hm h
  | turn t wokenBy => trivial
  | timer t => trivial

theorem Settled.doJob (hC : C.Lawful) (h : Settled C k) {j : Job σ ν} (hj : JobOk C k.shared j) :
    Moved C k (k.doJob j) := by
  cases j with
  | turn t wokenBy => exact h.turn hC t wokenBy
  | run c program =>
    obtain ⟨role, hsound⟩ := h.sound
    -- a reaction goes by the number of the next cell, which no task has
    have hself := Function.update_self k.cells.size Role.common role
    have hran := exec_ran hC k.cells.size none (program (k.statusOf c)) k _
      (hsound.place fun _ heq => by cases heq) (.inr ⟨rfl, hself⟩) (hself.symm ▸ hj _ _ h.holds (C.refl _ _))
    refine ⟨⟨hran.holds, ?_⟩, hran.meanwhile⟩
    cases hbody : (exec k.cells.size (program (k.statusOf c)) k).1 with
    | none => exact hran.ended hbody
    | some body =>
      obtain ⟨role', hsound', -⟩ := hran.again body hbody
      exact ⟨role', hsound'⟩
  | timer t => exact h.moved fun _ hp => hp.ring t

theorem Settled.doJobs (hC : C.Lawful) (js : List (Job σ ν)) : ∀ k : Scheduler σ ν, Settled C k →
    (∀ j ∈ js, JobOk C k.shared j) → Moved C k (js.foldl Scheduler.doJob k) := by
  induction js with
  | nil => exact fun k h _ => h.moved fun _ hp => hp
  | cons j js ih =>
    intro k h hjs
    have hmoved := h.doJob hC (hjs j List.mem_cons_self)
    exact hmoved.trans (ih _ hmoved.settled fun j' hj' =>
      (hjs j' (List.mem_cons_of_mem j hj')).mono hmoved.meanwhile)

/-- The state within the next round after the first jobs, between two turns. -/
def amid (k : Scheduler σ ν) (jobs : Nat) : Scheduler σ ν :=
  (k.collect.ready.toList.take jobs).foldl doJob { k.collect with ready := #[] }

/-- **Between any two jobs of a round** the shared state is as the charter says. -/
theorem Settled.amid (hC : C.Lawful) (h : Settled C k) (jobs : Nat) : Moved C k (k.amid jobs) := by
  obtain ⟨role, hsound⟩ := h.sound
  have hcollect := hsound.holds.collect
  have hmoved : Moved C k { k.collect with ready := #[] } :=
    h.moved fun P hp => ⟨hp.collect.shared, hp.collect.cells, by simp⟩
  refine hmoved.trans (Settled.doJobs hC _ _ hmoved.settled fun j hj => ?_)
  have hready := hcollect.ready j (Array.mem_toList_iff.mp (List.mem_of_mem_take hj))
  have hshared : k.collect.shared = k.shared := hcollect.shared
  cases j with
  | run c program =>
    change Ready C .common k.collect.shared program
    rw [hshared]
    exact hready
  | turn t wokenBy => trivial
  | timer t => trivial

theorem amid_size (k : Scheduler σ ν) : k.amid k.collect.ready.size = k.collect.doReady := by
  unfold Scheduler.amid doReady
  rw [← Array.length_toList, List.take_length, Array.foldl_toList]
  rfl

/-- **A round** heeds the charter. -/
theorem Settled.round (hC : C.Lawful) (h : Settled C k) {k' : Scheduler σ ν}
    (hround : k.round? = some k') : Moved C k k' := by
  unfold Scheduler.round? at hround
  simp only [] at hround
  split at hround
  · cases hround
  · cases hround
    rw [← amid_size]
    exact h.amid hC _

theorem Settled.addTask (h : Settled C k) (hρ : ρ.child = ρ) {body : Task σ ν}
    (hbody : ∀ s, C.holds s → body.Heeds C ρ (fun _ => C.holds) s) :
    Settled C (k.addTask false body).2 := by
  obtain ⟨role, hsound⟩ := h.sound
  have hplaced := hsound.place fun n => hρ ▸ Role.child_ne_holder ρ n
  have hready : Ready C ρ k.shared fun _ : Unit => body := fun _ s hh _ => hbody s hh
  have hop : Holds _ _ (k.addTask false body).2 := hplaced.holds.addTask false (by
    change Ready C (Function.update role k.cells.size ρ k.cells.size) k.shared _
    rw [Function.update_self]
    exact hready.first) nofun
  refine ⟨?_, _, hplaced.of_holds hop⟩
  rw [hop.shared]
  exact h.holds

/-! ### Runs -/

/-- The states of runs that begin with a shared state of `start` and in which tasks of `arrivals`
come in at any time. -/
inductive Reachable (start : σ → Prop) (arrivals : Task σ ν → Prop) : Scheduler σ ν → Prop
  | start {s : σ} (h : start s) : Reachable start arrivals { shared := s }
  | arrive {k : Scheduler σ ν} {body : Task σ ν} (h : Reachable start arrivals k)
    (hbody : arrivals body) : Reachable start arrivals (k.addTask false body).2
  | round {k k' : Scheduler σ ν} (h : Reachable start arrivals k) (hround : k.round? = some k') :
    Reachable start arrivals k'

/-- A task comes in and the next round is done. -/
theorem Reachable.after {start : σ → Prop} {arrivals : Task σ ν → Prop} {body : Task σ ν}
    (h : Reachable start arrivals k) (hbody : arrivals body)
    (hready : (k.addTask false body).2.collect.ready.isEmpty = false) :
    Reachable start arrivals (k.addTask false body).2.collect.doReady :=
  (h.arrive hbody).round (by simp [Scheduler.round?, hready])

/-- So many rounds, or fewer if there is nothing left to do. -/
def rounds : (count : Nat) → Scheduler σ ν → Scheduler σ ν
  | 0, k => k
  | count + 1, k => (k.round?.map (rounds count)).getD k

theorem Reachable.rounds {start : σ → Prop} {arrivals : Task σ ν → Prop}
    (h : Reachable start arrivals k) (count : Nat) : Reachable start arrivals (k.rounds count) := by
  induction count generalizing k with
  | zero => exact h
  | succ count ih =>
    unfold Scheduler.rounds
    cases hround : k.round? with
    | none => exact h
    | some k' => exact ih (h.round hround)

/-- **What a charter says holds in every reachable state**, if it holds at the start and every task
that arrives heeds the charter. -/
theorem Reachable.settled (hC : C.Lawful) (hρ : ρ.child = ρ) {start : σ → Prop}
    {arrivals : Task σ ν → Prop} (hstart : ∀ s, start s → C.holds s)
    (harrivals : ∀ body, arrivals body → ∀ s, C.holds s → body.Heeds C ρ (fun _ => C.holds) s)
    (h : Reachable start arrivals k) : Settled C k := by
  induction h with
  | start hs => exact ⟨hstart _ hs, fun _ => .common, ⟨nofun, nofun⟩, rfl, by simp, by simp⟩
  | arrive _ hbody ih => exact ih.addTask hρ (harrivals _ hbody)
  | round _ hround ih => exact (ih.round hC hround).settled

/-- **What a regime says holds in every reachable state**, if it holds at the start and every task
that arrives keeps the regime. -/
theorem Reachable.holds {R : Regime σ} (hR : R.Mutual) {start : σ → Prop}
    {arrivals : Task σ ν → Prop} (hstart : ∀ s, start s → R.holds s)
    (harrivals : ∀ body, arrivals body → ∀ s, R.holds s → body.Keeps R s)
    (h : Reachable start arrivals k) : R.holds k.shared :=
  (h.settled hR.lawful (ρ := .common) rfl hstart fun body hbody s hs =>
    (harrivals body hbody s hs).heeds).holds

end Scheduler

end ChatCommands.Concurrency
