import ChatCommands.Proofs.Concurrency.Custody
import ChatCommands.Proofs.Concurrency.Minding
import ChatCommands.Proofs.Engine.Confined
import ChatCommands.Proofs.Sandbox.Supervision
import Mathlib.Data.Multiset.Count

/-!
The slots of the pool.

Whoever calls the pool holds a stake for the call, one for its place among the waiting while it waits
for a slot, and one for the run while its script runs.  The accounts of the pool agree with the stakes
of all callers whenever no task has its turn, however the calls and the runs come to their ends.
Main statement: `slots_accounted`.
-/

namespace ChatCommands.Engine

open Concurrency Act Semaphore.Place

/-- The calls of the pool and the runs of scripts that there were, and those that have ended. -/
structure Visits where
  calls : Nat := 0
  returns : Nat := 0
  entries : Nat := 0
  exits : Nat := 0

variable {ω α β : Type}

/-- Notes the beginning and the end of a computation in a part of the environment. -/
def noted (p : Part ω Visits) (first last : Visits → Visits) (x : Action ω α) : Action ω α := do
  p.modify first
  let r ← Act.attempt x
  p.modify last
  Act.ofEnding r

/-- A run of a script, counted. -/
def countRun (p : Part ω Visits) (run : Action ω RunResult) : Action ω RunResult :=
  noted p (fun v => { v with entries := v.entries + 1 }) (fun v => { v with exits := v.exits + 1 }) run

/-- The runtimes, with their runs counted. -/
def countRuns (p : Part ω Visits) (rs : Runtimes ω) : Runtimes ω :=
  rs.map fun x => (x.1, fun code bindings timeout => countRun p (x.2 code bindings timeout))

/-- A call of the pool, counted as well. -/
def visit (p : Part ω Visits) (rs : Runtimes ω) (l : Language) (code : Text) (bindings : Json)
    (timeout : Binary64) : Action ω RunResult :=
  noted p (fun v => { v with calls := v.calls + 1 }) (fun v => { v with returns := v.returns + 1 })
    (execute (countRuns p rs) l code bindings timeout)

/-- What the accounts of the pool are about. -/
def poolView (p : Part ω Visits) (w : World ω) : Semaphore × Nat × Visits :=
  (w.slots, w.active, p.get w.env)

/-- What a caller of the pool has a stake in: its call, its place among those who wait for a slot, the
run of its script. -/
inductive Stake
  | call
  | place (signal : Nat)
  | run
  deriving DecidableEq

/-- A slot has been given to the one who waits for the signal. -/
def isFired {ν : Type} : CellStatus ν → Bool
  | .fired => true
  | .pending | .ended _ => false

/-- The slots that have been given to waiting tasks. -/
def fired (sc : Scene (World ω) Product) : Nat :=
  sc.shared.slots.waiting.countP fun w => isFired (sc.status w)

/-- The accounts of the pool and the stakes of the callers, where a caller that has its turn may be
idle, that is neither wait nor run, may hold a slot that is not counted as active, and may have been
counted as active before its run is. -/
structure Accounts (p : Part ω Visits) (max : Int) (idle held unseen : Nat)
    (sc : Scene (World ω) Product) (g : Multiset Stake) : Prop where
  calls : (p.get sc.shared.env).calls = (p.get sc.shared.env).returns + g.count .call
  runs : (p.get sc.shared.env).entries = (p.get sc.shared.env).exits + g.count .run
  active : sc.shared.active = g.count .run + unseen
  callers : g.count .call = g.count .run + sc.shared.slots.waiting.length + idle
  slots : sc.shared.slots.free + held + sc.shared.active + fired sc = max
  free : 0 ≤ sc.shared.slots.free
  nodup : sc.shared.slots.waiting.Nodup
  places : ∀ w, g.count (.place w) = if w ∈ sc.shared.slots.waiting then 1 else 0
  waiting : ∀ w ∈ sc.shared.slots.waiting, w < sc.size ∧ sc.plain w ∧
    (sc.status w = .pending ∨ sc.status w = .fired ∨ sc.status w = .ended (.error .interrupted))

/-- The accounts of the pool agree with the stakes, and nobody else fires the signals of those who
wait. -/
def poolCommons (p : Part ω Visits) (max : Int) : Commons (World ω) Product Stake where
  holds := Accounts p max 0 0 0
  loose n g c := c < n ∧ .place c ∉ g

variable {p : Part ω Visits} {max : Int} {idle held unseen : Nat} {sc sc' : Scene (World ω) Product}
  {g : Multiset Stake}

theorem Accounts.mem_iff (h : Accounts p max idle held unseen sc g) {w : Nat} :
    .place w ∈ g ↔ w ∈ sc.shared.slots.waiting := by
  rw [← Multiset.count_pos, h.places]
  split
  · rename_i hw
    exact ⟨fun _ => hw, fun _ => Nat.one_pos⟩
  · rename_i hw
    exact ⟨fun h => absurd h (Nat.lt_irrefl 0), fun h => absurd h hw⟩

/-- Nobody can settle the signal of one who waits, but the one may be interrupted. -/
theorem Accounts.drift (h : Accounts p max idle held unseen sc g)
    (hdrift : sc.Drifts ((poolCommons p max).loose sc.size g) sc') :
    Accounts p max idle held unseen sc' g := by
  have hstatus : ∀ w ∈ sc.shared.slots.waiting, sc'.status w = sc.status w ∨
      sc.status w = .pending ∧ sc'.status w = .ended (.error .interrupted) := by
    intro w hw
    rcases hdrift.status w (h.waiting w hw).1 with heq | ⟨hp, hi | ⟨⟨-, hnot⟩, -⟩⟩
    · exact .inl heq
    · exact .inr ⟨hp, hi⟩
    · exact absurd (h.mem_iff.mpr hw) hnot
  have hfired : fired sc' = fired sc := by
    unfold fired
    rw [hdrift.shared]
    refine List.countP_congr fun w hw => ?_
    rcases hstatus w hw with heq | ⟨hp, hi⟩
    · rw [heq]
    · rw [hp, hi]
      exact Iff.rfl
  obtain ⟨hcalls, hruns, hactive, hcallers, hslots, hfree, hnodup, hplaces, hwaiting⟩ := h
  rw [← hfired] at hslots
  rw [← hdrift.shared] at hcalls hruns hactive hcallers hslots hfree hnodup hplaces
  refine ⟨hcalls, hruns, hactive, hcallers, hslots, hfree, hnodup, hplaces, fun w hw => ?_⟩
  rw [hdrift.shared] at hw
  obtain ⟨hlt, hplain, hdomain⟩ := hwaiting w hw
  refine ⟨Nat.lt_of_lt_of_le hlt hdrift.size, hdrift.plain w hlt hplain, ?_⟩
  rcases hstatus w hw with heq | ⟨-, hi⟩
  · rwa [heq]
  · exact .inr (.inr hi)

theorem lawful_poolCommons : (poolCommons p max).Lawful where
  drift h hdrift := h.drift hdrift
  grow hn h := ⟨Nat.lt_of_lt_of_le h.1 hn, h.2⟩
  fewer h := ⟨h.1, fun hmem => h.2 (Multiset.mem_add.mpr (.inr hmem))⟩
  fresh {sc g} h := by
    refine ⟨Nat.lt_succ_self _, fun hmem => ?_⟩
    exact Nat.lt_irrefl _ (h.waiting _ (h.mem_iff.mp hmem)).1

theorem about_poolCommons : (poolCommons p max).About (poolView p) := by
  intro sc s g heq h
  obtain ⟨hslots, hactive, hvisits⟩ : sc.shared.slots = s.slots ∧ sc.shared.active = s.active ∧
      p.get sc.shared.env = p.get s.env := by
    simpa [poolView] using heq
  obtain ⟨h₁, h₂, h₃, h₄, h₅, h₆, h₇, h₈, h₉⟩ := h
  unfold fired at h₅
  rw [hvisits] at h₁ h₂
  rw [hactive] at h₃
  rw [hslots] at h₄ h₆ h₇ h₈ h₉
  rw [hactive, hslots] at h₅
  exact ⟨h₁, h₂, h₃, h₄, h₅, h₆, h₇, h₈, h₉⟩

/-! ### The semaphore -/

/-- The accounts of the pool as they are for a caller that has its turn and these stakes. -/
def InHand (p : Part ω Visits) (max : Int) (idle held unseen : Nat) (own : Multiset Stake)
    (s : Share (World ω) Product Stake) : Prop :=
  s.own = own ∧ Accounts p max idle held unseen s.scene (own + s.rest)

variable {own own' rest : Multiset Stake}

theorem loose_exchange (h : ∀ c, Stake.place c ∈ own' → Stake.place c ∈ own) {n c : Nat}
    (hloose : (poolCommons p max).loose n (own + rest) c) :
    (poolCommons p max).loose n (own' + rest) c := by
  refine ⟨hloose.1, fun hmem => hloose.2 ?_⟩
  rw [Multiset.mem_add] at hmem ⊢
  exact hmem.imp_left (h c)

variable {C : Commons (World ω) Product Stake} {P : Share (World ω) Product Stake → Prop}

theorem manages_anyLive (ws : List Nat) : Manages C P (anyLive ws)
    fun r s => (∃ b, r = .ok b) ∧ P s := by
  induction ws with
  | nil => exact manages_ofEnding _ fun s hs => ⟨⟨false, rfl⟩, hs⟩
  | cons w rest ih =>
    refine manages_status_bind fun status => ?_
    split
    · exact ih.of_pre fun s hs => hs.1
    · exact manages_ofEnding _ fun s hs => ⟨⟨true, rfl⟩, hs.1⟩

theorem manages_firstPending (ws : List Nat) : Manages C P (firstPending ws)
    fun r s => (∃ x, r = .ok x ∧ ∀ w, x = some w → w ∈ ws ∧ s.scene.status w = .pending) ∧ P s := by
  induction ws with
  | nil => exact manages_ofEnding _ fun s hs => ⟨⟨none, rfl, nofun⟩, hs⟩
  | cons w rest ih =>
    refine manages_status_bind fun status => ?_
    split
    · refine ih.weaken (fun s hs => hs.1) ?_
      rintro r s ⟨⟨x, rfl, hx⟩, hs⟩
      exact ⟨⟨x, rfl, fun w' hw' => ⟨List.mem_cons_of_mem _ (hx w' hw').1, (hx w' hw').2⟩⟩, hs⟩
    · rename_i hpending
      refine manages_ofEnding _ fun s hs => ⟨⟨some w, rfl, fun w' hw' => ?_⟩, hs.1⟩
      obtain rfl := Option.some.inj hw'
      refine ⟨List.mem_cons_self, hs.2.trans ?_⟩
      cases status with
      | pending => rfl
      | fired | ended _ => exact absurd rfl hpending

/-- A slot goes to one who waits. -/
theorem Accounts.fire (h : Accounts p max idle (held + 1) unseen sc g) {w : Nat}
    (hw : w ∈ sc.shared.slots.waiting) (hpending : sc.status w = .pending) :
    Accounts p max idle held unseen (sc.settle w .fired) g := by
  have hstatus : (sc.settle w .fired).status = Function.update sc.status w .fired := by
    simp [Scene.settle, hpending, CellStatus.isDone]
  have hfired : fired (sc.settle w .fired) = fired sc + 1 := by
    -- the signal is among the waiting once, and was not fired before
    have hothers : ∀ ws : List Nat, w ∉ ws →
        ws.countP (fun i => isFired ((sc.settle w .fired).status i)) =
          ws.countP fun i => isFired (sc.status i) := by
      intro ws hnot
      refine List.countP_congr fun i hi => ?_
      have hne : i ≠ w := fun heq => hnot (heq ▸ hi)
      rw [hstatus, Function.update_of_ne hne]
    obtain ⟨before, after, heq⟩ := List.append_of_mem hw
    have hnodup := h.nodup
    rw [heq] at hnodup
    have hbefore : w ∉ before := fun hmem =>
      (List.nodup_append.mp hnodup).2.2 w hmem w List.mem_cons_self rfl
    have hafter : w ∉ after := (List.nodup_cons.mp (List.nodup_append.mp hnodup).2.1).1
    change sc.shared.slots.waiting.countP _ = sc.shared.slots.waiting.countP _ + 1
    rw [heq, List.countP_append, List.countP_append, List.countP_cons, List.countP_cons,
      hothers before hbefore, hothers after hafter, hstatus, Function.update_self, hpending]
    simp only [isFired, if_true, Bool.false_eq_true, if_false]
    omega
  refine { h with slots := ?_, waiting := fun i hi => ?_ }
  · have hslots := h.slots
    change sc.shared.slots.free + held + sc.shared.active + fired _ = max
    rw [hfired]
    push_cast at hslots ⊢
    omega
  · obtain ⟨hlt, hplain, hdomain⟩ := h.waiting i hi
    refine ⟨hlt, hplain, ?_⟩
    rw [hstatus]
    by_cases heq : i = w
    · subst heq
      exact .inr (.inl (Function.update_self ..))
    · rwa [Function.update_of_ne heq]

/-- The number of free slots is another one. -/
theorem Accounts.setFree (h : Accounts p max idle held unseen sc g) {held' : Nat} {n : Int}
    (hn : 0 ≤ n) (hsum : n + held' = sc.shared.slots.free + held) :
    Accounts p max idle held' unseen
      (sc.put { sc.shared with slots := { sc.shared.slots with free := n } }) g := by
  refine { h with free := hn, slots := ?_ }
  have hslots := h.slots
  change n + held' + sc.shared.active + fired sc = max
  omega

/-- A change of the semaphore, and what comes after it. -/
theorem manages_slots_bind {f : Semaphore → Semaphore} {y : Action ω β}
    {mid : Share (World ω) Product Stake → Prop}
    {post : Ending β → Share (World ω) Product Stake → Prop}
    (h : ∀ s, P s → mid (s.put { s.scene.shared with slots := f s.scene.shared.slots } s.own))
    (hy : Manages C mid y post) : Manages C P (do slotPlace.modify f; y) post :=
  manages_modify_bind (fun s hs => ⟨s.own, fun _ h => h, h s hs⟩) hy

theorem manages_fire (w : Nat) : Manages (poolCommons p max)
    (fun s => InHand p max idle (held + 1) unseen own s ∧ w ∈ s.scene.shared.slots.waiting ∧
      s.scene.status w = .pending)
    (call (.fire w) : Action ω Unit) fun r s => r = .ok () ∧ InHand p max idle held unseen own s := by
  intro k Q s hs hk
  obtain ⟨⟨hown, hs⟩, hw, hpending⟩ := hs
  refine ⟨s.own, fun _ h => h, nofun, fun reply sc hsc => ?_⟩
  obtain rfl := hsc.2 (hs.waiting w hw).2.1
  exact hk _ _ ⟨rfl, hown, hs.fire hw hpending⟩

theorem manages_wakeNext (idle held unseen : Nat) (own : Multiset Stake) :
    Manages (poolCommons p max)
    (fun s => InHand p max idle held unseen own s ∧ 0 < s.scene.shared.slots.free)
    (slotPlace.wakeNext : Action ω Unit) fun r s => r = .ok () ∧ InHand p max idle held unseen own s := by
  refine manages_gets_bind fun ws => ?_
  refine manages_bind (manages_firstPending ws) (fun found => ?_) ?_
  · cases found with
    | none => exact manages_ofEnding _ fun s hs => ⟨rfl, hs.2.1.1⟩
    | some w =>
      refine manages_slots_bind ?_ (manages_fire w)
      rintro s ⟨⟨x, hx, hfound⟩, ⟨⟨hown, hs⟩, hfree⟩, hws⟩
      cases hx
      obtain ⟨hw, hpending⟩ := hfound w rfl
      refine ⟨⟨hown, ?_⟩, hws ▸ hw, hpending⟩
      exact hs.setFree (Int.sub_nonneg_of_le hfree) (by push_cast; omega)
  · rintro e s ⟨⟨x, hx, -⟩, -⟩
    cases hx

theorem manages_release (idle held unseen : Nat) (own : Multiset Stake) :
    Manages (poolCommons p max) (InHand p max idle (held + 1) unseen own)
    (slotPlace.release : Action ω Unit) fun r s =>
      r = .ok () ∧ InHand p max idle held unseen own s := by
  refine manages_slots_bind (fun s hs => ?_) (manages_wakeNext idle held unseen own)
  obtain ⟨hown, hs⟩ := hs
  refine ⟨⟨hown, ?_⟩, Int.lt_add_one_of_le hs.free⟩
  exact hs.setFree (Int.le_add_one hs.free) (by push_cast; omega)

/-- Others wait, and stakes in places have changed hands. -/
theorem Accounts.setWaiting {idle' held' : Nat} {g' : Multiset Stake} {ws : List Nat}
    (h : Accounts p max idle held unseen sc g) (hcall : g'.count .call = g.count .call)
    (hrun : g'.count .run = g.count .run)
    (hlength : ws.length + idle' = sc.shared.slots.waiting.length + idle)
    (hfired : ws.countP (fun w => isFired (sc.status w)) + held' = fired sc + held)
    (hnodup : ws.Nodup) (hplaces : ∀ w, g'.count (.place w) = if w ∈ ws then 1 else 0)
    (hwaiting : ∀ w ∈ ws, w < sc.size ∧ sc.plain w ∧ (sc.status w = .pending ∨
      sc.status w = .fired ∨ sc.status w = .ended (.error .interrupted))) :
    Accounts p max idle' held' unseen (sc.put { sc.shared with
      slots := { sc.shared.slots with waiting := ws } }) g' := by
  refine ⟨hcall ▸ h.calls, hrun ▸ h.runs, hrun ▸ h.active, ?_, ?_, h.free, hnodup, hplaces,
    hwaiting⟩
  · have hcallers := h.callers
    change g'.count .call = g'.count .run + ws.length + idle'
    omega
  · have hslots := h.slots
    change sc.shared.slots.free + held' + sc.shared.active +
      (ws.countP fun w => isFired (sc.status w) : Nat) = max
    omega

/-- An idle caller comes to wait for a slot. -/
theorem Accounts.join {w : Nat} (h : Accounts p max 1 held unseen sc ({.call} + rest))
    (hlt : w < sc.size) (hplain : sc.plain w) (hpending : sc.status w = .pending)
    (hnew : w ∉ sc.shared.slots.waiting) :
    Accounts p max 0 held unseen (sc.put { sc.shared with slots := { sc.shared.slots with
      waiting := sc.shared.slots.waiting ++ [w] } }) ({.call, .place w} + rest) := by
  refine h.setWaiting (by simp) (by simp) (by simp) ?_ ?_ (fun i => ?_) fun i hi => ?_
  · simp [fired, hpending, isFired]
  · refine List.nodup_append.mpr ⟨h.nodup, List.nodup_singleton w, fun i hi j hj heq => ?_⟩
    rw [List.mem_singleton.mp hj] at heq
    exact hnew (heq ▸ hi)
  · have hplaces := h.places i
    by_cases heq : i = w
    · simp [heq, hnew] at hplaces ⊢
      omega
    · simpa [heq] using hplaces
  · rcases List.mem_append.mp hi with hi | hi
    · exact h.waiting i hi
    · obtain rfl := List.mem_singleton.mp hi
      exact ⟨hlt, hplain, .inl hpending⟩

/-- A caller no longer waits, and holds a slot if it was given one. -/
theorem Accounts.leave {w : Nat} (h : Accounts p max 0 0 unseen sc ({.call, .place w} + rest)) :
    Accounts p max 1 (if isFired (sc.status w) then 1 else 0) unseen
      (sc.put { sc.shared with slots := { sc.shared.slots with
        waiting := sc.shared.slots.waiting.erase w } }) ({.call} + rest) := by
  have hw : w ∈ sc.shared.slots.waiting := h.mem_iff.mp (by simp)
  refine h.setWaiting (by simp) (by simp) (List.length_erase_add_one hw) ?_ (h.nodup.erase w)
    (fun i => ?_) fun i hi => h.waiting i (List.mem_of_mem_erase hi)
  · have hperm := (List.perm_cons_erase hw).countP_eq fun w => isFired (sc.status w)
    rw [List.countP_cons] at hperm
    exact hperm.symm
  · have hplaces := h.places i
    by_cases heq : i = w
    · simp [heq, hw, h.nodup.not_mem_erase] at hplaces ⊢
      omega
    · simpa [heq, List.mem_erase_of_ne heq] using hplaces

/-- After the wait for a slot something has happened to the signal: it was fired if the wait was not
interrupted. -/
theorem manages_waitSlot (w : Nat) : Manages (poolCommons p max)
    (InHand p max 0 0 0 {.call, .place w}) (Act.wait (.cell w) : Action ω Unit)
    fun r s => InHand p max 0 0 0 {.call, .place w} s ∧
      (r = .ok () → isFired (s.scene.status w) = true) ∧
      (isFired (s.scene.status w) = true ∨ (s.scene.status w).isInterrupted = true) := by
  refine manages_wait (fun s hs => ?_) fun s s' answer hs hh hown _ ha => ?_
  · rw [Share.total, hs.1]
    exact hs.2
  · have hown' := hown.trans hs.1
    rw [Share.total, hown'] at hh
    obtain ⟨hdone, hanswer⟩ := ha
    have hdomain := (hh.waiting w (hh.mem_iff.mp (by simp))).2.2
    refine ⟨⟨hown', hh⟩, fun hok => ?_, ?_⟩
    · cases answer with
      | some f => cases hok
      | none =>
        rcases hdomain with hs | hs | hs
        · rw [hs] at hdone
          cases hdone
        · rw [hs]
          rfl
        · rw [hs] at hanswer
          rcases hanswer with h | h
          · cases h
          · cases h
    · rcases hdomain with hs | hs | hs
      · rw [hs] at hdone
        cases hdone
      · rw [hs]
        exact .inl rfl
      · rw [hs]
        exact .inr rfl

/-- Whoever has taken a slot holds it, and whoever has failed to does not. -/
def Taken (p : Part ω Visits) (max : Int) : Ending Unit → Share (World ω) Product Stake → Prop
  | .ok () => InHand p max 1 1 0 {.call}
  | .error _ => InHand p max 1 0 0 {.call}

/-- Who was given a slot keeps it, unless it was interrupted; then it gives the slot back. -/
theorem manages_afterWait (w : Nat) (r : Ending Unit) : Manages (poolCommons p max)
    (fun s => InHand p max 1 (if isFired (s.scene.status w) then 1 else 0) 0 {.call} s ∧
      (r = .ok () → isFired (s.scene.status w) = true) ∧
      (isFired (s.scene.status w) = true ∨ (s.scene.status w).isInterrupted = true))
    (match r with
      | .ok () => do
        if 0 < (← Act.gets slotPlace.get).free then slotPlace.wakeNext
      | .error e => do
        if !(← Act.call (.status w)).isInterrupted then slotPlace.release
        Act.fail e : Action ω Unit) (Taken p max) := by
  have hheld : ∀ s : Share (World ω) Product Stake, isFired (s.scene.status w) = true →
      InHand p max 1 (if isFired (s.scene.status w) then 1 else 0) 0 {.call} s →
        InHand p max 1 1 0 {.call} s := fun s hfired hs => by rwa [if_pos hfired] at hs
  cases r with
  | ok _ =>
    refine manages_gets_bind fun slots => ?_
    split
    · rename_i hfree
      refine (manages_wakeNext 1 1 0 {.call}).weaken ?_ ?_
      · rintro s ⟨⟨hs, hok, -⟩, rfl⟩
        exact ⟨hheld s (hok rfl) hs, hfree⟩
      · rintro r s ⟨rfl, hs⟩
        exact hs
    · exact manages_ofEnding _ fun s hs => hheld s (hs.1.2.1 rfl) hs.1.1
  | error e =>
    refine manages_status_bind fun status => ?_
    split
    · rename_i hlive
      have hover : Manages (poolCommons p max) (fun s => (.ok () : Ending Unit) = .ok () ∧
          InHand p max 1 0 0 {.call} s) (Act.fail e : Action ω Unit) (Taken p max) :=
        manages_ofEnding _ fun s hs => hs.2
      refine manages_bind ((manages_release 1 0 0 {.call}).of_pre ?_) (fun _ => hover) ?_
      · rintro s ⟨⟨hs, -, hfired | hinterrupted⟩, rfl⟩
        · exact hheld s hfired hs
        · rw [hinterrupted] at hlive
          cases hlive
      · rintro e' s ⟨he, -⟩
        cases he
    · rename_i hinterrupted
      refine manages_ofEnding _ ?_
      rintro s ⟨⟨hs, -, -⟩, rfl⟩
      have hnot : isFired (s.scene.status w) = false := by
        cases hstatus : s.scene.status w with
        | fired =>
          rw [hstatus] at hinterrupted
          exact absurd rfl hinterrupted
        | pending | ended _ => rfl
      rwa [hnot, if_neg Bool.false_ne_true] at hs

/-- The caller has a place of its own before it comes to wait there. -/
def Called (p : Part ω Visits) (max : Int) (w : Nat) (s : Share (World ω) Product Stake) : Prop :=
  s.own = {.call, .place w} ∧ Accounts p max 1 0 0 s.scene ({.call} + s.rest) ∧
    w < s.scene.size ∧ s.scene.plain w ∧ s.scene.status w = .pending ∧
      w ∉ s.scene.shared.slots.waiting

theorem manages_newPlace : Manages (poolCommons p max) (InHand p max 1 0 0 {.call})
    (Act.newSignal : Action ω Nat) fun r s => ∃ w, r = .ok w ∧ Called p max w s := by
  intro k Q s hs hk
  obtain ⟨hown, hs⟩ := hs
  have hnew : s.scene.size ∉ s.scene.shared.slots.waiting := fun hmem =>
    Nat.lt_irrefl _ (hs.waiting _ hmem).1
  refine ⟨{.call, .place s.scene.size}, fun c hc => ⟨hc.1, fun hmem => hc.2 ?_⟩, nofun, ?_⟩
  · have hne : c ≠ s.scene.size := Nat.ne_of_lt hc.1
    simpa [Share.total, hown, hne] using hmem
  · rintro _ _ ⟨rfl, rfl⟩
    refine hk _ _ ⟨_, rfl, rfl, hs.drift ((Scene.drifts_push ..).mono fun _ => False.elim),
      Nat.lt_succ_self _, ?_, ?_, hnew⟩
    · change Function.update s.scene.plain s.scene.size _ s.scene.size
      rw [Function.update_self]
      exact ⟨Nat.le_refl 1, rfl⟩
    · exact Function.update_self ..

theorem manages_acquire : Manages (poolCommons p max) (InHand p max 1 0 0 {.call})
    (slotPlace.acquire : Action ω Unit) (Taken p max) := by
  refine manages_gets_bind fun slots => ?_
  refine manages_bind (manages_anyLive slots.waiting) (fun live => ?_) ?_
  · split
    · refine manages_bind (manages_newPlace.of_pre ?_) (fun w => ?_) ?_
      · exact fun s hs => hs.2.1
      · refine manages_slots_bind ?_ (manages_attempt_bind (manages_waitSlot w) fun r =>
          manages_modify_bind ?_ (manages_afterWait w r))
        · rintro s ⟨_, hw, hown, hs, hlt, hplain, hpending, hnew⟩
          cases hw
          exact ⟨hown, hs.join hlt hplain hpending hnew⟩
        · rintro s ⟨⟨hown, hs⟩, hfired⟩
          refine ⟨{.call}, fun c hc => ?_, ⟨rfl, hs.leave⟩, hfired⟩
          rw [Share.total, hown] at hc
          exact loose_exchange (by simp) hc
      · rintro e s ⟨w, hw, -⟩
        cases hw
    · rename_i hfree
      refine manages_modify fun s hs => ⟨s.own, fun _ h => h, hs.2.1.1, ?_⟩
      obtain ⟨-, ⟨-, hs⟩, rfl⟩ := hs
      have hsome : s.scene.shared.slots.free ≠ 0 := fun heq => hfree (by
        rw [Bool.or_eq_true]
        exact .inl (decide_eq_true heq))
      have hnonneg := hs.free
      have hpositive : 0 ≤ s.scene.shared.slots.free - 1 := by omega
      have hsum : s.scene.shared.slots.free - 1 + (1 : Nat) = s.scene.shared.slots.free + (0 : Nat) := by
        omega
      exact hs.setFree hpositive hsum
  · rintro e s ⟨⟨b, hb⟩, -⟩
    cases hb

/-! ### Calls of the pool -/

/-- The number of active runs is another one. -/
theorem Accounts.setActive {held' unseen' n : Nat} (h : Accounts p max idle held unseen sc g)
    (hn : n = g.count .run + unseen') (hsum : held' + n = held + sc.shared.active) :
    Accounts p max idle held' unseen' (sc.put { sc.shared with active := n }) g := by
  refine { h with active := hn, slots := ?_ }
  have hslots := h.slots
  change sc.shared.slots.free + held' + (n : Nat) + fired sc = max
  omega

/-- The visits are counted otherwise, and so are the stakes of the caller. -/
theorem InHand.note {idle' unseen' : Nat} {v : Visits} {e : ω} {s : Share (World ω) Product Stake}
    (h : InHand p max idle held unseen own s) (hv : p.get e = v)
    (hcalls : v.calls + (p.get s.scene.shared.env).returns + own.count .call =
      (p.get s.scene.shared.env).calls + v.returns + own'.count .call)
    (hruns : v.entries + (p.get s.scene.shared.env).exits + own.count .run =
      (p.get s.scene.shared.env).entries + v.exits + own'.count .run)
    (hactive : own'.count .run + unseen' = own.count .run + unseen)
    (hcallers : own'.count .call + own.count .run + idle = own.count .call + own'.count .run + idle')
    (hplaces : ∀ w, own'.count (.place w) = own.count (.place w)) :
    ∃ own₁, (∀ c, (poolCommons p max).loose s.scene.size s.total c →
        (poolCommons p max).loose s.scene.size (own₁ + s.rest) c) ∧
      InHand p max idle' held unseen' own' (s.put { s.scene.shared with env := e } own₁) := by
  obtain ⟨hown, h⟩ := h
  subst hv
  have h₁ := h.calls
  have h₂ := h.runs
  have h₃ := h.active
  have h₄ := h.callers
  rw [Multiset.count_add] at h₁ h₂ h₃
  rw [Multiset.count_add, Multiset.count_add] at h₄
  refine ⟨own', fun c hc => ?_, rfl, { h with
    calls := ?_, runs := ?_, active := ?_, callers := ?_, places := fun w => ?_ }⟩
  · rw [Share.total, hown] at hc
    refine loose_exchange (fun w hw => ?_) hc
    rw [← Multiset.count_pos] at hw ⊢
    exact hplaces w ▸ hw
  · change (p.get e).calls = (p.get e).returns + (own' + s.rest).count .call
    rw [Multiset.count_add]
    omega
  · change (p.get e).entries = (p.get e).exits + (own' + s.rest).count .run
    rw [Multiset.count_add]
    omega
  · change s.scene.shared.active = (own' + s.rest).count .run + unseen'
    rw [Multiset.count_add]
    omega
  · change (own' + s.rest).count .call = (own' + s.rest).count .run +
      s.scene.shared.slots.waiting.length + idle'
    rw [Multiset.count_add, Multiset.count_add]
    omega
  · have hw := h.places w
    rw [Multiset.count_add] at hw
    change (own' + s.rest).count (.place w) = _
    rw [Multiset.count_add, hplaces]
    exact hw

/-- A computation that begins and ends where the accounts are in order, and leaves other stakes
alone, is noted at both ends. -/
theorem manages_noted {first last : Visits → Visits} {x : Action ω α}
    {pre mid post : Share (World ω) Product Stake → Prop} (hp : p.Lawful)
    (hfirst : ∀ s e, pre s → p.get e = first (p.get s.scene.shared.env) → ∃ own,
      (∀ c, C.loose s.scene.size s.total c → C.loose s.scene.size (own + s.rest) c) ∧
        mid (s.put { s.scene.shared with env := e } own))
    (hlast : ∀ s e, mid s → p.get e = last (p.get s.scene.shared.env) → ∃ own,
      (∀ c, C.loose s.scene.size s.total c → C.loose s.scene.size (own + s.rest) c) ∧
        post (s.put { s.scene.shared with env := e } own))
    (hx : Manages C mid x fun _ => mid) : Manages C pre (noted p first last x) fun _ => post := by
  refine manages_modify_bind (fun s hs => hfirst s _ hs (hp _ _)) ?_
  refine manages_attempt_bind hx fun r => ?_
  refine manages_modify_bind (fun s hs => hlast s _ hs (hp _ _)) ?_
  exact manages_ofEnding r fun s hs => hs

theorem inHand_iff {s : Share (World ω) Product Stake} :
    InHand p max 0 0 0 own s ↔ (poolCommons p max).holds s.scene s.total ∧ s.own = own := by
  constructor
  · rintro ⟨rfl, hs⟩
    exact ⟨hs, rfl⟩
  · rintro ⟨hs, rfl⟩
    exact ⟨rfl, hs⟩

/-- What minds its own business leaves the accounts in order. -/
theorem manages_minding {x : Action ω α} (hx : x.Minds (poolView p) fun _ => False)
    (own : Multiset Stake) :
    Manages (poolCommons p max) (InHand p max 0 0 0 own) x fun _ => InHand p max 0 0 0 own := by
  have hC : (poolCommons p max).Lawful := lawful_poolCommons
  have hsteady := Commons.steady_holds hC about_poolCommons own
  exact (hx.manages hC about_poolCommons hsteady fun _ hc => hc.elim).weaken
    (fun s hs => inHand_iff.mp hs) fun _ s hs => inHand_iff.mpr hs

/-- A run of a script, counted, of a caller whose slot is counted as active. -/
theorem manages_countedRun (hp : p.Lawful) {run : Action ω RunResult}
    (hrun : run.Minds (poolView p) fun _ => False) :
    Manages (poolCommons p max) (InHand p max 1 0 1 {.call}) (countRun p run)
      fun _ => InHand p max 1 0 1 {.call} := by
  refine manages_noted hp (fun s e hs he => ?_) (fun s e hs he => ?_)
    (manages_minding hrun {.call, .run})
  · refine hs.note he ?_ ?_ ?_ ?_ ?_
    all_goals simp
    omega
  · refine hs.note he ?_ ?_ ?_ ?_ ?_
    all_goals simp
    omega

theorem manages_changeActive (held held' unseen unseen' : Nat) (own : Multiset Stake)
    {f : Nat → Nat} (hf : ∀ n active : Nat, active = n + unseen →
      f active = n + unseen' ∧ held' + f active = held + active) : Manages (poolCommons p max) (InHand p max idle held unseen own)
      (changeActive f : Action ω Unit) fun r s => r = .ok () ∧
        InHand p max idle held' unseen' own s := by
  refine manages_modify fun s hs => ⟨s.own, fun _ h => h, rfl, hs.1, ?_⟩
  obtain ⟨hn, hsum⟩ := hf _ _ hs.2.active
  exact hs.2.setActive hn hsum

/-- A script is run with a slot held, which is given back however the run ends. -/
theorem manages_withSlot {run : Action ω RunResult} (hrun : Manages (poolCommons p max)
    (InHand p max 1 0 1 {.call}) run fun _ => InHand p max 1 0 1 {.call}) :
    Manages (poolCommons p max) (InHand p max 1 0 0 {.call}) (withSlot run)
      fun _ => InHand p max 1 0 0 {.call} := by
  refine manages_bind manages_acquire (fun _ => ?_) fun _ _ hs => hs
  refine manages_bind (manages_changeActive 1 0 0 1 {.call} ?_) (fun _ => ?_) ?_
  · intro n active h
    omega
  · refine manages_attempt_bind (hrun.of_pre fun s hs => hs.2) fun r => ?_
    refine manages_bind (manages_changeActive 0 1 1 0 {.call} ?_) (fun _ => ?_) ?_
    · intro n active h
      omega
    · refine manages_bind ((manages_release 1 0 0 {.call}).of_pre fun s hs => hs.2) (fun _ => ?_) ?_
      · exact manages_ofEnding r fun s hs => hs.2
      · rintro e s ⟨he, -⟩
        cases he
    · rintro e s ⟨he, -⟩
      cases he
  · rintro e s ⟨he, -⟩
    cases he

/-- The runtimes leave the accounts of the pool alone, and settle no signals but their own. -/
def Runtimes.Mind (p : Part ω Visits) (rs : Runtimes ω) : Prop :=
  ∀ l run, (l, run) ∈ rs → ∀ code bindings timeout,
    (run code bindings timeout).Minds (poolView p) fun _ => False

theorem manages_visit (hp : p.Lawful) {rs : Runtimes ω} (hrs : rs.Mind p) (l : Language)
    (code : Text) (bindings : Json) (timeout : Binary64) :
    Manages (poolCommons p max) (InHand p max 0 0 0 0) (visit p rs l code bindings timeout)
      fun _ => InHand p max 0 0 0 0 := by
  have hexecute : Manages (poolCommons p max) (InHand p max 1 0 0 {.call})
      (execute (countRuns p rs) l code bindings timeout) fun _ => InHand p max 1 0 0 {.call} := by
    unfold execute countRuns
    rw [Runtimes.lookup_map fun _ run code bindings timeout => countRun p (run code bindings timeout)]
    cases hl : rs.lookup l with
    | none => exact manages_ofEnding _ fun s hs => hs
    | some run =>
      exact manages_withSlot
        (manages_countedRun hp (hrs l run (Runtimes.mem_of_lookup hl) code bindings timeout))
  refine manages_noted hp (fun s e hs he => ?_) (fun s e hs he => ?_) hexecute
  · refine hs.note he ?_ ?_ ?_ ?_ ?_
    all_goals simp
    omega
  · refine hs.note he ?_ ?_ ?_ ?_ ?_
    all_goals simp
    omega

/-- Whoever has to do with the pool: it calls it, any number of times and under any time limits, starts
others that do, and apart from that minds its own business. -/
inductive Patron (p : Part ω Visits) (rs : Runtimes ω) : {α : Type} → Action ω α → Prop
  | visit (l : Language) (code : Text) (bindings : Json) (timeout : Binary64) :
    Patron p rs (visit p rs l code bindings timeout)
  | apart {α : Type} {x : Action ω α} (h : x.Minds (poolView p) fun _ => False) : Patron p rs x
  | bind {α β : Type} {x : Action ω α} {f : α → Action ω β} (hx : Patron p rs x)
    (hf : ∀ a, Patron p rs (f a)) : Patron p rs (x >>= f)
  | attempt {α : Type} {x : Action ω α} (hx : Patron p rs x) : Patron p rs (Act.attempt x)
  | spawn {α : Type} {toValue : α → Product} {x : Action ω α} (hx : Patron p rs x) :
    Patron p rs (Act.spawn toValue x)

/-- A call under a time limit is one of a patron. -/
theorem Patron.within {rs : Runtimes ω} {x : Action ω α} (hx : Patron p rs x)
    (limit : Option Rat) : Patron p rs (Act.within limit x) := by
  cases limit with
  | none => exact hx
  | some d =>
    refine .bind (.apart (minds_call nofun)) fun a => .bind (.attempt hx) fun r =>
      .bind (.apart (minds_call nofun)) fun expired => .apart ?_
    split
    · exact minds_ofEnding _
    · exact minds_ofEnding _

theorem Patron.manages (hp : p.Lawful) {rs : Runtimes ω} (hrs : rs.Mind p) {x : Action ω α}
    (hx : Patron p rs x) :
    Manages (poolCommons p max) (InHand p max 0 0 0 0) x fun _ => InHand p max 0 0 0 0 := by
  induction hx with
  | visit l code bindings timeout => exact manages_visit hp hrs l code bindings timeout
  | apart h => exact manages_minding h 0
  | bind _ _ ihx ihf => exact manages_bind ihx ihf fun _ _ hs => hs
  | attempt _ ih =>
    exact fun k Q s hs hk => ih _ Q s hs fun r s' hs' => hk (.ok r) s' hs'
  | @spawn α toValue x _ ih =>
    have hbody : Manages (poolCommons p max) (InHand p max 0 0 0 0) x (poolCommons p max).Ended := by
      refine ih.weaken (fun _ hs => hs) fun _ s hs => ?_
      obtain ⟨-, hs⟩ := hs
      rwa [zero_add] at hs
    change Manages _ _ (Act.spawn toValue x >>= pure) _
    refine manages_spawn_bind hbody (fun s hs => ?_) fun t => manages_ofEnding _ fun s hs => hs
    obtain ⟨hown, hs⟩ := hs
    have hloose : (poolCommons p max).loose (s.scene.size + 1) s.total s.scene.size := by
      rw [Share.total, hown]
      exact lawful_poolCommons.fresh hs
    refine ⟨0, 0, by rw [hown, zero_add], fun _ _ h => by rwa [zero_add] at h, hloose,
      fun s' hh hown' _ => ⟨hown', ?_⟩, rfl, ?_⟩
    · rwa [Share.total, hown'] at hh
    · rw [zero_add]
      exact hs.drift ((Scene.drifts_push ..).mono fun _ => False.elim)

/-! ### Every state -/

/-- A caller gives its slot back with the ending of its run. -/
def giveBack (r : Ending RunResult) : Action ω RunResult := do
  changeActive (· - 1)
  slotPlace.release
  Act.ofEnding r

/-- While a slot is free and nobody waits a call enters its run at once. -/
theorem exec_withSlot {k : Scheduler (World ω) Product} {n : Int} (hn : 0 < n)
    (hslots : k.shared.slots = { free := n }) (me : Nat) (run : Action ω RunResult)
    (next : Ending RunResult → Concurrency.Task (World ω) Product) :
    Scheduler.exec me (withSlot run next) k =
      Scheduler.exec me (run fun r => giveBack r next) { k with shared := { k.shared with
        slots := { free := n - 1 }, active := k.shared.active + 1 } } := by
  have hfree : ¬ ((decide (n = 0) || false) = true) := by simp [Int.ne_of_gt hn]
  obtain ⟨w, clock, ready, cells, timers, queue, droppedQueued, alarms, watches⟩ := k
  obtain ⟨env, journal, enabled, messages, limiter, slots⟩ := w
  obtain rfl : slots = { free := n } := hslots
  change Scheduler.exec me ((if (decide (n = 0) || false) = true then _ else
    slotPlace.modify fun s => { s with free := s.free - 1 } : Action ω Unit) _) _ = _
  rw [if_neg hfree]
  rfl

/-- **The accounts of the pool agree with the stakes of the callers in every state.** -/
theorem accounts_kept (hp : p.Lawful) {rs : Runtimes ω} (hrs : rs.Mind p) {start : World ω → Prop}
    (hstart : ∀ w, start w →
      Semaphore.ofSlots? max = .ok w.slots ∧ w.active = 0 ∧ p.get w.env = {})
    {arrivals : Concurrency.Task (World ω) Product → Prop} (harrivals : ∀ t, arrivals t →
      ∃ (α : Type) (toValue : α → Product) (x : Action ω α), Patron p rs x ∧ t = toTask toValue x)
    {k : Scheduler (World ω) Product} (h : Scheduler.Reachable start arrivals k) (jobs : Nat) :
    ∃ g, Accounts p max 0 0 0 (k.amid jobs).scene g := by
  have hC : (poolCommons p max).Lawful := lawful_poolCommons
  refine h.commons hC ?_ ?_ jobs
  · intro w hw
    obtain ⟨hslots, hactive, hvisits⟩ := hstart w hw
    unfold Semaphore.ofSlots? at hslots
    split at hslots
    · cases hslots
    · rename_i hnonneg
      have hslots' : w.slots = { free := max } := (Except.ok.inj hslots).symm
      refine ⟨?_, ?_, ?_, ?_, ?_, ?_, ?_, fun i => ?_, fun i hi => ?_⟩
      all_goals simp only [Scheduler.scene, fired, hslots', hactive, hvisits] at *
      all_goals simp at *
      exact hnonneg
  · intro t ht s hh hown
    obtain ⟨α, toValue, x, hx, rfl⟩ := harrivals t ht
    refine tends_toTask ((hx.manages hp hrs).weaken (fun _ hs => hs) fun _ s hs => ?_)
      (inHand_iff.mpr ⟨hh, hown⟩)
    obtain ⟨-, hs⟩ := hs
    rwa [zero_add] at hs

/-- **Slots are neither lost nor doubled**, whichever languages are asked for, however the runs end, and
whoever is interrupted while it waits for a slot or runs: the active runs are those that have been
entered and not left, and there are never more of them than slots; an unsupported language is refused
without a step; and once no call is left all slots are free, and as many calls as there are slots
enter their runs at once, one after another. -/
theorem slots_accounted (hp : p.Lawful) {rs : Runtimes ω} (hrs : rs.Mind p)
    {start : World ω → Prop} (hstart : ∀ w, start w →
      Semaphore.ofSlots? max = .ok w.slots ∧ w.active = 0 ∧ p.get w.env = {})
    {arrivals : Concurrency.Task (World ω) Product → Prop} (harrivals : ∀ t, arrivals t →
      ∃ (α : Type) (toValue : α → Product) (x : Action ω α), Patron p rs x ∧ t = toTask toValue x)
    {k : Scheduler (World ω) Product} (h : Scheduler.Reachable start arrivals k) (jobs : Nat) :
    let w := (k.amid jobs).shared
    let v := p.get w.env
    (w.active + v.exits = v.entries ∧ w.active ≤ max) ∧
    (∀ l, rs.lookup l = none → ∀ code bindings timeout me next k',
      Scheduler.exec me (execute rs l code bindings timeout next) k' =
        Scheduler.exec me (next (.error (.fault (unsupported l)))) k') ∧
    (v.returns = v.calls → w.active = 0 ∧ w.slots = { free := max }) ∧
    ∀ n : Nat, n < max → ∀ l run, rs.lookup l = some run → ∀ code bindings timeout me next
      (k' : Scheduler (World ω) Product), k'.shared.slots = { free := max - n } →
      Scheduler.exec me (execute rs l code bindings timeout next) k' =
        Scheduler.exec me (run code bindings timeout fun r => giveBack r next)
          { k' with shared := { k'.shared with
            slots := { free := max - (n + 1) }, active := k'.shared.active + 1 } } := by
  obtain ⟨g, hg⟩ := accounts_kept hp hrs hstart harrivals h jobs
  have hshared : (k.amid jobs).scene.shared = (k.amid jobs).shared := rfl
  have hactive := hg.active
  have hruns := hg.runs
  have hcalls := hg.calls
  have hcallers := hg.callers
  have hslots := hg.slots
  have hfree := hg.free
  rw [hshared] at hactive hruns hcalls hcallers hslots hfree
  refine ⟨⟨?_, ?_⟩, fun l hl code bindings timeout me next k' => ?_, fun hover => ?_,
    fun n hn l run hl code bindings timeout me next k' hk' => ?_⟩
  · omega
  · omega
  · unfold execute
    rw [hl]
    rfl
  · have hnone : g.count .call = 0 := by omega
    have hwaiting : (k.amid jobs).shared.slots.waiting = [] := by
      apply List.eq_nil_of_length_eq_zero
      omega
    have hgiven : fired (k.amid jobs).scene = 0 := by
      unfold fired
      rw [hshared, hwaiting]
      rfl
    have hidle : (k.amid jobs).shared.active = 0 := by omega
    have hall : (k.amid jobs).shared.slots.free = max := by omega
    refine ⟨hidle, ?_⟩
    rw [← hall, ← hwaiting]
  · unfold execute
    rw [hl]
    refine (exec_withSlot (by omega) hk' me (run code bindings timeout) next).trans ?_
    rw [Int.sub_sub]

/-! ### A pool with one slot -/

/-- A runtime that takes a second for each script. -/
def slowRuntimes : Runtimes Visits :=
  [(.python, fun _ _ _ => do
    Act.sleep (some 1)
    pure { status := .success })]

theorem slowRuntimes_mind : slowRuntimes.Mind .whole := by
  intro l run hrun code bindings timeout
  obtain ⟨-, rfl⟩ : l = .python ∧ _ := by simpa [slowRuntimes] using hrun
  exact minds_bind (minds_sleep _) fun _ => minds_pure _

/-- A call of the pool. -/
def slowCall : Action Visits RunResult :=
  visit .whole slowRuntimes .python [] .null default

/-- A call of the pool that is given up after half a second. -/
def hastyCall : Action Visits RunResult := Act.within (some (mkRat 1 2)) slowCall

/-- Nobody has called the pool yet. -/
def singleSlot : World Visits := { env := {}, slots := { free := 1 } }

/-- So many rounds after one has called the pool and another one, which has to wait for the slot. -/
def contended (rounds : Nat) : Scheduler (World Visits) Product :=
  Scheduler.rounds rounds (Scheduler.addTask (Scheduler.addTask { shared := singleSlot } false
    (toTask .result slowCall)).2 false (toTask .result hastyCall)).2

theorem contended_reachable (rounds : Nat) : Scheduler.Reachable (· = singleSlot)
    (fun t => t = toTask .result slowCall ∨ t = toTask .result hastyCall) (contended rounds) := by
  apply Scheduler.Reachable.rounds
  apply Scheduler.Reachable.arrive
  · apply Scheduler.Reachable.arrive
    · exact .start rfl
    · exact .inl rfl
  · exact .inr rfl

/-- While one runs and the other one waits the slot is counted once, and after the one has run and the
other one has given up it is free. -/
theorem slots_accounted_contended :
    let running := ((contended 1).amid 0).shared
    let later := ((contended 5).amid 0).shared
    (running.slots.waiting.length = 1 ∧ running.active = 1 ∧
      running.active + running.env.exits = running.env.entries) ∧
    later.env.calls = 2 ∧ later.env.returns = later.env.calls ∧ later.active = 0 ∧
      later.slots = { free := 1 } := by
  have hwhole : (Part.whole : Part Visits Visits).Lawful := fun _ _ => rfl
  have hstart : ∀ w : World Visits, w = singleSlot →
      Semaphore.ofSlots? 1 = .ok w.slots ∧ w.active = 0 ∧ Part.whole.get w.env = {} := by
    rintro _ rfl
    exact ⟨rfl, rfl, rfl⟩
  have harrivals : ∀ t, t = toTask .result slowCall ∨ t = toTask .result hastyCall →
      ∃ (α : Type) (toValue : α → Product) (x : Action Visits α),
        Patron .whole slowRuntimes x ∧ t = toTask toValue x := by
    rintro _ (rfl | rfl)
    · exact ⟨_, _, slowCall, .visit .., rfl⟩
    · exact ⟨_, _, hastyCall, Patron.within (.visit ..) _, rfl⟩
  have hkept := fun rounds => slots_accounted hwhole slowRuntimes_mind hstart harrivals
    (contended_reachable rounds) 0
  have hreturned : ((contended 5).amid 0).shared.env.returns =
      ((contended 5).amid 0).shared.env.calls := by decide +kernel
  refine ⟨⟨by decide +kernel, by decide +kernel, (hkept 1).1.1⟩, by decide +kernel, hreturned, ?_⟩
  exact (hkept 5).2.2.1 hreturned

end ChatCommands.Engine
