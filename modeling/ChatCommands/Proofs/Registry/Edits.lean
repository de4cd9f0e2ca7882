import ChatCommands.Matching
import ChatCommands.Proofs.Registry.Entries
import Mathlib.Data.List.Find
import Mathlib.Data.List.Induction

/-!
A registry in memory and the calls it has had.

What a registry lists for a tenant is told from the calls alone.  A command is live if the last call
about its identifier has added it, in the version of that call; the live commands stand in the order
of the moments at which their identifiers were last added while they were absent.  The prefix is the
one that was set last.

The command that a message triggers is the first of the list that fires.  What stands behind it, and
commands that do not admit the message, have no say.
-/

/-! ### The first command of a list that fires -/

namespace ChatCommands.Matching

variable {cv : Convention} {roles : List Text} {channel content : Text} {w : Command}
  {cs : List Command}

/-- Only the commands that admit the message are asked for their triggers. -/
theorem first?_eq_find?_filter : first? cv roles channel content cs =
    (cs.filter (admits · roles channel)).find? (triggers cv · content) := by
  rw [List.find?_filter]
  refine congrArg (List.find? · cs) (funext fun c => ?_)
  rw [fires, Bool.and_comm]
  simp

/-- The winner does not depend on what stands behind it. -/
theorem first?_replace_after {before after : List Command} (after' : List Command)
    (h : first? cv roles channel content (before ++ w :: after) = some w) :
    first? cv roles channel content (before ++ w :: after') = some w := by
  have hfires : fires cv roles channel content w = true := List.find?_some h
  unfold first? at h ⊢
  rw [List.find?_append, List.find?_cons_of_pos hfires] at h ⊢
  exact h

end ChatCommands.Matching

namespace ChatCommands.Registry

/-! ### Calls -/

/-- A call of a registry in memory: an edit or a question. -/
inductive Call
  | add (c : Command)
  | remove (tenant id : Text)
  | setSigil (tenant : Text) (sigil : Option Text)
  | ask (matter : Matter) (tenant : Text)
  deriving DecidableEq

namespace Call

/-- The tenant that the call is about. -/
def tenant : Call → Text
  | add c => c.tenant
  | remove tenant _ | setSigil tenant _ | ask _ tenant => tenant

/-- The call adds the command of a tenant with this identifier, or puts another one in its place. -/
def adds (t id : Text) : Call → Bool
  | add c => c.tenant == t && c.id == id
  | _ => false

/-- The call takes the command of a tenant with this identifier away. -/
def removes (t id : Text) : Call → Bool
  | remove tenant id' => tenant == t && id' == id
  | _ => false

/-- The call sets the prefix of a tenant. -/
def sets (t : Text) : Call → Bool
  | setSigil tenant _ => tenant == t
  | _ => false

/-- The command that the call adds. -/
def added? : Call → Option Command
  | add c => some c
  | _ => none

/-- The prefix that the call sets. -/
def sigil? : Call → Option Text
  | setSigil _ sigil => sigil
  | _ => none

end Call

namespace Store

/-- What the registry tells of a tenant. -/
def tell (s : Store) (tenant : Text) : Matter → Told
  | .commands => .commands (s.commandsOf tenant)
  | .sigil => .sigil (s.sigilOf tenant)

/-- The registry after a call. -/
def call (s : Store) : Call → Store
  | .add c => s.add c
  | .remove tenant id => s.remove tenant id
  | .setSigil tenant sigil => s.setSigil tenant sigil
  | .ask _ _ => s

/-- The registry after some calls. -/
def after (s : Store) (calls : List Call) : Store := calls.foldl call s

/-- The answers to the questions among some calls. -/
def answers : Store → List Call → List Told
  | _, [] => []
  | s, .ask matter tenant :: calls => s.tell tenant matter :: s.answers calls
  | s, c :: calls => (s.call c).answers calls

end Store

/-! ### What the calls say -/

/-- The live version of a command: that of the call that was the last one about it, if this has
added it. -/
def live? (h : List Call) (t id : Text) : Option Command :=
  (h.reverse.find? fun c => c.adds t id || c.removes t id).bind Call.added?

/-- The call with this number has added the command while it was absent. -/
def entersAt (h : List Call) (t id : Text) (n : Nat) : Bool :=
  h[n]?.any (·.adds t id) && (live? (h.take n) t id).isNone

/-- The number of the call that was the last one to add the command while it was absent. -/
def entered? (h : List Call) (t id : Text) : Option Nat :=
  (List.range h.length).reverse.find? (entersAt h t id)

/-- The one command was entered before the other. -/
def EnteredBefore (h : List Call) (t id id' : Text) : Prop :=
  ∃ m n, entered? h t id = some m ∧ entered? h t id' = some n ∧ m < n

/-- The prefix of a tenant: the one set last, or the one it had at first. -/
def sigilAfter (sigils : List (Text × Text)) (h : List Call) (t : Text) : Option Text :=
  match h.reverse.find? (Call.sets t) with
  | some c => c.sigil?
  | none => sigils.lookup t

/-- The list holds just the live commands of the tenant, each in its latest version, in the order in
which they were entered. -/
structure Lists (h : List Call) (t : Text) (cs : List Command) : Prop where
  mem_iff : ∀ c, c ∈ cs ↔ live? h t c.id = some c
  ordered : (cs.map (·.id)).Pairwise (EnteredBefore h t)

variable {h : List Call} {t id : Text} {c : Command} {cs : List Command}

/-! ### One more call -/

theorem live?_concat (h : List Call) (call : Call) (t id : Text) :
    live? (h ++ [call]) t id =
      if call.adds t id || call.removes t id then call.added? else live? h t id := by
  unfold live?
  rw [List.reverse_append, List.reverse_singleton, List.singleton_append, List.find?_cons]
  cases call.adds t id || call.removes t id <;> rfl

theorem live?_spec (hlive : live? h t id = some c) : c.tenant = t ∧ c.id = id := by
  obtain ⟨call, hfind, hadded⟩ := Option.bind_eq_some_iff.mp hlive
  have habout := List.find?_some hfind
  cases call with
  | add d =>
    cases hadded
    simpa [Call.adds, Call.removes] using habout
  | remove _ _ => cases hadded
  | setSigil _ _ => cases hadded
  | ask _ _ => cases hadded

theorem entersAt_concat (h : List Call) (call : Call) (t id : Text) {n : Nat} (hn : n < h.length) :
    entersAt (h ++ [call]) t id n = entersAt h t id n := by
  unfold entersAt
  rw [List.getElem?_append_left hn, List.take_append_of_le_length (Nat.le_of_lt hn)]

theorem entered?_concat (h : List Call) (call : Call) (t id : Text) :
    entered? (h ++ [call]) t id =
      if call.adds t id && (live? h t id).isNone then some h.length else entered? h t id := by
  have hlast : entersAt (h ++ [call]) t id h.length =
      (call.adds t id && (live? h t id).isNone) := by
    simp [entersAt]
  have hrest : (List.range h.length).reverse.find? (entersAt (h ++ [call]) t id) =
      (List.range h.length).reverse.find? (entersAt h t id) := by
    refine List.find?_congr fun n hn => entersAt_concat h call t id ?_
    simpa using hn
  unfold entered?
  rw [List.length_append, List.length_singleton, List.range_succ, List.reverse_append,
    List.reverse_singleton, List.singleton_append, List.find?_cons, hlast, hrest]
  cases call.adds t id && (live? h t id).isNone <;> rfl

theorem entered?_lt {n : Nat} (hn : entered? h t id = some n) : n < h.length := by
  simpa using List.mem_of_find?_eq_some hn

theorem entered_of_live (hlive : live? h t id = some c) : ∃ n, entered? h t id = some n := by
  induction h using List.reverseRecOn generalizing c with
  | nil => cases hlive
  | append_singleton h call ih =>
    rw [entered?_concat]
    rw [live?_concat] at hlive
    split
    · exact ⟨_, rfl⟩
    · rename_i hnot
      cases hbefore : live? h t id with
      | some d => exact ih hbefore
      | none =>
        -- a call that makes a command live adds it
        rw [hbefore] at hlive hnot
        cases call <;> grind [Call.adds, Call.removes, Call.added?]

/-! ### The list after one more call -/

theorem mem_place {d : Command} (hnodup : (cs.map (·.id)).Nodup) :
    d ∈ place c cs ↔ d = c ∨ (d ∈ cs ∧ d.id ≠ c.id) := by
  induction cs with
  | nil => simp [place]
  | cons e cs ih =>
    rw [List.map_cons, List.nodup_cons] at hnodup
    unfold place
    split
    · rename_i hid
      have hother : ∀ f ∈ cs, f.id ≠ c.id := fun f hf heq =>
        hnodup.1 (List.mem_map.mpr ⟨f, hf, heq.trans hid.symm⟩)
      grind
    · rename_i hid
      rw [List.mem_cons, ih hnodup.2]
      grind

theorem ids_place : (place c cs).map (·.id) =
    if c.id ∈ cs.map (·.id) then cs.map (·.id) else cs.map (·.id) ++ [c.id] := by
  induction cs with
  | nil => rfl
  | cons e cs ih =>
    unfold place
    split
    · rename_i hid
      simp [hid]
    · rename_i hid
      rw [List.map_cons, ih]
      have hne : ¬ c.id = e.id := fun heq => hid heq.symm
      by_cases hmem : c.id ∈ cs.map (·.id)
      · simp [hmem]
      · simp [hmem, hne]

namespace Lists

/-- There is one command for each identifier. -/
theorem nodup (hcs : Lists h t cs) : (cs.map (·.id)).Nodup := by
  refine hcs.ordered.imp ?_
  rintro id id' ⟨m, n, hm, hn, hlt⟩ rfl
  rw [hm] at hn
  cases hn
  exact Nat.lt_irrefl _ hlt

theorem mem_ids (hcs : Lists h t cs) : id ∈ cs.map (·.id) ↔ (live? h t id).isSome := by
  rw [List.mem_map, Option.isSome_iff_exists]
  constructor
  · rintro ⟨c, hc, rfl⟩
    exact ⟨c, (hcs.mem_iff c).mp hc⟩
  · rintro ⟨c, hc⟩
    obtain ⟨-, rfl⟩ := live?_spec hc
    exact ⟨c, (hcs.mem_iff c).mpr hc, rfl⟩

/-- A call that is not about commands of the tenant. -/
theorem keep (hcs : Lists h t cs) {call : Call}
    (hcall : ∀ id, call.adds t id = false ∧ call.removes t id = false) :
    Lists (h ++ [call]) t cs where
  mem_iff c := by
    rw [live?_concat, (hcall c.id).1, (hcall c.id).2]
    exact hcs.mem_iff c
  ordered := by
    refine hcs.ordered.imp ?_
    rintro id id' ⟨m, n, hm, hn, hlt⟩
    refine ⟨m, n, ?_, ?_, hlt⟩
    · rw [entered?_concat, (hcall id).1]
      exact hm
    · rw [entered?_concat, (hcall id').1]
      exact hn

theorem remove (hcs : Lists h t cs) (id : Text) :
    Lists (h ++ [.remove t id]) t (cs.filter fun c => c.id ≠ id) where
  mem_iff c := by
    rw [List.mem_filter, live?_concat, hcs.mem_iff]
    by_cases hid : c.id = id
    · simp [Call.adds, Call.removes, Call.added?, hid]
    · simp [Call.adds, Call.removes, hid, Ne.symm hid]
  ordered := by
    have hbefore : EnteredBefore (h ++ [.remove t id]) t = EnteredBefore h t := by
      funext i j
      simp [EnteredBefore, entered?_concat, Call.adds]
    rw [hbefore]
    exact hcs.ordered.sublist (List.filter_sublist.map _)

theorem add (hcs : Lists h t cs) (hc : c.tenant = t) : Lists (h ++ [.add c]) t (place c cs) where
  mem_iff d := by
    rw [mem_place hcs.nodup, hcs.mem_iff, live?_concat]
    by_cases hid : c.id = d.id
    · simp [Call.adds, Call.added?, hc, hid, eq_comm]
    · have hne : d ≠ c := by
        rintro rfl
        exact hid rfl
      simp [Call.adds, Call.removes, hc, hid, hne, Ne.symm hid]
  ordered := by
    rw [ids_place]
    split
    · rename_i hmem
      rw [hcs.mem_ids] at hmem
      refine hcs.ordered.imp ?_
      rintro i j ⟨m, n, hm, hn, hlt⟩
      have hkeep : ∀ i, entered? (h ++ [.add c]) t i = entered? h t i := by
        intro i
        rw [entered?_concat]
        by_cases hi : c.id = i
        · rw [← hi, Option.isNone_eq_false_iff.mpr hmem]
          simp
        · simp [Call.adds, hi]
      exact ⟨m, n, (hkeep i).trans hm, (hkeep j).trans hn, hlt⟩
    · rename_i hmem
      have hnone : live? h t c.id = none := by
        rwa [hcs.mem_ids, Option.not_isSome_iff_eq_none] at hmem
      have hnew : entered? (h ++ [.add c]) t c.id = some h.length := by
        simp [entered?_concat, Call.adds, hc, hnone]
      have hkeep : ∀ i ∈ cs.map (·.id), entered? (h ++ [.add c]) t i = entered? h t i := by
        intro i hi
        have hne : ¬ c.id = i := by
          rintro rfl
          exact hmem hi
        simp [entered?_concat, Call.adds, hne]
      rw [List.pairwise_append]
      refine ⟨hcs.ordered.imp_of_mem ?_, List.pairwise_singleton _ _, ?_⟩
      · rintro i j hi hj ⟨m, n, hm, hn, hlt⟩
        exact ⟨m, n, (hkeep i hi).trans hm, (hkeep j hj).trans hn, hlt⟩
      · intro i hi j hj
        rw [List.mem_singleton] at hj
        subst hj
        obtain ⟨d, hd⟩ := Option.isSome_iff_exists.mp (hcs.mem_ids.mp hi)
        obtain ⟨m, hm⟩ := entered_of_live hd
        exact ⟨m, h.length, (hkeep i hi).trans hm, hnew, entered?_lt hm⟩

end Lists

/-! ### The registry after some calls -/

namespace Store

variable (s : Store)

theorem commandsOf_add (c : Command) (t : Text) :
    (s.add c).commandsOf t = if c.tenant = t then place c (s.commandsOf t) else s.commandsOf t := by
  unfold add commandsOf
  split
  · rename_i heq
    subst heq
    rw [lookup_assign_self]
    rfl
  · rename_i hne
    rw [lookup_assign_of_ne (Ne.symm hne)]

theorem commandsOf_remove (tenant id t : Text) :
    (s.remove tenant id).commandsOf t =
      if tenant = t then (s.commandsOf t).filter fun c => c.id ≠ id else s.commandsOf t := by
  unfold remove commandsOf
  induction s.commands with
  | nil => simp
  | cons entry rest ih =>
    obtain ⟨k, cs⟩ := entry
    simp only [List.map_cons, List.lookup_cons]
    by_cases hk : t = k
    · subst hk
      by_cases htenant : t = tenant
      · simp [htenant]
      · simp [htenant, Ne.symm htenant]
    · have hk' : (t == k) = false := by simpa using hk
      rw [hk']
      exact ih

theorem sigilOf_setSigil (tenant : Text) (sigil : Option Text) (t : Text) :
    (s.setSigil tenant sigil).sigilOf t = if tenant = t then sigil else s.sigilOf t := by
  unfold setSigil sigilOf
  cases sigil with
  | none =>
    refine (lookup_filter_ne tenant t _).trans ?_
    simp [eq_comm]
  | some p =>
    by_cases heq : tenant = t
    · subst heq
      simp [lookup_assign_self]
    · simp [heq, lookup_assign_of_ne (Ne.symm heq)]

theorem after_concat (calls : List Call) (c : Call) :
    s.after (calls ++ [c]) = (s.after calls).call c := by
  simp [after]

/-- A call about another tenant. -/
theorem tell_call_of_ne {c : Call} {t : Text} (h : c.tenant ≠ t) (matter : Matter) :
    (s.call c).tell t matter = s.tell t matter := by
  cases c with
  | add c =>
    cases matter with
    | commands => exact congrArg Told.commands ((s.commandsOf_add c t).trans (if_neg h))
    | sigil => rfl
  | remove tenant id =>
    cases matter with
    | commands => exact congrArg Told.commands ((s.commandsOf_remove tenant id t).trans (if_neg h))
    | sigil => rfl
  | setSigil tenant sigil =>
    cases matter with
    | commands => cases sigil <;> rfl
    | sigil => exact congrArg Told.sigil ((s.sigilOf_setSigil tenant sigil t).trans (if_neg h))
  | ask _ _ => rfl

/-- Calls about other tenants. -/
theorem tell_after_of_ne {calls : List Call} {t : Text} (h : ∀ c ∈ calls, c.tenant ≠ t)
    (matter : Matter) : (s.after calls).tell t matter = s.tell t matter := by
  induction calls using List.reverseRecOn with
  | nil => rfl
  | append_singleton calls c ih =>
    rw [after_concat, tell_call_of_ne _ (h c (by simp))]
    exact ih fun d hd => h d (List.mem_append_left _ hd)

/-- The answers that were given stand, whatever is called afterwards. -/
theorem answers_append (calls more : List Call) :
    s.answers (calls ++ more) = s.answers calls ++ (s.after calls).answers more := by
  induction calls generalizing s with
  | nil => rfl
  | cons c calls ih => cases c <;> simp [answers, after, call, ih]

theorem ofCommands_eq_after (cs : List Command) (sigils : List (Text × Text)) :
    ofCommands cs sigils = ({ sigils } : Store).after (cs.map .add) := by
  unfold ofCommands after
  rw [List.foldl_map]
  rfl

variable (sigils : List (Text × Text)) (h : List Call) (t : Text)

/-- **What the registry lists is told from its calls.** -/
theorem lists_after : Lists h t ((({ sigils } : Store).after h).commandsOf t) := by
  induction h using List.reverseRecOn with
  | nil => exact ⟨fun c => by simp [after, commandsOf, live?], List.Pairwise.nil⟩
  | append_singleton h c ih =>
    rw [after_concat]
    cases c with
    | add c =>
      rw [call, commandsOf_add]
      split
      · rename_i heq
        exact ih.add heq
      · rename_i hne
        exact ih.keep fun id => by simp [Call.adds, Call.removes, hne]
    | remove tenant id =>
      rw [call, commandsOf_remove]
      split
      · rename_i heq
        subst heq
        exact ih.remove id
      · rename_i hne
        exact ih.keep fun id => by simp [Call.adds, Call.removes, hne]
    | setSigil tenant sigil =>
      have hsame : ((({ sigils } : Store).after h).setSigil tenant sigil).commandsOf t =
          (({ sigils } : Store).after h).commandsOf t := by
        cases sigil <;> rfl
      rw [call, hsame]
      exact ih.keep fun id => ⟨rfl, rfl⟩
    | ask matter tenant => exact ih.keep fun id => ⟨rfl, rfl⟩

/-- **The prefix is the one set last.** -/
theorem sigilOf_after : (({ sigils } : Store).after h).sigilOf t = sigilAfter sigils h t := by
  induction h using List.reverseRecOn with
  | nil => rfl
  | append_singleton h c ih =>
    have hlast : sigilAfter sigils (h ++ [c]) t =
        if c.sets t then c.sigil? else sigilAfter sigils h t := by
      unfold sigilAfter
      rw [List.reverse_append, List.reverse_singleton, List.singleton_append, List.find?_cons]
      cases c.sets t <;> rfl
    rw [after_concat, hlast]
    cases c with
    | setSigil tenant sigil =>
      rw [call, sigilOf_setSigil, ih]
      simp [Call.sets, Call.sigil?]
    | add c => exact ih
    | remove tenant id => exact ih
    | ask matter tenant => exact ih

end Store

/-! ### The command that a message triggers -/

open Matching

section Winner

variable {cv : Convention} {roles : List Text} {channel content : Text} {w : Command}

/-- The winner is live and fires, and no live command that was entered before it fires. -/
def Wins (h : List Call) (t : Text) (fires : Command → Bool) (w : Command) : Prop :=
  live? h t w.id = some w ∧ fires w = true ∧
    ∀ c, live? h t c.id = some c → EnteredBefore h t c.id w.id → fires c = false

theorem EnteredBefore.asymm {id id' : Text} (hbefore : EnteredBefore h t id id') :
    ¬ EnteredBefore h t id' id := by
  obtain ⟨m, n, hm, hn, hlt⟩ := hbefore
  rintro ⟨n', m', hn', hm', hlt'⟩
  rw [hm] at hm'
  rw [hn] at hn'
  cases hm'
  cases hn'
  exact Nat.lt_asymm hlt hlt'

/-- **The first command of the list that fires is the one that was entered first.** -/
theorem Lists.find?_eq_some_iff (hcs : Lists h t cs) (fires : Command → Bool) :
    cs.find? fires = some w ↔ Wins h t fires w := by
  rw [List.find?_eq_some_iff_append]
  constructor
  · rintro ⟨hw, before, after, rfl, hbefore⟩
    refine ⟨(hcs.mem_iff w).mp (by simp), hw, fun c hc hearlier => ?_⟩
    have hmem := (hcs.mem_iff c).mpr hc
    rw [List.mem_append, List.mem_cons] at hmem
    rcases hmem with hmem | rfl | hmem
    · simpa using hbefore c hmem
    · exact absurd hearlier hearlier.asymm
    · -- what stands behind the winner was entered after it
      have hordered := hcs.ordered
      rw [List.map_append, List.map_cons, List.pairwise_append, List.pairwise_cons] at hordered
      exact absurd hearlier (hordered.2.1.1 c.id (List.mem_map_of_mem hmem)).asymm
  · rintro ⟨hlive, hw, hearlier⟩
    obtain ⟨before, after, rfl⟩ := List.append_of_mem ((hcs.mem_iff w).mpr hlive)
    refine ⟨hw, before, after, rfl, fun c hc => ?_⟩
    have hordered := hcs.ordered
    rw [List.map_append, List.map_cons, List.pairwise_append] at hordered
    have hbefore := hordered.2.2 c.id (List.mem_map_of_mem hc) w.id List.mem_cons_self
    rw [hearlier c ((hcs.mem_iff c).mp (List.mem_append_left _ hc)) hbefore]
    rfl

theorem Lists.find?_eq_none_iff (hcs : Lists h t cs) (fires : Command → Bool) :
    cs.find? fires = none ↔ ∀ c, live? h t c.id = some c → fires c = false := by
  rw [List.find?_eq_none]
  refine forall_congr' fun c => ?_
  rw [hcs.mem_iff, Bool.not_eq_true]

end Winner

/-- **Edits of a registry and the command that a message triggers.**  After any calls the registry
lists the live commands of a tenant in the order in which they were entered, and tells the prefix
set last; calls about other tenants change neither, and answers that were given stand.  A message
triggers the command that was entered first of those that match and admit it; commands that do not
admit it have no say, and neither have those behind the winner. -/
theorem edits_and_priority (initial : List Command) (sigils : List (Text × Text))
    (calls : List Call) (t : Text) :
    let start := Store.ofCommands initial sigils
    let s := start.after calls
    let h := initial.map .add ++ calls
    Lists h t (s.commandsOf t) ∧ ((s.commandsOf t).map (·.id)).Nodup ∧
    s.sigilOf t = sigilAfter sigils h t ∧
    (∀ more : List Call, (∀ c ∈ more, c.tenant ≠ t) →
      (s.after more).commandsOf t = s.commandsOf t ∧ (s.after more).sigilOf t = s.sigilOf t) ∧
    (∀ more, start.answers (calls ++ more) = start.answers calls ++ s.answers more) ∧
    ∀ cv roles channel content,
      (∀ w, first? cv roles channel content (s.commandsOf t) = some w ↔
        Wins h t (fun c => triggers cv c content && admits c roles channel) w) ∧
      (first? cv roles channel content (s.commandsOf t) = none ↔ ∀ c, live? h t c.id = some c →
        (triggers cv c content && admits c roles channel) = false) ∧
      (∀ others, others.filter (admits · roles channel) =
          (s.commandsOf t).filter (admits · roles channel) →
        first? cv roles channel content others =
          first? cv roles channel content (s.commandsOf t)) ∧
      ∀ w before behind others, s.commandsOf t = before ++ w :: behind →
        first? cv roles channel content (s.commandsOf t) = some w →
        first? cv roles channel content (before ++ w :: others) = some w := by
  intro start s h
  have hs : s = ({ sigils } : Store).after h := by
    simp only [s, start, h, Store.ofCommands_eq_after, Store.after, List.foldl_append]
  have hlists : Lists h t (s.commandsOf t) := hs ▸ Store.lists_after sigils h t
  refine ⟨hlists, hlists.nodup, hs ▸ Store.sigilOf_after sigils h t, fun more hmore => ?_,
    start.answers_append calls, fun cv roles channel content => ⟨fun w => ?_, ?_,
      fun others hsame => ?_, fun w before behind others hsplit hwins => ?_⟩⟩
  · have htold := s.tell_after_of_ne hmore
    exact ⟨Told.commands.inj (htold .commands), Told.sigil.inj (htold .sigil)⟩
  · exact hlists.find?_eq_some_iff _
  · exact hlists.find?_eq_none_iff _
  · rw [first?_eq_find?_filter, first?_eq_find?_filter, hsame]
  · rw [hsplit] at hwins
    exact first?_replace_after others hwins

end ChatCommands.Registry
