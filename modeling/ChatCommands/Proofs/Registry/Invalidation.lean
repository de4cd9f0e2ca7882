import ChatCommands.Proofs.Concurrency.Reachable
import ChatCommands.Proofs.Registry.Entries
import ChatCommands.Proofs.Sandbox.Supervision
import ChatCommands.Registry.Cache

/-!
What a cached registry tells once it was made to forget.

The other registry takes its time to answer, and the cache may be made to forget meanwhile.  An answer
that is on its way then still goes into the cache, and later reads are given it though it was asked
for before.  `told_answered_since` says what does hold: whatever a read is told came in after all
that made the cache forget before the read began.  `told_of_answer_in_flight` is a run in which it
had been asked for before.
-/

namespace ChatCommands.Registry

open Concurrency Act

variable {ω α β : Type}

/-! ### What is observed -/

/-- What happens to a cache.  An answer of the other registry says at which place of the history it was
asked for, and what a read is told at which place the read began. -/
inductive CacheEvent
  | asked (tenant : Text) (matter : Matter)
  | answered (tenant : Text) (askedAt : Nat) (told : Told)
  | forgot (tenant : Option Text)
  | told (tenant : Text) (begunAt : Nat) (told : Told)
  deriving DecidableEq

/-- What has happened, first things first. -/
abbrev CacheHistory : Type := List CacheEvent

/-- Asks the other registry and puts down the question and the answer. -/
def askObserved (p : Part ω CacheHistory) (tenant : Text) (matter : Matter) (tell : α → Told)
    (ask : Action ω α) : Action ω α := do
  let askedAt ← p.change fun h => (h.length, h ++ [.asked tenant matter])
  let v ← ask
  p.modify (· ++ [.answered tenant askedAt (tell v)])
  pure v

/-- The other registry with what it is asked and what it answers put down. -/
def withQuestions (p : Part ω CacheHistory) (store : Source ω) : Source ω where
  commands tenant := askObserved p tenant .commands .commands (store.commands tenant)
  sigil := store.sigil.map fun ask tenant => askObserved p tenant .sigil .sigil (ask tenant)

/-- A read that puts down what it is told. -/
def readObserved (p : Part ω CacheHistory) (tenant : Text) (tell : α → Told) (read : Action ω α) :
    Action ω Unit := do
  let begunAt ← p.ask List.length
  let v ← read
  p.modify (· ++ [.told tenant begunAt (tell v)])

/-- What a client of the cache does next. -/
inductive Request (ω : Type)
  | commands (tenant : Text)
  | sigil (tenant : Text)
  | forget (tenant : Option Text)
  | other (x : Action ω Unit)

/-- Does what a client wants. -/
def Request.serve (p : Part ω CacheHistory) (s : CacheSettings ω) (store : Source ω) :
    Request ω → Action ω Unit
  | commands t => readObserved p t .commands (cachedCommands s (withQuestions p store) t)
  | sigil t => readObserved p t .sigil (cachedSigil s (withQuestions p store) t)
  | forget tenant => do
    invalidate tenant
    p.modify (· ++ [.forgot tenant])
  | other x => x

/-- A client that does one thing after the other, whatever comes of each. -/
def client (p : Part ω CacheHistory) (s : CacheSettings ω) (store : Source ω)
    (requests : List (Request ω)) : Action ω Unit :=
  requests.forM fun request => do
    let _ ← Act.attempt (request.serve p s store)
    pure ()

/-- What the cache is made of, and its history. -/
def cacheView (p : Part ω CacheHistory) (w : World ω) :
    List (Text × Cached (List Command)) × List (Text × Cached (Option Text)) × CacheHistory :=
  (w.cachedCommands, w.cachedSigils, p.get w.env)

/-! ### What a history says -/

/-- The other registry has answered this, later than the first `n` events have made the cache forget
anything of the tenant. -/
def AnsweredSince (h : CacheHistory) (n : Nat) (tenant : Text) (v : Told) : Prop :=
  ∃ k askedAt, h[k]? = some (.answered tenant askedAt v) ∧
    ∀ i < n, ∀ forgotten, h[i]? = some (.forgot forgotten) → Covers forgotten tenant → i < k

/-- Answers have been asked for, and what a read is told was answered since; only where there is no
one to ask, a read is told so at once. -/
def Warranted (store : Source ω) (past : CacheHistory) : CacheEvent → Prop
  | .answered t askedAt v => past[askedAt]? = some (.asked t v.matter)
  | .told t begunAt v => begunAt ≤ past.length ∧
    (AnsweredSince past begunAt t v ∨ store.sigil = none ∧ v = .sigil none)
  | .asked .. | .forgot _ => True

/-- Every event is warranted by those before it. -/
def Truthful (store : Source ω) (h : CacheHistory) : Prop :=
  ∀ j e, h[j]? = some e → Warranted store (h.take j) e

variable {h h' : CacheHistory} {n n' : Nat} {t : Text} {v : Told} {e : CacheEvent}
  {store : Source ω}

theorem getElem?_take_eq_some {i : Nat} :
    (h.take n)[i]? = some e ↔ i < n ∧ h[i]? = some e := by
  rw [List.getElem?_take]
  split
  · simp [*]
  · simp [*]

theorem AnsweredSince.mono (ha : AnsweredSince h n t v) (hn : n' ≤ n) : AnsweredSince h n' t v := by
  obtain ⟨k, a, hk, hbefore⟩ := ha
  exact ⟨k, a, hk, fun i hi => hbefore i (Nat.lt_of_lt_of_le hi hn)⟩

/-- What happens later does not matter. -/
theorem AnsweredSince.later (ha : AnsweredSince h n t v) (hn : n ≤ h.length) (hh : h <+: h') :
    AnsweredSince h' n t v := by
  obtain ⟨k, a, hk, hbefore⟩ := ha
  obtain ⟨rest, rfl⟩ := hh
  refine ⟨k, a, ?_, fun i hi forgotten hforgot => hbefore i hi forgotten ?_⟩
  · rw [List.getElem?_append_left (List.getElem?_eq_some_iff.mp hk).1]
    exact hk
  · rwa [List.getElem?_append_left (Nat.lt_of_lt_of_le hi hn)] at hforgot

/-- Nor does what happens next, unless it makes the cache forget. -/
theorem AnsweredSince.next (ha : AnsweredSince h h.length t v)
    (he : ∀ forgotten, e = .forgot forgotten → ¬ Covers forgotten t) :
    AnsweredSince (h ++ [e]) (h ++ [e]).length t v := by
  obtain ⟨k, a, hk, hbefore⟩ := ha.later (Nat.le_refl _) (List.prefix_append h [e])
  refine ⟨k, a, hk, fun i hi forgotten hforgot hcovers => ?_⟩
  by_cases hlt : i < h.length
  · exact hbefore i hlt forgotten hforgot hcovers
  · obtain rfl : i = h.length := by simp at hi; omega
    rw [List.getElem?_append_right (Nat.le_refl _), Nat.sub_self] at hforgot
    exact absurd hcovers (he forgotten (Option.some.inj hforgot))

/-- An answer that has just come in. -/
theorem answeredSince_answered (h : CacheHistory) (askedAt : Nat) :
    AnsweredSince (h ++ [CacheEvent.answered t askedAt v])
      (h ++ [CacheEvent.answered t askedAt v]).length t v := by
  refine ⟨h.length, askedAt, List.getElem?_concat_length, fun i hi forgotten hforgot _ => ?_⟩
  refine Nat.lt_of_le_of_ne (Nat.le_of_lt_succ (by simpa using hi)) fun heq => ?_
  rw [heq, List.getElem?_concat_length] at hforgot
  cases hforgot

theorem Truthful.append (hh : Truthful store h) (he : Warranted store h e) :
    Truthful store (h ++ [e]) := by
  intro j e' hj
  by_cases hlt : j < h.length
  · rw [List.getElem?_append_left hlt] at hj
    rw [List.take_append_of_le_length (Nat.le_of_lt hlt)]
    exact hh j e' hj
  · have hsize := (List.getElem?_eq_some_iff.mp hj).1
    obtain rfl : j = h.length := by simp at hsize; omega
    rw [List.getElem?_concat_length] at hj
    obtain rfl := Option.some.inj hj
    rwa [List.take_left]

/-! ### What holds of the cache -/

/-- The history is truthful, and what is cached was answered since the cache was last made to forget
it. -/
structure Sincere (p : Part ω CacheHistory) (store : Source ω) (w : World ω) : Prop where
  truthful : Truthful store (p.get w.env)
  commands : ∀ t c, w.cachedCommands.lookup t = some c →
    AnsweredSince (p.get w.env) (p.get w.env).length t (.commands c.value)
  sigils : ∀ t c, w.cachedSigils.lookup t = some c →
    AnsweredSince (p.get w.env) (p.get w.env).length t (.sigil c.value)

/-- The cache is kept sincere, and the history grows. -/
def sincerity (p : Part ω CacheHistory) (store : Source ω) : Charter (World ω) where
  holds := Sincere p store
  taken _ := 0
  may _ w w' := p.get w.env <+: p.get w'.env
  meanwhile _ w w' := p.get w.env <+: p.get w'.env
  refl _ _ := List.prefix_rfl
  trans := List.IsPrefix.trans

variable {p : Part ω CacheHistory} {w w' : World ω}

theorem grows_of_eq (heq : h = h') : h <+: h' := heq ▸ List.prefix_rfl

theorem grows_append (hp : p.Lawful) (w : World ω) (e : CacheEvent) :
    p.get w.env <+: p.get (p.set (p.get w.env ++ [e]) w.env) :=
  (List.prefix_append _ _).trans (grows_of_eq (hp _ _).symm)

theorem sincerity_lawful : (sincerity p store).Lawful where
  grows _ := Nat.le_refl 0
  apart h _ := h

theorem Sincere.of_view (hw : Sincere p store w) (hview : cacheView p w = cacheView p w') :
    Sincere p store w' := by
  simp only [cacheView, Prod.mk.injEq] at hview
  obtain ⟨hcommands, hsigils, hhistory⟩ := hview
  obtain ⟨htruthful, hc, hs⟩ := hw
  rw [hcommands] at hc
  rw [hsigils] at hs
  rw [hhistory] at htruthful hc hs
  exact ⟨htruthful, hc, hs⟩

theorem sincerity_about : (sincerity p store).About (cacheView p) where
  holds _ _ hview hw := Sincere.of_view hw hview
  may _ _ _ hview := by
    simp only [cacheView, Prod.mk.injEq] at hview
    exact grows_of_eq hview.2.2

/-- Nothing is cached for a tenant. -/
def Uncached (t : Text) (w : World ω) : Prop :=
  w.cachedCommands.lookup t = none ∧ w.cachedSigils.lookup t = none

/-- The next event.  When the cache is made to forget, there is nothing to be forgotten in it any
more. -/
theorem Sincere.append (hp : p.Lawful) (hw : Sincere p store w)
    (he : Warranted store (p.get w.env) e)
    (hforgot : ∀ forgotten, e = .forgot forgotten → ∀ t, Covers forgotten t →
      Uncached t w) :
    Sincere p store { w with env := p.set (p.get w.env ++ [e]) w.env } := by
  refine ⟨?_, fun t c hc => ?_, fun t c hc => ?_⟩
  · rw [hp]
    exact hw.truthful.append he
  · rw [hp]
    refine (hw.commands t c hc).next fun forgotten heq hcovers => ?_
    rw [(hforgot forgotten heq t hcovers).1] at hc
    cases hc
  · rw [hp]
    refine (hw.sigils t c hc).next fun forgotten heq hcovers => ?_
    rw [(hforgot forgotten heq t hcovers).2] at hc
    cases hc

/-- Something known of the history that is not lost when it grows. -/
def Lasting (K : CacheHistory → Prop) : Prop := ∀ h h', h <+: h' → K h → K h'

/-- The cache is sincere, and something is known of its history. -/
abbrev Knows (p : Part ω CacheHistory) (store : Source ω) (K : CacheHistory → Prop) (_ : Role)
    (w : World ω) : Prop :=
  Sincere p store w ∧ K (p.get w.env)

variable {K K' : CacheHistory → Prop}

theorem fulfils_avoiding {x : Action ω α} (hx : Avoids (cacheView p) x) (hK : Lasting K) :
    Fulfils (sincerity p store) (Knows p store K) x fun _ => Knows p store K := by
  refine hx.fulfils sincerity_about (fun ρ => ⟨fun _ hw => hw.1, ?_⟩) ?_
  · exact fun w w' hw hgrows hw' => ⟨hw', hK _ _ hgrows hw.2⟩
  · intro ρ w w' hview hw
    refine ⟨hw.1.of_view hview, ?_⟩
    simp only [cacheView, Prod.mk.injEq] at hview
    rw [← hview.2.2]
    exact hw.2

/-- Puts down something else than that the cache was made to forget. -/
theorem fulfils_record (hp : p.Lawful) (hforgot : ∀ forgotten, e ≠ .forgot forgotten)
    (he : ∀ h, K h → Warranted store h e) (hK : ∀ h, K h → K' (h ++ [e])) :
    Fulfils (sincerity p store) (Knows p store K) (p.modify (· ++ [e]) : Action ω Unit)
      fun _ => Knows p store K' := by
  refine fulfils_change fun ρ w hw =>
    ⟨ρ, .same (grows_append hp w e), hw.1.append hp (he _ hw.2) ?_, ?_⟩
  · exact fun forgotten heq => absurd heq (hforgot forgotten)
  · change K' (p.get (p.set _ w.env))
    rw [hp]
    exact hK _ hw.2

/-! ### Reads -/

/-- The value has been answered just now. -/
def Fresh (K : CacheHistory → Prop) (t : Text) (tell : α → Told) (r : Ending α) (h : CacheHistory) :
    Prop :=
  K h ∧ ∀ v, r = .ok v → AnsweredSince h h.length t (tell v)

/-- Puts down a question; while it is open it stands in the history. -/
theorem fulfils_question (hp : p.Lawful) (hK : Lasting K) (matter : Matter) :
    Fulfils (sincerity p store) (Knows p store K)
      (p.change fun h => (h.length, h ++ [.asked t matter]) : Action ω Nat)
      fun r ρ w => ∃ n, r = .ok n ∧
        Knows p store (fun h => K h ∧ h[n]? = some (.asked t matter)) ρ w := by
  refine fulfils_change fun ρ w hw => ⟨ρ, .same (grows_append hp w _), _, rfl, ?_, ?_⟩
  · exact hw.1.append hp trivial fun _ heq => nomatch heq
  · change K (p.get (p.set _ w.env)) ∧ (p.get (p.set _ w.env))[_]? = _
    rw [hp]
    exact ⟨hK _ _ (List.prefix_append _ _) hw.2, List.getElem?_concat_length⟩

theorem fulfils_askObserved (hp : p.Lawful) {ask : Action ω α} (hask : Avoids (cacheView p) ask)
    (hK : Lasting K) {matter : Matter} {tell : α → Told} (htell : ∀ v, (tell v).matter = matter) :
    Fulfils (sincerity p store) (Knows p store K) (askObserved p t matter tell ask)
      fun r => Knows p store (Fresh K t tell r) := by
  refine fulfils_bind (fulfils_question hp hK matter) (fun n => ?_) ?_
  · have hopen : Lasting fun h => K h ∧ h[n]? = some (.asked t matter) := by
      rintro h _ ⟨rest, rfl⟩ ⟨hk, hn⟩
      refine ⟨hK h _ ⟨rest, rfl⟩ hk, ?_⟩
      rw [List.getElem?_append_left (List.getElem?_eq_some_iff.mp hn).1]
      exact hn
    have hanswer : ∀ v, Fulfils (sincerity p store)
        (Knows p store fun h => K h ∧ h[n]? = some (.asked t matter))
        (p.modify (· ++ [.answered t n (tell v)]) : Action ω Unit)
        fun _ => Knows p store (Fresh K t tell (.ok v)) := by
      refine fun v => fulfils_record hp nofun ?_ ?_
      · rintro h ⟨-, hn⟩
        change h[n]? = some (.asked t (tell v).matter)
        rw [htell]
        exact hn
      · rintro h ⟨hk, -⟩
        refine ⟨hK _ _ (List.prefix_append _ _) hk, fun v' heq => ?_⟩
        obtain rfl := Except.ok.inj heq
        exact answeredSince_answered h n
    intro k Q ρ w hw hk
    obtain ⟨n', heq, hw⟩ := hw
    obtain rfl := Except.ok.inj heq
    refine fulfils_bind (fulfils_avoiding hask hopen) (fun v => ?_) ?_ k Q ρ w hw hk
    · refine fulfils_bind (hanswer v) (fun _ k Q ρ w hw hk => hk _ ρ w hw) ?_
      exact fun f ρ w hw => ⟨hw.1, hw.2.1, nofun⟩
    · exact fun f ρ w hw => ⟨hw.1, hw.2.1, nofun⟩
  · rintro f ρ w ⟨n, heq, -⟩
    cases heq

/-- What a read that began at a place of the history may be told. -/
def Tells (n : Nat) (t : Text) (tell : α → Told) (r : Ending α) (h : CacheHistory) : Prop :=
  n ≤ h.length ∧ ∀ v, r = .ok v → AnsweredSince h n t (tell v)

/-- A place of the cache whose values are about a matter: what is in it was answered since the cache
was last made to forget it, and such a value may be put there. -/
structure CachePlace.Keeps (place : CachePlace ω α) (p : Part ω CacheHistory) (store : Source ω)
    (tell : α → Told) : Prop where
  get : ∀ {w t c}, Sincere p store w → (place.get w).lookup t = some c →
    AnsweredSince (p.get w.env) (p.get w.env).length t (tell c.value)
  set : ∀ {w t v} (now : Rat), Sincere p store w →
    AnsweredSince (p.get w.env) (p.get w.env).length t (tell v) →
      Sincere p store (place.set (Store.assign t ⟨now, v⟩ (place.get w)) w)
  env : ∀ c w, (place.set c w).env = w.env

theorem commandPlace_keeps : commandPlace.Keeps p store .commands where
  get hw hc := hw.commands _ _ hc
  set {w t v} now hw hv := by
    refine ⟨hw.truthful, fun t' c hc => ?_, hw.sigils⟩
    change (Store.assign t ⟨now, v⟩ w.cachedCommands).lookup t' = some c at hc
    by_cases ht : t' = t
    · subst ht
      rw [lookup_assign_self] at hc
      obtain rfl := Option.some.inj hc
      exact hv
    · rw [lookup_assign_of_ne ht] at hc
      exact hw.commands t' c hc
  env _ _ := rfl

theorem sigilPlace_keeps : sigilPlace.Keeps p store .sigil where
  get hw hc := hw.sigils _ _ hc
  set {w t v} now hw hv := by
    refine ⟨hw.truthful, hw.commands, fun t' c hc => ?_⟩
    change (Store.assign t ⟨now, v⟩ w.cachedSigils).lookup t' = some c at hc
    by_cases ht : t' = t
    · subst ht
      rw [lookup_assign_self] at hc
      obtain rfl := Option.some.inj hc
      exact hv
    · rw [lookup_assign_of_ne ht] at hc
      exact hw.sigils t' c hc
  env _ _ := rfl

/-- What a read has found in the cache. -/
def Finds (n : Nat) (t : Text) (tell : α → Told) (found : Option (Cached α)) (h : CacheHistory) :
    Prop :=
  n ≤ h.length ∧ ∀ c, found = some c → AnsweredSince h n t (tell c.value)

theorem finds_lasting {tell : α → Told} {found : Option (Cached α)} :
    Lasting (Finds n t tell found) :=
  fun _ _ hh hf => ⟨Nat.le_trans hf.1 hh.length_le, fun c heq => (hf.2 c heq).later hf.1 hh⟩

theorem Finds.tells {tell : α → Told} {c : Cached α} (hf : Finds n t tell (some c) h) :
    Tells n t tell (.ok c.value) h :=
  ⟨hf.1, fun _ heq => Except.ok.inj heq ▸ hf.2 c rfl⟩

/-- A fresh answer goes into the cache. -/
theorem fulfils_keep {place : CachePlace ω α} {tell : α → Told}
    (hplace : place.Keeps p store tell) (now : Rat) (v : α) :
    Fulfils (sincerity p store) (Knows p store (Fresh (n ≤ ·.length) t tell (.ok v)))
      (do Act.modify fun w => place.set (Store.assign t ⟨now, v⟩ (place.get w)) w
          pure v : Action ω α) fun r => Knows p store (Tells n t tell r) := by
  intro k Q ρ w ⟨hw, hn, hv⟩ hk
  have hset := hplace.set now hw (hv v rfl)
  have henv := hplace.env (Store.assign t ⟨now, v⟩ (place.get w)) w
  refine ⟨ρ, .same (grows_of_eq (congrArg p.get henv.symm)), hk _ ρ _ ⟨hset, ?_⟩⟩
  · rw [henv]
    refine ⟨hn, fun v' heq => ?_⟩
    obtain rfl := Except.ok.inj heq
    exact (hv v rfl).mono hn

/-- **A read by way of the cache** is told what was answered since the cache was last made to forget
before the read. -/
theorem fulfils_lookUp {s : CacheSettings ω} (hclock : Avoids (cacheView p) s.clock)
    {place : CachePlace ω α} {tell : α → Told} (hplace : place.Keeps p store tell)
    {ask : Action ω α} (hask : ∀ {K}, Lasting K →
      Fulfils (sincerity p store) (Knows p store K) ask fun r => Knows p store (Fresh K t tell r))
    {stale : Rat → Fault → Action ω Unit} (hstale : ∀ age f, Avoids (cacheView p) (stale age f)) :
    Fulfils (sincerity p store) (Knows p store (n ≤ ·.length)) (lookUp s place t ask stale)
      fun r => Knows p store (Tells n t tell r) := by
  have hbegun : Lasting (n ≤ ·.length) := fun _ _ hh hn => Nat.le_trans hn hh.length_le
  refine fulfils_bind (fulfils_avoiding hclock hbegun) (fun now => ?_)
    fun f ρ w hw => ⟨hw.1, hw.2, nofun⟩
  have hsee : ∀ ρ w, Knows p store (n ≤ ·.length) ρ w →
      Knows p store (Finds n t tell ((place.get w).lookup t)) ρ w :=
    fun ρ w hw => ⟨hw.1, hw.2, fun c hc => (hplace.get hw.1 hc).mono hw.2⟩
  have hfail : ∀ f : Failure, ∀ w, Sincere p store w → n ≤ (p.get w.env).length →
      Sincere p store w ∧ Tells n t tell (.error f) (p.get w.env) :=
    fun f w hw hn => ⟨hw, hn, nofun⟩
  refine fulfils_see_bind ?_ fun found =>
    (?_ : Fulfils _ (Knows p store (Finds n t tell found)) _ _)
  · exact hsee
  cases found with
  | none =>
    refine fulfils_bind (hask finds_lasting) (fun v => ?_) fun f ρ w hw => hfail f w hw.1 hw.2.1.1
    exact (fulfils_keep hplace now v).of_pre fun ρ w hw => ⟨hw.1, hw.2.1.1, hw.2.2⟩
  | some c =>
    simp only []
    split
    · exact fun k Q ρ w hw hk => hk _ ρ w ⟨hw.1, hw.2.tells⟩
    · refine fulfils_attempt_bind (hask finds_lasting) fun r => ?_
      match r with
      | .ok v => exact (fulfils_keep hplace now v).of_pre fun ρ w hw => ⟨hw.1, hw.2.1.1, hw.2.2⟩
      | .error (.fault f) =>
        refine Fulfils.of_pre (fulfils_bind (fulfils_avoiding (hstale _ f) finds_lasting)
          (fun _ k Q ρ w hw hk => hk _ ρ w ⟨hw.1, hw.2.tells⟩) ?_) fun ρ w hw => ⟨hw.1, hw.2.1⟩
        exact fun f ρ w hw => hfail f w hw.1 hw.2.1
      | .error .interrupted => exact fun k Q ρ w hw hk => hk _ ρ w (hfail _ w hw.1 hw.2.1.1)

theorem avoids_log (level : Level) (component : Component) (message : Text)
    (context : List (String × Json)) :
    Avoids (cacheView p) (Action.log level component message context) :=
  avoids_closed.change fun _ => rfl

/-- The collaborators of the cache leave it and its history alone. -/
structure Discreet (p : Part ω CacheHistory) (s : CacheSettings ω) (store : Source ω) : Prop where
  clock : Avoids (cacheView p) s.clock
  commands : ∀ t, Avoids (cacheView p) (store.commands t)
  sigil : ∀ ask, store.sigil = some ask → ∀ t, Avoids (cacheView p) (ask t)

variable {s : CacheSettings ω}

/-- What a read that began at a place of the history may be told has its warrant. -/
def Vouches (store : Source ω) (n : Nat) (t : Text) (tell : α → Told) (r : Ending α)
    (h : CacheHistory) : Prop :=
  ∀ v, r = .ok v → Warranted store h (.told t n (tell v))

theorem Tells.vouches {tell : α → Told} {r : Ending α} (ht : Tells n t tell r h) :
    Vouches store n t tell r h :=
  fun v heq => ⟨ht.1, .inl (ht.2 v heq)⟩

theorem fulfils_cachedCommands (hp : p.Lawful) (hs : Discreet p s store) :
    Fulfils (sincerity p store) (Knows p store (n ≤ ·.length))
      (cachedCommands s (withQuestions p store) t)
      fun r => Knows p store (Vouches store n t .commands r) := by
  refine (fulfils_lookUp hs.clock commandPlace_keeps ?_ ?_).of_post fun r ρ w hw =>
    ⟨hw.1, hw.2.vouches⟩
  · exact fun hK => fulfils_askObserved hp (hs.commands t) hK fun _ => rfl
  · exact fun _ _ => avoids_log _ _ _ _

theorem fulfils_cachedSigil (hp : p.Lawful) (hs : Discreet p s store) :
    Fulfils (sincerity p store) (Knows p store (n ≤ ·.length))
      (cachedSigil s (withQuestions p store) t)
      fun r => Knows p store (Vouches store n t .sigil r) := by
  have hasked : (withQuestions p store).sigil =
      store.sigil.map fun ask tenant => askObserved p tenant .sigil .sigil (ask tenant) := rfl
  unfold cachedSigil
  rw [hasked]
  cases hstore : store.sigil with
  | none =>
    intro k Q ρ w hw hk
    refine hk _ ρ w ⟨hw.1, fun v heq => ⟨hw.2, .inr ⟨hstore, ?_⟩⟩⟩
    rw [← Except.ok.inj heq]
  | some ask =>
    refine (fulfils_lookUp hs.clock sigilPlace_keeps ?_ ?_).of_post fun r ρ w hw =>
      ⟨hw.1, hw.2.vouches⟩
    · exact fun hK => fulfils_askObserved hp (hs.sigil ask hstore t) hK fun _ => rfl
    · exact fun _ _ => avoids_log _ _ _ _

/-! ### Clients -/

/-- The computation keeps the cache sincere. -/
abbrev KeepsSincere (p : Part ω CacheHistory) (store : Source ω) (x : Action ω α) : Prop :=
  Fulfils (sincerity p store) (fun _ => Sincere p store) x fun _ _ => Sincere p store

theorem keepsSincere_readObserved (hp : p.Lawful) {tell : α → Told} {read : Action ω α}
    (hread : ∀ n, Fulfils (sincerity p store) (Knows p store (n ≤ ·.length)) read
      fun r => Knows p store (Vouches store n t tell r)) :
    KeepsSincere p store (readObserved p t tell read) := by
  refine fulfils_see_bind ?_ fun n => (?_ : Fulfils _ (Knows p store (n ≤ ·.length)) _ _)
  · exact fun ρ w hw => ⟨hw, Nat.le_refl _⟩
  · refine fulfils_bind (hread n) (fun v => ?_) fun f ρ w hw => hw.1
    have hrecord : Fulfils (sincerity p store) (Knows p store (Vouches store n t tell (.ok v)))
        (p.modify (· ++ [.told t n (tell v)]) : Action ω Unit)
        fun _ => Knows p store fun _ => True :=
      fulfils_record hp nofun (fun h hv => hv v rfl) fun _ _ => trivial
    exact hrecord.of_post fun r ρ w hw => hw.1

theorem Sincere.forget (hw : Sincere p store w) (tenant : Option Text) :
    Sincere p store (forgetting tenant w) := by
  refine ⟨?_, fun t c hc => ?_, fun t c hc => ?_⟩
  · rw [forgetting_env]
    exact hw.truthful
  · rw [forgetting_env]
    rw [lookup_forgetting_commands] at hc
    split at hc
    · cases hc
    · exact hw.commands t c hc
  · rw [forgetting_env]
    rw [lookup_forgetting_sigils] at hc
    split at hc
    · cases hc
    · exact hw.sigils t c hc

theorem uncached_forgetting {tenant : Option Text} (ht : Covers tenant t) (w : World ω) :
    Uncached t (forgetting tenant w) := by
  constructor
  · rw [lookup_forgetting_commands, if_pos ht]
  · rw [lookup_forgetting_sigils, if_pos ht]

theorem keepsSincere_forget (hp : p.Lawful) (tenant : Option Text) :
    KeepsSincere p store (do
      invalidate tenant
      p.modify (· ++ [.forgot tenant]) : Action ω Unit) := by
  have hrecord : Fulfils (sincerity p store)
      (fun _ w => Sincere p store w ∧ ∀ t, Covers tenant t → Uncached t w)
      (p.modify (· ++ [.forgot tenant]) : Action ω Unit) fun _ _ => Sincere p store := by
    refine fulfils_change fun ρ w hw => ⟨ρ, .same (grows_append hp w _), ?_⟩
    refine hw.1.append hp trivial fun forgotten heq t ht => hw.2 t ?_
    cases heq
    exact ht
  rw [invalidate_eq]
  refine fulfils_modify_bind ?_ hrecord
  intro ρ w hw
  have hgrows := grows_of_eq (congrArg p.get (forgetting_env tenant w).symm)
  exact ⟨hgrows, hw.forget tenant, fun t ht => uncached_forgetting ht w⟩

theorem keepsSincere_serve (hp : p.Lawful) (hs : Discreet p s store) {request : Request ω}
    (hother : ∀ x, request = .other x → Avoids (cacheView p) x) :
    KeepsSincere p store (request.serve p s store) := by
  cases request with
  | commands t => exact keepsSincere_readObserved hp fun n => fulfils_cachedCommands hp hs
  | sigil t => exact keepsSincere_readObserved hp fun n => fulfils_cachedSigil hp hs
  | forget tenant => exact keepsSincere_forget hp tenant
  | other x =>
    have hx : Fulfils _ (Knows p store fun _ => True) x fun _ => Knows p store fun _ => True :=
      fulfils_avoiding (hother x rfl) fun _ _ _ _ => trivial
    exact hx.weaken (fun _ _ hw => ⟨hw, trivial⟩) fun _ _ _ hw => hw.1

theorem keepsSincere_client (hp : p.Lawful) (hs : Discreet p s store)
    (requests : List (Request ω)) (hother : ∀ x, .other x ∈ requests → Avoids (cacheView p) x) :
    KeepsSincere p store (client p s store requests) := by
  induction requests with
  | nil => exact fun k Q ρ w hw hk => hk _ ρ w hw
  | cons request rest ih =>
    have hserve : KeepsSincere p store (request.serve p s store) :=
      keepsSincere_serve hp hs fun x heq => hother x (heq ▸ List.mem_cons_self)
    have hone : KeepsSincere p store (do
        let _ ← Act.attempt (request.serve p s store)
        pure ()) :=
      fulfils_attempt_bind hserve fun r k Q ρ w hw hk => hk _ ρ w hw
    exact fulfils_bind hone (fun _ => ih fun x hx => hother x (List.mem_cons_of_mem _ hx))
      fun _ _ _ hw => hw

/-- The states that clients of a cache come to; at the beginning it is empty. -/
abbrev CacheRun (p : Part ω CacheHistory) (s : CacheSettings ω) (store : Source ω) :
    Scheduler (World ω) Product → Prop :=
  Scheduler.Reachable
    (fun w => w.cachedCommands = [] ∧ w.cachedSigils = [] ∧ p.get w.env = [])
    fun t => ∃ toValue requests, (∀ x, .other x ∈ requests → Avoids (cacheView p) x) ∧
      t = toTask toValue (client p s store requests)

theorem sincere_start (hw : w.cachedCommands = [] ∧ w.cachedSigils = [] ∧ p.get w.env = []) :
    Sincere p store w := by
  obtain ⟨hcommands, hsigils, hhistory⟩ := hw
  refine ⟨?_, ?_, ?_⟩
  · intro j e hj
    simp [hhistory] at hj
  · simp [hcommands]
  · simp [hsigils]

theorem CacheRun.sincere (hp : p.Lawful) (hs : Discreet p s store)
    {k : Scheduler (World ω) Product} (hk : CacheRun p s store k) (jobs : Nat) :
    Sincere p store (k.amid jobs).shared := by
  have hsettled : Scheduler.Settled (sincerity p store) k := by
    refine hk.settled sincerity_lawful (ρ := .common) rfl (fun _ hw => sincere_start hw) ?_
    rintro _ ⟨toValue, requests, hother, rfl⟩ w hw
    exact heeds_toTask (keepsSincere_client hp hs requests hother) hw
  exact (hsettled.amid sincerity_lawful jobs).settled.holds

/-- **What a read is told was answered after all that it makes the cache forget before it.**  However
the reads of commands and prefixes, their questions to the other registry and the clients that make
the cache forget interleave, and whatever the other registry answers: what a read of a tenant is
told that began after the cache was made to forget the tenant has come in since, and what it came in
for was asked before it came in. -/
theorem told_answered_since (hp : p.Lawful) (hs : Discreet p s store)
    {k : Scheduler (World ω) Product} (hk : CacheRun p s store k) (jobs : Nat)
    {forgot begunAt told : Nat} {tenant : Option Text}
    (hforgot : (p.get (k.amid jobs).shared.env)[forgot]? = some (.forgot tenant))
    (hcovers : Covers tenant t) (hafter : forgot < begunAt)
    (htold : (p.get (k.amid jobs).shared.env)[told]? = some (.told t begunAt v)) :
    (store.sigil = none ∧ v = .sigil none) ∨
    ∃ answered askedAt, forgot < answered ∧ askedAt < answered ∧ answered < told ∧
      (p.get (k.amid jobs).shared.env)[answered]? = some (.answered t askedAt v) ∧
      (p.get (k.amid jobs).shared.env)[askedAt]? = some (.asked t v.matter) := by
  have htruthful := (hk.sincere hp hs jobs).truthful
  generalize p.get (k.amid jobs).shared.env = h at *
  obtain ⟨hbegun, hsince | hnone⟩ := htruthful told _ htold
  · obtain ⟨answered, askedAt, hanswered, hbefore⟩ := hsince
    have hpast : begunAt ≤ told := Nat.le_trans hbegun (List.length_take_le _ _)
    have hforgot' : (h.take told)[forgot]? = some (.forgot tenant) :=
      getElem?_take_eq_some.mpr ⟨Nat.lt_of_lt_of_le hafter hpast, hforgot⟩
    have hlater : forgot < answered := hbefore forgot hafter tenant hforgot' hcovers
    obtain ⟨hlt, hanswered⟩ := getElem?_take_eq_some.mp hanswered
    have hasked := htruthful answered _ hanswered
    obtain ⟨hlt', hasked⟩ := getElem?_take_eq_some.mp hasked
    exact .inr ⟨answered, askedAt, hlater, hlt', hlt, hanswered, hasked⟩
  · exact .inl hnone

/-! ### An answer in flight -/

/-- A store without commands that takes a second to say so. -/
def slowStore : Source CacheHistory where
  commands _ := do
    Act.sleep (some 1)
    pure []
  sigil := none

/-- Answers count for ten seconds. -/
def tenSeconds : CacheSettings CacheHistory := ⟨10, Action.askEnv fun _ => 0⟩

/-- So many rounds after a read was begun and, while its question is open, someone makes the cache
forget everything and reads after two seconds. -/
def forgottenInFlight (rounds : Nat) : Scheduler (World CacheHistory) Product :=
  let reader := client .whole tenSeconds slowStore [.commands (text "tenant")]
  let forgetter := client .whole tenSeconds slowStore
    [.forget none, .other (Act.sleep (some 2)), .commands (text "tenant")]
  let new : Scheduler (World CacheHistory) Product := { shared := { env := [] } }
  let started := (new.addTask false (toTask (fun _ => .nothing) reader)).2
  (started.addTask false (toTask (fun _ => .nothing) forgetter)).2.rounds rounds

theorem slowStore_discreet : Discreet .whole tenSeconds slowStore where
  clock := avoids_closed.gets _
  commands _ := avoids_closed.bind (avoids_closed.sleep _) fun _ => avoids_closed.pure _
  sigil := nofun

theorem forgottenInFlight_run (rounds : Nat) :
    CacheRun .whole tenSeconds slowStore (forgottenInFlight rounds) := by
  apply Scheduler.Reachable.rounds
  apply Scheduler.Reachable.arrive
  · apply Scheduler.Reachable.arrive
    · exact .start ⟨rfl, rfl, rfl⟩
    · exact ⟨_, _, by simp, rfl⟩
  · refine ⟨_, _, fun x hx => ?_, rfl⟩
    obtain rfl : x = Act.sleep (some 2) := by simpa using hx
    exact avoids_closed.sleep _

/-- The read that began after the cache was made to forget is given an answer that has come in since,
but had been asked for before. -/
theorem told_answered_since_in_flight :
    let h := (Part.whole.get ((forgottenInFlight 8).amid 0).shared.env : CacheHistory)
    h[1]? = some (.forgot none) ∧ h[4]? = some (.told (text "tenant") 4 (.commands [])) ∧
    ∃ answered askedAt, 1 < answered ∧ askedAt < answered ∧ answered < 4 ∧
      h[answered]? = some (.answered (text "tenant") askedAt (.commands [])) ∧
      h[askedAt]? = some (.asked (text "tenant") .commands) := by
  have hforgot : (Part.whole.get ((forgottenInFlight 8).amid 0).shared.env : CacheHistory)[1]? =
      some (.forgot none) := by decide +kernel
  have htold : (Part.whole.get ((forgottenInFlight 8).amid 0).shared.env : CacheHistory)[4]? =
      some (.told (text "tenant") 4 (.commands [])) := by decide +kernel
  refine ⟨hforgot, htold, ?_⟩
  rcases told_answered_since (fun _ _ => rfl) slowStore_discreet (forgottenInFlight_run 8) 0 hforgot
    (.inl rfl) (by decide) htold with ⟨-, hnone⟩ | hanswered
  · cases hnone
  · exact hanswered

theorem history_forgottenInFlight : (forgottenInFlight 8).shared.env =
    [.asked (text "tenant") .commands, .forgot none, .answered (text "tenant") 0 (.commands []),
      .told (text "tenant") 0 (.commands []), .told (text "tenant") 4 (.commands [])] := by
  decide +kernel

/-- **An answer in flight is not forgotten.**  A read that began after the cache was made to forget may
be told what had been asked for before, and nothing else. -/
theorem told_of_answer_in_flight : ¬ ∀ k : Scheduler (World CacheHistory) Product,
    CacheRun .whole tenSeconds slowStore k → ∀ (forgot begunAt told : Nat) tenant t v,
      k.shared.env[forgot]? = some (.forgot tenant) → Covers tenant t → forgot < begunAt →
      k.shared.env[told]? = some (.told t begunAt v) →
      ∃ answered askedAt : Nat, k.shared.env[answered]? = some (.answered t askedAt v) ∧
        forgot < askedAt := by
  intro hall
  have h := hall (forgottenInFlight 8) (forgottenInFlight_run 8) 1 4 4 none (text "tenant")
    (.commands [])
  rw [history_forgottenInFlight] at h
  obtain ⟨answered, askedAt, hanswered, hlater⟩ := h rfl (.inl rfl) (by decide) rfl
  have hmem := List.mem_of_getElem? hanswered
  simp only [List.mem_cons, CacheEvent.answered.injEq, reduceCtorEq, List.not_mem_nil, or_false,
    false_or] at hmem
  omega

end ChatCommands.Registry
