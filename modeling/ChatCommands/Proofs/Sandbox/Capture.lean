import ChatCommands.Proofs.Concurrency.Charter
import ChatCommands.Proofs.Concurrency.Sessions
import ChatCommands.Sandbox.Supervision

/-!
What a capture holds: the beginning of the stream, however the stream came in chunks.

The reader takes one chunk after the other, whenever they come, and ends with a capture of the whole
stream.  Where the stream was cut into chunks cannot be told from it.
-/

namespace ChatCommands.Sandbox

open Concurrency Act

variable {limit : Int} {c : Capture} {read chunk : Bytes}

namespace Capture

/-- The capture is that of the bytes that were read. -/
structure Keeps (limit : Int) (c : Capture) (read : Bytes) : Prop where
  data : c.data = read.take limit.toNat
  total : c.total = read.length
  truncated : c.truncated = true ↔ read ≠ [] ∧ limit < read.length

theorem keeps_new (limit : Int) : Keeps limit {} [] := ⟨by simp, rfl, by simp⟩

theorem Keeps.add (h : Keeps limit c read) (chunk : Bytes) :
    Keeps limit (c.add limit chunk) (read ++ chunk) := by
  unfold Capture.add
  cases chunk with
  | nil => simpa using h
  | cons b rest =>
    simp only [List.isEmpty_cons, Bool.false_eq_true, if_false]
    constructor
    · have hroom : (limit - (read.take limit.toNat).length).toNat = limit.toNat - read.length := by
        rw [List.length_take]
        omega
      rw [h.data, hroom, List.take_append]
    · rw [h.total, List.length_append]
    · rw [Bool.or_eq_true, h.truncated, decide_eq_true_iff, h.total, List.length_append]
      constructor
      · rintro (⟨-, hlong⟩ | hlong)
        · refine ⟨by simp, ?_⟩
          push_cast
          omega
        · exact ⟨by simp, hlong⟩
      · rintro ⟨-, hlong⟩
        exact .inr hlong

theorem Keeps.foldl (chunks : List Bytes) (h : Keeps limit c read) :
    Keeps limit (chunks.foldl (Capture.add limit) c) (read ++ chunks.flatten) := by
  induction chunks generalizing c read with
  | nil => simpa using h
  | cons chunk chunks ih =>
    rw [List.foldl_cons, List.flatten_cons, ← List.append_assoc]
    exact ih (h.add chunk)

/-- **A capture keeps the beginning of the stream and says whether there was more.** -/
theorem keeps_ofChunks (limit : Int) (chunks : List Bytes) :
    Keeps limit (ofChunks limit chunks) chunks.flatten := by
  have h := (keeps_new limit).foldl chunks
  rwa [List.nil_append] at h

/-- A capture that says so has lost something, and no other has. -/
theorem Keeps.data_eq (h : Keeps limit c read) (hwhole : c.truncated = false) : c.data = read := by
  rw [h.data]
  apply List.take_of_length_le
  rcases Nat.lt_or_ge limit.toNat read.length with hlong | hfits
  · have hsome : read ≠ [] := by
      rintro rfl
      simp at hlong
    have hcut : c.truncated = true := h.truncated.mpr ⟨hsome, by omega⟩
    rw [hwhole] at hcut
    cases hcut
  · exact hfits

end Capture

/-- **What is read of a stream is its capture**, whenever the chunks come. -/
theorem yields_readStream {ω : Type} (limit : Int) (ending : Option Rat)
    (chunks : List (Rat × Bytes)) (c : Capture) :
    Yields (· = (chunks.map (·.2)).foldl (Capture.add limit) c)
      (readStream limit ending chunks c : Action ω Capture) := by
  induction chunks generalizing c with
  | nil =>
    apply yields_last
    intro _
    apply yields_ofEnding
    rintro _ ⟨⟩
    rfl
  | cons p chunks ih =>
    apply yields_last
    intro _
    exact ih (c.add limit p.2)

/-! ### Reading a stream to its end -/

section Reading

open Scheduler

/-- There is one capture of a stream. -/
theorem Capture.Keeps.unique {limit : Int} {c c' : Capture} {read : Bytes} (h : Keeps limit c read)
    (h' : Keeps limit c' read) : c = c' := by
  obtain ⟨data, truncated, total⟩ := c
  obtain ⟨data', truncated', total'⟩ := c'
  obtain rfl : data = data' := h.data.trans h'.data.symm
  obtain rfl : total = total' := h.total.trans h'.total.symm
  obtain rfl : truncated = truncated' := Bool.eq_iff_iff.mpr (h.truncated.trans h'.truncated.symm)
  rfl

variable {ω : Type} {w : World ω} {post : Ending Product → World ω → Prop}

theorem paces_pass (d : Rat) : Paces (Pact.solo False w post) 0 1 (fun j => j.hand.Unarmed)
    (pass (some d)) fun r j => r = .ok () ∧ j.hand.Unarmed := by
  unfold pass
  split
  · exact Paces.mono (paces_pure fun _ hj => ⟨rfl, hj⟩) (Nat.zero_le 1)
  · refine (paces_nap d (fun _ _ => trivial) fun _ hj => hj).weaken (fun _ h => h) fun r j hr => ?_
    exact ⟨hr.1, by rw [hr.2.1]; trivial⟩

/-- A reader ends with what its capture has become by the end of the stream. -/
theorem paces_readStream (limit : Int) (ending : Rat) (chunks : List (Rat × Bytes)) (c : Capture) :
    Paces (Pact.solo False w post) 0 (chunks.length + 1) (fun j => j.hand.Unarmed)
      (readStream limit (some ending) chunks c) fun r j =>
        r = .ok ((chunks.map (·.2)).foldl (Capture.add limit) c) ∧ j.hand.Unarmed := by
  induction chunks generalizing c with
  | nil =>
    exact Paces.mono ((paces_pass ending).bind (fun _ => paces_pure fun j hj => ⟨rfl, hj.2⟩)
      fun e j he => nomatch he.1) (Nat.le_of_eq (Nat.zero_add 1))
  | cons p chunks ih =>
    exact (paces_pass p.1).bind (fun _ => (ih (c.add limit p.2)).weaken (fun j hj => hj.2)
      fun r j hr => hr) fun e j he => nomatch he.1

/-- The task that reads a stream, in chunks that come after the given times, and that ends after one
more. -/
def reader (w : World ω) (limit : Nat) (chunks : List (Rat × Bytes)) (ending : Rat) :
    Scheduler (World ω) Product :=
  (Scheduler.addTask { shared := w } false
    (Act.toTask .captured (readStream limit (some ending) chunks {}))).2

/-- **A reader reads the stream to its end, and its capture is the same for all ways to cut the stream
into chunks**: it holds as much from the beginning of the stream as is allowed, how long the stream
was, and whether this was more than allowed. -/
theorem reader_captures (limit : Nat) (stream : Bytes) : ∃ c : Capture,
    c.data = stream.take limit ∧ c.total = stream.length ∧
      (c.truncated = true ↔ limit < stream.length) ∧
      ∀ (w : World ω) (chunks : List (Rat × Bytes)) (ending : Rat),
        (chunks.map (·.2)).flatten = stream → ∃ k,
          (∃ n, ∀ m, n ≤ m → (reader w limit chunks ending).runUntil 0 m = k) ∧
            k.statusOf 0 = .ended (.ok (.captured c)) := by
  have hwhole := Capture.keeps_ofChunks limit [stream]
  rw [List.flatten_singleton] at hwhole
  refine ⟨_, hwhole.data, hwhole.total, hwhole.truncated.trans ?_, fun w chunks ending hchunks => ?_⟩
  · rw [Nat.cast_lt]
    refine ⟨And.right, fun hlong => ⟨?_, hlong⟩⟩
    rintro rfl
    exact Nat.not_lt_zero _ hlong
  · have hkeeps := Capture.keeps_ofChunks limit (chunks.map Prod.snd)
    rw [hchunks] at hkeeps
    have hsame : (chunks.map Prod.snd).foldl (Capture.add limit) {} =
        Capture.ofChunks limit [stream] := hkeeps.unique hwhole
    have hpaced : (Act.toTask Product.captured (readStream limit (some ending) chunks {})).Paced
        (.solo False w fun r _ => r = .ok (.captured (.ofChunks limit [stream]))) 0 (chunks.length + 1)
        ⟨w, 0, .clean⟩ :=
      (paces_readStream limit ending chunks {}).toTask trivial fun r j hr =>
        ⟨hr.2, trivial, fun _ => by rw [hr.1, hsame]; rfl⟩
    obtain ⟨k, hruns, r, hr, hdone⟩ := solo_ends hpaced
    exact ⟨k, hruns, hdone ▸ hr⟩

/-- Three bytes, of which two are kept, in two ways to cut them into chunks. -/
theorem reader_captures_cutTwice : ∃ c : Capture, c.data = [97, 98] ∧ c.total = 3 ∧
    c.truncated = true ∧
    (∃ k, (∃ n, ∀ m, n ≤ m →
      (reader { env := () } 2 [(1, [97, 98]), (0, [99])] 0).runUntil 0 m = k) ∧
        k.statusOf 0 = .ended (.ok (.captured c))) ∧
    ∃ k, (∃ n, ∀ m, n ≤ m →
      (reader { env := () } 2 [(0, [97]), (3, [98, 99])] 5).runUntil 0 m = k) ∧
        k.statusOf 0 = .ended (.ok (.captured c)) := by
  obtain ⟨c, hdata, htotal, htruncated, hreads⟩ := reader_captures (ω := Unit) 2 [97, 98, 99]
  exact ⟨c, hdata, htotal, htruncated.mpr (by decide), hreads _ _ _ rfl, hreads _ _ _ rfl⟩

end Reading

end ChatCommands.Sandbox
