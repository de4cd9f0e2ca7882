import ChatCommands.Proofs.Sandbox.Capture
import ChatCommands.Reply
import ChatCommands.Sandbox.Standard

/-!
What a reply leaves out without saying so.

A script's output is cut twice, first in bytes as it is read and then in code points for the reply,
and either cut leaves a notice behind.  But a reply to output of which only blanks were kept is not
sent at all, and so says nothing of what was lost.  Main statement: `reply_silent_iff`.
-/

namespace ChatCommands.Reply

open Concurrency Act Sandbox

variable {limit : Int} {label : Text} {r : RunResult} {retryAfterMs : Int} {whole : Text}

theorem endsWith_append (t tail : Text) : Text.endsWith (t ++ tail) tail = true := by
  unfold Text.endsWith
  rw [List.isSuffixOf_iff_suffix]
  exact List.suffix_append t tail

/-- The reply has no notice at its end, and it is not the whole text without the blanks around it. -/
def Silent (limit : Int) (label : Text) (r : RunResult) (retryAfterMs : Int) (whole : Text) : Prop :=
  (∀ t, ofResult limit label r retryAfterMs = some t →
    Text.endsWith t truncationNotice = false) ∧
  (ofResult limit label r retryAfterMs).getD [] ≠ Text.strip whole

theorem ofResult_of_blank (hstatus : r.status = .success) (hblank : Text.strip r.output = []) :
    ofResult limit label r retryAfterMs = none := by
  simp only [ofResult, hstatus, hblank]

theorem ofResult_of_not_blank (hstatus : r.status = .success) (hsome : Text.strip r.output ≠ []) :
    ofResult limit label r retryAfterMs = some (bound limit (Text.strip r.output) r.truncated) := by
  simp only [ofResult, hstatus]

/-- A text that is shown as it is, or has the notice at its end. -/
theorem bound_eq_or_endsWith (limit : Int) (t : Text) (cut : Bool) :
    (cut = false ∧ bound limit t cut = t) ∨
      Text.endsWith (bound limit t cut) truncationNotice = true := by
  unfold bound
  split
  · rename_i hwhole
    rw [Bool.and_eq_true, Bool.not_eq_true'] at hwhole
    exact .inl ⟨hwhole.1, rfl⟩
  · exact .inr (endsWith_append _ _)

/-- **Only a missing reply is silent**: what was kept is blank, and what came with the rest is not. -/
theorem silent_iff (hstatus : r.status = .success)
    (hwhole : r.truncated = false → r.output = whole) :
    Silent limit label r retryAfterMs whole ↔
      r.truncated = true ∧ Text.strip r.output = [] ∧ Text.strip whole ≠ [] := by
  unfold Silent
  by_cases hblank : Text.strip r.output = []
  · rw [ofResult_of_blank hstatus hblank]
    constructor
    · rintro ⟨-, hlost⟩
      have hcut : r.truncated = true := by
        cases hcut : r.truncated with
        | true => rfl
        | false =>
          rw [hwhole hcut] at hblank
          exact absurd hblank.symm hlost
      exact ⟨hcut, hblank, fun hnil => hlost hnil.symm⟩
    · rintro ⟨-, -, hlost⟩
      exact ⟨nofun, fun heq => hlost heq.symm⟩
  · rw [ofResult_of_not_blank hstatus hblank]
    constructor
    · rintro ⟨hnotice, hlost⟩
      rcases bound_eq_or_endsWith limit (Text.strip r.output) r.truncated with ⟨hcut, hsame⟩ | hends
      · rw [hsame, hwhole hcut] at hlost
        exact absurd rfl hlost
      · have hnot := hnotice _ rfl
        rw [hends] at hnot
        cases hnot
    · rintro ⟨-, hnil, -⟩
      exact absurd hnil hblank

/-! ### From the output of a script to the reply -/

theorem diagnose_of_zero (rt : Runtime) (scratch : Host.Path) (out err : Capture) :
    diagnose rt scratch 0 out err =
      { status := .success, output := Utf8.decodeLossy out.data, truncated := out.truncated,
        exitCode := some 0 } := by
  simp [diagnose]

theorem status_diagnose_eq_success_iff (rt : Runtime) (scratch : Host.Path) (code : Int)
    (out err : Capture) : (diagnose rt scratch code out err).status = .success ↔ code = 0 := by
  by_cases hcode : code = 0
  · simp [hcode, diagnose_of_zero]
  · simp only [diagnose, hcode, if_false, iff_false]
    split
    · simp
    · split <;> simp

/-- **When output is lost without a word**: a script whose output comes in `chunks` is captured
whatever the chunks are, and the reply to its success shows all of the output or ends with the
notice, unless more was written than is kept, what is kept is blank, and the rest is not. -/
theorem reply_silent_iff {ω : Type} (s : Settings) (c : Config) (l : Language)
    (scratch : Host.Path) (chunks : List (Rat × Bytes)) (ending : Option Rat) (err : Capture)
    (code retryAfterMs : Int) :
    let out := Capture.ofChunks c.maxOutputBytes (chunks.map (·.2))
    let stdout := (chunks.map (·.2)).flatten
    let r := diagnose (runtimeOf s c l) scratch code out err
    Yields (· = out) (readStream (runtimeOf s c l).maxOutputBytes ending chunks {} :
        Action ω Capture) ∧
      (r.status = .success ∧
          Silent c.maxReplyChars (text l.name) r retryAfterMs (Utf8.decodeLossy stdout) ↔
        code = 0 ∧ c.maxOutputBytes < stdout.length ∧
          Text.isBlankText (Utf8.decodeLossy (stdout.take c.maxOutputBytes.toNat)) = true ∧
          Text.isBlankText (Utf8.decodeLossy stdout) = false) := by
  intro out stdout r
  have hkeeps : out.Keeps c.maxOutputBytes stdout := Capture.keeps_ofChunks _ _
  refine ⟨yields_readStream c.maxOutputBytes ending chunks {}, ?_⟩
  rw [status_diagnose_eq_success_iff]
  refine and_congr_right fun hcode => ?_
  have hr : r = diagnose (runtimeOf s c l) scratch 0 out err := by rw [← hcode]
  rw [diagnose_of_zero] at hr
  rw [silent_iff (by rw [hr]) (by
    intro hwhole
    rw [hr] at hwhole ⊢
    rw [hkeeps.data_eq hwhole])]
  rw [Ne, Text.strip_eq_nil_iff, Text.strip_eq_nil_iff, Bool.not_eq_true, hr, hkeeps.truncated,
    hkeeps.data]
  constructor
  · rintro ⟨⟨-, hlong⟩, hblank, hlost⟩
    exact ⟨hlong, hblank, hlost⟩
  · rintro ⟨hlong, hblank, hlost⟩
    refine ⟨⟨?_, hlong⟩, hblank, hlost⟩
    intro hnil
    rw [hnil] at hblank hlost
    rw [List.take_nil, hlost] at hblank
    cases hblank

/-- **Output lost without a word.**  A script writes 256 blanks and a letter, and 256 bytes are
kept: there is no reply. -/
theorem blank_beginning_silent :
    ∃ c, Config.check (.obj [(text "max_output_bytes", .int 256)]) = .ok c ∧
      let out := Capture.ofChunks c.maxOutputBytes [List.replicate 256 32 ++ [120]]
      let r := diagnose (runtimeOf { goCacheDir := default } c .python) default 0 out {}
      r.status = .success ∧ r.truncated = true ∧
        ofResult c.maxReplyChars (text "python") r 0 = none ∧
        Text.strip (Utf8.decodeLossy (List.replicate 256 32 ++ [120])) = [120] := by
  refine ⟨_, rfl, ?_⟩
  decide +kernel

end ChatCommands.Reply
