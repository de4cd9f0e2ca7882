import ChatCommands.Proofs.Sandbox.Capture
import ChatCommands.Proofs.Text.Cutting
import ChatCommands.Sandbox.Standard

/-!
What is shown of a script's output.

The output is cut in bytes as it is read and decoded afterwards.  Where the cut goes through a code
point, the output that is shown ends with U+FFFD, which the script has not written.
-/

namespace ChatCommands.Sandbox

open Concurrency Act

theorem output_diagnose (r : Runtime) (scratch : Host.Path) (code : Int) (out err : Capture) :
    (diagnose r scratch code out err).output = Utf8.decodeLossy out.data := by
  unfold diagnose
  split
  · rfl
  · rfl

/-- **What is shown of the output** of a script that writes well-formed text, whatever the chunks
are in which it comes and however the script ends: as much of the beginning as there is room for, and
U+FFFD for a code point that is cut.  It is a beginning of what was written unless a code point other
than U+FFFD is cut, that is, unless there is room for a part of it only. -/
theorem output_beginning_iff {ω : Type} (r : Runtime) (scratch : Host.Path)
    (chunks : List (Rat × Bytes)) (ending : Option Rat) (err : Capture) (code : Int) {whole : Text}
    (hvalid : Utf8.decode (chunks.map (·.2)).flatten = .ok whole) :
    let out := Capture.ofChunks r.maxOutputBytes (chunks.map (·.2))
    let limit := r.maxOutputBytes.toNat
    let output := (diagnose r scratch code out err).output
    let shown := Utf8.fitting limit whole
    Yields (· = out) (readStream r.maxOutputBytes ending chunks {} : Action ω Capture) ∧
      output = shown ++ (Utf8.cutPoint? limit whole).toList.map (fun _ => 0xFFFD) ∧
      (output <+: whole ↔ ¬ ∃ c lost, whole = shown ++ c :: lost ∧ c ≠ 0xFFFD ∧
        Utf8.size shown < limit ∧ limit < Utf8.size shown + Utf8.pointSize c) := by
  intro out limit output shown
  have hkeeps : out.Keeps r.maxOutputBytes (chunks.map (·.2)).flatten := Capture.keeps_ofChunks _ _
  have houtput : output = Utf8.decodeLossy ((chunks.map (·.2)).flatten.take limit) := by
    rw [← hkeeps.data]
    exact output_diagnose r scratch code out err
  refine ⟨yields_readStream r.maxOutputBytes ending chunks {}, ?_, ?_⟩
  · rw [houtput]
    exact Utf8.decodeLossy_take hvalid limit
  · rw [houtput, Utf8.decodeLossy_take_isPrefix_iff hvalid]
    constructor
    · rintro hcut ⟨c, lost, hwhole, hc, hroom, hlarge⟩
      exact hc (hcut c (Utf8.cutPoint?_eq_some_iff.mpr ⟨lost, hwhole, hroom, hlarge⟩))
    · intro hnone c hcut
      obtain ⟨lost, hwhole, hroom, hlarge⟩ := Utf8.cutPoint?_eq_some_iff.mp hcut
      by_contra hc
      exact hnone ⟨c, lost, hwhole, hc, hroom, hlarge⟩

theorem decode_of_toOption {bs : Bytes} {t : Text} (h : (Utf8.decode bs).toOption = some t) :
    Utf8.decode bs = .ok t := by
  cases hdecoded : Utf8.decode bs with
  | error e =>
    rw [hdecoded] at h
    cases h
  | ok u =>
    rw [hdecoded] at h
    exact congrArg Except.ok (Option.some.inj h)

/-- A letter, an é that comes in two chunks, and another letter, for which there is no room. -/
theorem output_beginning_iff_whole :
    let r := { runtimeOf { goCacheDir := default } {} .python with maxOutputBytes := 3 }
    let chunks : List (Rat × Bytes) := [(0, [97, 0xC3]), (1, [0xA9, 98])]
    Utf8.decode (chunks.map (·.2)).flatten = .ok [97, 0xE9, 98] ∧
      (diagnose r default 0 (Capture.ofChunks 3 (chunks.map (·.2))) {}).output = [97, 0xE9] ∧
      [97, 0xE9] <+: [97, 0xE9, 98] := by
  intro r chunks
  have hvalid : Utf8.decode (chunks.map (·.2)).flatten = .ok [97, 0xE9, 98] :=
    decode_of_toOption (by decide +kernel)
  obtain ⟨-, houtput, -⟩ := output_beginning_iff (ω := Unit) r default chunks none {} 0 hvalid
  exact ⟨hvalid, houtput, by decide⟩

/-- **Output that was not written.**  Of 255 letters and an é 256 bytes are kept: what is shown ends
with U+FFFD, and so it is no beginning of the text. -/
theorem accented_output_cut :
    ∃ c, Config.check (.obj [(text "max_output_bytes", .int 256)]) = .ok c ∧
      let stdout := List.replicate 255 120 ++ [0xC3, 0xA9]
      let whole := List.replicate 255 120 ++ [0xE9]
      let out := Capture.ofChunks c.maxOutputBytes [stdout]
      let output := (diagnose (runtimeOf { goCacheDir := default } c .python) default 0 out {}).output
      Utf8.decode stdout = .ok whole ∧ output = List.replicate 255 120 ++ [0xFFFD] ∧
        ¬ output <+: whole := by
  refine ⟨_, rfl, decode_of_toOption ?_, ?_⟩
  · decide +kernel
  · decide +kernel

end ChatCommands.Sandbox
