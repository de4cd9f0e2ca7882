import ChatCommands.Proofs.Text.Ascii
import ChatCommands.Proofs.Text.Lines
import ChatCommands.Sandbox.Diagnosis

/-!
Excerpts of a script's diagnostics.

An excerpt is bounded, none of its lines is blank, and it shows neither the scratch directory nor the
script.  The placeholder that is put in the place of a path begins with a character that no path has,
and none of its characters begins a path; so no occurrence of a path comes up where the placeholder was
put in, and none where lines are joined or dots are put at the end.  Main statement: `excerpt_hides`.
-/

namespace ChatCommands

open Text

/-! ### Replacing a path -/

namespace Text

variable {needle replacement q t : Text}

theorem dropStart?_append (start t : Text) : dropStart? start (start ++ t) = some t := by
  induction start with
  | nil => cases t <;> rfl
  | cons c start ih => simpa [dropStart?] using ih

/-- The beginning of a text with replacements in it, up to the first of them, stood in the text. -/
theorem prefix_of_prefix_replaceAll (hsome : replacement ≠ [])
    (hq : ∀ c ∈ q, replacement.head? ≠ some c) (h : q <+: replaceAll needle replacement t) :
    q <+: t := by
  fun_induction replaceAll needle replacement t generalizing q with
  | case1 t => exact h
  | case2 => exact h
  | case3 n ns c rest after _ ih =>
    cases q with
    | nil => exact List.nil_prefix
    | cons d q =>
      cases replacement with
      | nil => exact absurd rfl hsome
      | cons e replacement =>
        obtain ⟨rfl, -⟩ := List.cons_prefix_cons.mp h
        exact absurd rfl (hq d List.mem_cons_self)
  | case4 n ns c rest _ ih =>
    cases q with
    | nil => exact List.nil_prefix
    | cons d q =>
      obtain ⟨rfl, hrest⟩ := List.cons_prefix_cons.mp h
      rw [List.cons_prefix_cons]
      exact ⟨rfl, ih (fun e he => hq e (List.mem_cons_of_mem d he)) hrest⟩

/-- **What was replaced is gone**, if the replacement begins with nothing that is in it and has in it
nothing with which it begins. -/
theorem not_infix_replaceAll (hneedle : needle ≠ []) (hsome : replacement ≠ [])
    (hfree : ∀ c ∈ needle, replacement.head? ≠ some c)
    (hstart : ∀ c, needle.head? = some c → c ∉ replacement) :
    ¬ needle <:+: replaceAll needle replacement t := by
  fun_induction replaceAll needle replacement t with
  | case1 t => exact absurd rfl hneedle
  | case2 => exact fun h => hneedle (List.infix_nil.mp h)
  | case3 n ns c rest after _ ih =>
    intro h
    rcases List.infix_append_iff.mp h with h | h | ⟨p₁, p₂, heq, h₁, h₂⟩
    · exact hstart n rfl (h.mem List.mem_cons_self)
    · exact ih hneedle hfree hstart h
    · cases p₁ with
      | nil =>
        rw [List.nil_append] at heq
        rw [← heq] at h₂
        exact ih hneedle hfree hstart h₂.isInfix
      | cons d p₁ =>
        obtain ⟨rfl, -⟩ := List.cons.inj heq
        exact hstart n rfl (h₁.mem List.mem_cons_self)
  | case4 n ns c rest hnone ih =>
    intro h
    rcases List.infix_cons_iff.mp h with h | h
    · obtain ⟨rfl, htail⟩ := List.cons_prefix_cons.mp h
      have hrest : ns <+: rest :=
        prefix_of_prefix_replaceAll hsome (fun e he => hfree e (List.mem_cons_of_mem n he)) htail
      obtain ⟨after, rfl⟩ := hrest
      have hfound := dropStart?_append (n :: ns) after
      rw [List.cons_append, hnone] at hfound
      cases hfound
    · exact ih hneedle hfree hstart h

end Text

/-! ### Paths that can be hidden -/

namespace Host.Path

/-- An absolute path that does not end in a dot, and in which neither the beginning of the placeholder
nor a line feed occurs. -/
structure Hideable (p : Path) : Prop where
  absolute : p.root = [separator] ∨ p.root = [separator, separator]
  plain : ∀ c ∈ p.toText, c ≠ 60 ∧ c ≠ 10
  ending : p.toText.getLast? ≠ some 46

variable {p : Path}

theorem toText_of_root (h : p.root ≠ []) : p.toText = p.root ++ join [separator] p.names := by
  simp [toText, h]

theorem Hideable.root_ne_nil (h : p.Hideable) : p.root ≠ [] := by
  rcases h.absolute with heq | heq <;> simp [heq]

/-- An absolute path begins with a separator. -/
theorem Hideable.head?_toText (h : p.Hideable) : p.toText.head? = some separator := by
  rw [toText_of_root h.root_ne_nil]
  rcases h.absolute with heq | heq <;> simp [heq]

theorem Hideable.toText_ne_nil (h : p.Hideable) : p.toText ≠ [] := by
  intro hnil
  have hhead := h.head?_toText
  rw [hnil] at hhead
  cases hhead

/-- A directory is written at the beginning of the paths in it. -/
theorem toText_prefix_child (h : p.root ≠ []) (name : Text) :
    p.toText <+: (p.child name).toText := by
  have hchild : (p.child name).toText = p.root ++ join [separator] (p.names ++ [name]) :=
    toText_of_root h
  rw [toText_of_root h, hchild, List.prefix_append_right_inj]
  exact join_prefix_concat [separator] name p.names

end Host.Path

/-! ### Excerpts -/

namespace Sandbox

open Host

variable {r : Runtime} {scratch : Path} {stderr : Bytes} {l : Text}

/-- **After the paths were replaced the scratch directory does not occur.** -/
theorem not_infix_hidePaths (h : scratch.Hideable) (t : Text) :
    ¬ scratch.toText <:+: hidePaths r scratch t := by
  -- the directory itself is the last of the paths to be replaced
  refine not_infix_replaceAll h.toText_ne_nil (by decide) ?_ ?_
  · intro c hc hhead
    have hfirst : scriptPlaceholder.head? = some 60 := by decide
    rw [hfirst, Option.some.injEq] at hhead
    exact (h.plain c hc).1 hhead.symm
  · intro c hc
    rw [h.head?_toText, Option.some.injEq] at hc
    subst hc
    decide

theorem mem_tellingLines : l ∈ tellingLines r scratch stderr ↔
    ∃ line ∈ lines (hidePaths r scratch (Utf8.decodeLossy stderr)),
      isBlankText line = false ∧ ¬ (r.language = .go ∧ Runtime.isNoise (stripEnd line) = true) ∧
        l = stripEnd line := by
  have hnoise : ∀ lang (ls : List Text), l ∈ Runtime.withoutNoise lang ls ↔
      l ∈ ls ∧ ¬ (lang = .go ∧ Runtime.isNoise l = true) := by
    intro lang ls
    cases lang <;> simp [Runtime.withoutNoise]
  rw [tellingLines, hnoise, List.mem_map]
  constructor
  · rintro ⟨⟨line, hline, rfl⟩, hno⟩
    rw [List.mem_filter, Bool.not_eq_true'] at hline
    exact ⟨line, hline.1, hline.2, hno, rfl⟩
  · rintro ⟨line, hline, hblank, hno, rfl⟩
    refine ⟨⟨line, ?_, rfl⟩, hno⟩
    rw [List.mem_filter, Bool.not_eq_true']
    exact ⟨hline, hblank⟩

/-- There is no excerpt just if each line is blank or is one that the toolchain writes about itself. -/
theorem excerpt?_eq_none_iff : excerpt? r scratch stderr = none ↔
    ∀ line ∈ lines (hidePaths r scratch (Utf8.decodeLossy stderr)),
      isBlankText line = true ∨ r.language = .go ∧ Runtime.isNoise (stripEnd line) = true := by
  have hnone : excerpt? r scratch stderr = none ↔ tellingLines r scratch stderr = [] := by
    unfold excerpt?
    split <;> simp_all
  rw [hnone, List.eq_nil_iff_forall_not_mem]
  constructor
  · intro h line hline
    by_contra hno
    rw [not_or, Bool.not_eq_true] at hno
    exact h (stripEnd line) (mem_tellingLines.mpr ⟨line, hline, hno.1, hno.2, rfl⟩)
  · rintro h l hl
    obtain ⟨line, hline, hblank, hno, -⟩ := mem_tellingLines.mp hl
    rcases h line hline with hyes | hyes
    · rw [hblank] at hyes
      cases hyes
    · exact hno hyes

/-- Each line of an excerpt ends in something that is not blank. -/
theorem tellingLine_solid (hl : l ∈ tellingLines r scratch stderr) : SolidLine l := by
  obtain ⟨line, hline, hblank, -, rfl⟩ := mem_tellingLines.mp hl
  refine ⟨stripEnd_ne_nil hblank, ?_, fun c => stripEnd_ending⟩
  intro c hc
  exact not_break_of_mem_lines hline c ((prefix_of_stripEnd line).mem hc)

/-- The scratch directory does not occur in the lines, whether they are joined or not. -/
theorem not_infix_joined (h : scratch.Hideable) :
    ¬ scratch.toText <:+: join [10] (tellingLines r scratch stderr) := by
  intro hin
  have hfeed : 10 ∉ scratch.toText := fun hmem => (h.plain 10 hmem).2 rfl
  obtain ⟨l, hl, hin⟩ := infix_of_infix_join h.toText_ne_nil hfeed hin
  obtain ⟨line, hline, -, -, rfl⟩ := mem_tellingLines.mp hl
  have hline' : scratch.toText <:+: line := hin.trans (prefix_of_stripEnd line).isInfix
  exact not_infix_hidePaths h _ (hline'.trans (infix_of_mem_lines hline))

/-- What the limit leaves of a text: all of it, or its beginning and three dots. -/
theorem shortened_cases {n : Int} (hn : 3 ≤ n) (t : Text) :
    ((t.length : Int) ≤ n ∧ shortened n t = t) ∨
      (n < t.length ∧ ∃ p, p <+: t ∧ (p.length : Int) = n - 3 ∧
        shortened n t = stripEnd p ++ List.replicate 3 46) := by
  unfold shortened
  split
  · rename_i hlong
    refine .inr ⟨hlong, upTo (n - 3) t, ?_, ?_, by rw [show text "..." = List.replicate 3 46 by decide]⟩
    · rw [upTo, if_pos (by omega)]
      exact List.take_prefix _ _
    · rw [upTo, if_pos (by omega), List.length_take]
      omega
  · rename_i hshort
    exact .inl ⟨by omega, rfl⟩

/-- **An excerpt is bounded and hides where the script was.**  There is none just if no line is left
that tells anything.  Otherwise it has at most as many code points as allowed, neither the scratch
directory nor the script occurs in it, none of its lines is blank, and it is all the lines that are
left, or, if these are too long, their beginning without blanks at its end and three dots. -/
theorem excerpt_hides (hlimit : 3 ≤ r.maxExcerptChars) (hpath : scratch.Hideable) (stderr : Bytes) :
    (excerpt? r scratch stderr = none ↔
      ∀ line ∈ lines (hidePaths r scratch (Utf8.decodeLossy stderr)),
        isBlankText line = true ∨ r.language = .go ∧ Runtime.isNoise (stripEnd line) = true) ∧
    ∀ e, excerpt? r scratch stderr = some e →
      (e.length : Int) ≤ r.maxExcerptChars ∧
      ¬ scratch.toText <:+: e ∧ ¬ (scratch.child r.language.scriptName).toText <:+: e ∧
      (∀ line ∈ lines e, isBlankText line = false) ∧
      let whole := join [10] (tellingLines r scratch stderr)
      ((whole.length : Int) ≤ r.maxExcerptChars ∧ e = whole) ∨
        (r.maxExcerptChars < whole.length ∧ ∃ p, p <+: whole ∧
          (p.length : Int) = r.maxExcerptChars - 3 ∧ e = stripEnd p ++ text "...") := by
  refine ⟨excerpt?_eq_none_iff, ?_⟩
  intro e he
  have hjoined : e = shortened r.maxExcerptChars (join [10] (tellingLines r scratch stderr)) := by
    unfold excerpt? at he
    split at he
    · cases he
    · exact (Option.some.inj he).symm
  obtain ⟨hfirm, hend⟩ :=
    firm_join fun l (hl : l ∈ tellingLines r scratch stderr) => tellingLine_solid hl
  have hhidden : ¬ scratch.toText <:+: join [10] (tellingLines r scratch stderr) :=
    not_infix_joined hpath
  have hscript : ∀ t : Text, ¬ scratch.toText <:+: t →
      ¬ (scratch.child r.language.scriptName).toText <:+: t := by
    intro t hno hin
    exact hno ((Path.toText_prefix_child hpath.root_ne_nil _).isInfix.trans hin)
  have hdots : text "..." = List.replicate 3 46 := by decide
  rcases shortened_cases hlimit (join [10] (tellingLines r scratch stderr)) with
    ⟨hfits, heq⟩ | ⟨hlong, p, hp, hlength, heq⟩
  · rw [heq] at hjoined
    subst hjoined
    exact ⟨hfits, hhidden, hscript _ hhidden, fun line => hfirm.not_blank_of_mem_lines hend,
      .inl ⟨hfits, rfl⟩⟩
  · rw [heq] at hjoined
    subst hjoined
    have hstripped : stripEnd p <+: join [10] (tellingLines r scratch stderr) :=
      (prefix_of_stripEnd p).trans hp
    have hno : ¬ scratch.toText <:+: stripEnd p ++ List.replicate 3 46 := by
      intro hin
      have hin' := infix_of_infix_append_replicate hpath.toText_ne_nil hpath.ending hin
      exact hhidden (hin'.trans hstripped.isInfix)
    refine ⟨?_, hno, hscript _ hno, ?_, .inr ⟨hlong, p, hp, hlength, by rw [hdots]⟩⟩
    · have hle := (prefix_of_stripEnd p).length_le
      rw [List.length_append, List.length_replicate]
      omega
    · intro line hline
      refine ((hfirm.of_prefix hstripped).append ?_).not_blank_of_mem_lines ?_ hline
      · intro c hc
        rw [List.eq_of_mem_replicate hc]
        decide
      · intro c hc
        rw [List.getLast?_append_of_ne_nil _ (by simp), ← hdots] at hc
        obtain rfl : c = 46 := by simpa [text] using hc.symm
        decide

/-- A crash of a program, with the place where it came about in a line of its own. -/
theorem excerpt_hides_crash :
    let r : Runtime := { language := .go, binary := text "go", maxExcerptChars := 20 }
    let scratch := Path.ofText (text "/tmp/s")
    let stderr := (text "panic: boom\n\n\t/tmp/s/main.go:3\nexit status 2\n").map Nat.toUInt8
    3 ≤ r.maxExcerptChars ∧ scratch.Hideable ∧
      excerpt? r scratch stderr = some (text "panic: boom\n\t<scr...") ∧
      ¬ scratch.toText <:+: text "panic: boom\n\t<scr..." ∧
      ∀ line ∈ lines (text "panic: boom\n\t<scr..."), isBlankText line = false := by
  intro r scratch stderr
  have hlimit : 3 ≤ r.maxExcerptChars := by decide
  have hpath : scratch.Hideable := ⟨by decide, by decide, by decide⟩
  have hsome : excerpt? r scratch stderr = some (text "panic: boom\n\t<scr...") := by
    decide +kernel
  obtain ⟨-, hhidden, -, hlines, -⟩ := (excerpt_hides hlimit hpath stderr).2 _ hsome
  exact ⟨hlimit, hpath, hsome, hhidden, hlines⟩

end Sandbox

end ChatCommands
