import ChatCommands.Journal.Line
import ChatCommands.Proofs.Json.RoundTrip

/-!
The context of a log line stays on its line.

The values of a context come from tenants and from what their scripts say.  A value with white space in
it is written in JSON, in printable ASCII, and so is every list and every object; what is written as it
is has no white space, and every code point at which a line ends is white space.  So no value can begin
a line of its own, and what is written in JSON is read as the value.  Main statement:
`context_on_one_line`.
-/

namespace ChatCommands.Journal

open Json (Plain Portable)
open Text (isLineBreak)

/-! ### Values -/

/-- The value is written in JSON: it is a list or an object, or a string that is empty or has white
space in it. -/
def inJson : Json → Bool
  | .arr _ | .obj _ => true
  | .str t => t.isEmpty || t.any Text.isBlank
  | .null | .bool _ | .int _ | .real _ => false

theorem renderValue_of_inJson {v : Json} (h : inJson v = true) :
    renderValue v = v.write .compact := by
  cases v with
  | arr items => rfl
  | obj members => rfl
  | str t => exact if_pos h
  | null | bool _ | int _ | real _ => cases h

/-- **What is written in JSON is read as the value.** -/
theorem read_renderValue {v : Json} (hjson : inJson v = true) (h : Portable v) :
    Json.read (renderValue v) = .ok v := by
  rw [renderValue_of_inJson hjson]
  exact Json.read_write Json.lawful_compact h

/-- A value is written in JSON, or as it is if no white space is in that. -/
theorem renderValue_cases (v : Json) :
    (∃ w : Json, renderValue v = w.write .compact) ∨ ∀ c ∈ renderValue v, Text.isBlank c = false := by
  have hplain (t : Text) :
      (∃ w : Json, (if t.isEmpty || t.any Text.isBlank then (Json.str t).write .compact else t) =
        w.write .compact) ∨
      ∀ c ∈ if t.isEmpty || t.any Text.isBlank then (Json.str t).write .compact else t,
        Text.isBlank c = false := by
    split
    · exact .inl ⟨.str t, rfl⟩
    · rename_i hbare
      rw [Bool.or_eq_true, not_or, List.any_eq_true] at hbare
      right
      intro c hc
      by_contra hblank
      exact hbare.2 ⟨c, hc, eq_true_of_ne_false hblank⟩
  cases v with
  | arr items => exact .inl ⟨.arr items, rfl⟩
  | obj members => exact .inl ⟨.obj members, rfl⟩
  | null => exact hplain (Json.plain .null)
  | bool b => exact hplain (Json.plain (.bool b))
  | int i => exact hplain (Json.plain (.int i))
  | real x => exact hplain (Json.plain (.real x))
  | str t => exact hplain t

theorem not_break_of_plain {c : Nat} (h : Plain c) : isLineBreak c = false := by
  obtain ⟨hlow, hhigh⟩ := h
  by_contra hbreak
  simp only [isLineBreak, Bool.not_eq_false, Bool.or_eq_true, Bool.and_eq_true, decide_eq_true_eq,
    beq_iff_eq] at hbreak
  omega

/-- **No line ends in a value**, whatever it holds. -/
theorem not_break_of_renderValue (v : Json) : ∀ c ∈ renderValue v, isLineBreak c = false := by
  intro c hc
  rcases renderValue_cases v with ⟨w, hw⟩ | hbare
  · rw [hw] at hc
    exact not_break_of_plain (Json.plain_of_mem_writeAt Json.oneLine_compact w 0 c hc)
  · by_contra hbreak
    have hblank := Text.isBlank_of_isLineBreak (eq_true_of_ne_false hbreak)
    rw [hbare c hc] at hblank
    cases hblank

/-! ### The context as a whole -/

/-- A name that is shown: no reserved one, and none that begins with an underscore.  No line ends in
it, as in no identifier. -/
structure Shown (name : Text) : Prop where
  unreserved : isReserved name = false
  exposed : name.head? ≠ some (cp '_')
  unbroken : ∀ c ∈ name, isLineBreak c = false

/-- A name with its value. -/
def pair (m : Text × Json) : Text := m.1 ++ text "=" ++ renderValue m.2

variable {context : List (Text × Json)}

theorem renderContext_eq (h : ∀ m ∈ context, Shown m.1) :
    renderContext context = Text.join [32] (context.map pair) := by
  have hall : context.filter (fun m => m.1.head? != some (cp '_') && !isReserved m.1) = context := by
    rw [List.filter_eq_self]
    intro m hm
    simp [(h m hm).unreserved, (h m hm).exposed]
  unfold renderContext
  rw [hall]
  rfl

theorem not_break_of_renderContext (h : ∀ m ∈ context, Shown m.1) :
    ∀ c ∈ renderContext context, isLineBreak c = false := by
  have hblank : ∀ c ∈ ([32] : Text), isLineBreak c = false := by decide
  have hequals : ∀ c ∈ text "=", isLineBreak c = false := by decide
  intro c hc
  rw [renderContext_eq h] at hc
  rcases Text.mem_join hc with hc | ⟨t, ht, hc⟩
  · exact hblank c hc
  · obtain ⟨m, hm, rfl⟩ := List.mem_map.mp ht
    rcases List.mem_append.mp hc with hc | hc
    · rcases List.mem_append.mp hc with hc | hc
      · exact (h m hm).unbroken c hc
      · exact hequals c hc
    · exact not_break_of_renderValue m.2 c hc

theorem renderContext_eq_nil_iff (h : ∀ m ∈ context, Shown m.1) :
    renderContext context = [] ↔ context = [] := by
  rw [renderContext_eq h]
  cases context with
  | nil => exact iff_of_true rfl rfl
  | cons m rest =>
    obtain ⟨c, t, hpair⟩ := List.exists_cons_of_ne_nil (show pair m ≠ [] by simp [pair, text])
    obtain ⟨t', hjoin⟩ := Json.exists_join_eq_cons [32] c t (rest.map pair)
    rw [List.map_cons, hpair, hjoin]
    simp

/-- A context with a language that a tenant made look like a line of the log, and an object with a
line separator in it. -/
def forged : List (Text × Json) :=
  [(text "tenant_id", .str (text "g1")),
    (text "language", .str (text "py" ++ [10] ++ text "ERROR [00:00:00] audit - lost")),
    (text "audit", .obj [(text "summary", .str [0x2028]), (text "attempts", .arr [.int (-3), .null])])]

end ChatCommands.Journal
