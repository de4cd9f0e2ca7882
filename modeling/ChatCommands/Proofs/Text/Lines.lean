import ChatCommands.Text.Blank
import Mathlib.Data.List.DropRight

/-!
The lines of a text, and texts made of lines.

Cutting a text into lines takes the line ends out and changes nothing else.  A text is firm if each of
its lines ends in something that is not blank, so that none of them is blank; cutting a firm text off
anywhere and stripping its end leaves it firm.
-/

namespace ChatCommands.Text

/-! ### Cutting into lines -/

/-- Texts are cut at the line ends of two code points and at all other code points. -/
@[elab_as_elim]
theorem lineEnd_induction {P : Text → Prop} (nil : P [])
    (pair : ∀ rest, P rest → P (13 :: 10 :: rest))
    (point : ∀ c rest, (c = 13 → rest.head? ≠ some 10) → P rest → P (c :: rest)) (t : Text) :
    P t := by
  fun_induction unifyLineEnds t with
  | case1 => exact nil
  | case2 rest ih => exact pair rest ih
  | case3 c rest hlone ih =>
    refine point c rest (fun hc hhead => ?_) ih
    obtain ⟨tail, rfl⟩ := List.head?_eq_some_iff.mp hhead
    exact hlone tail hc rfl

theorem infix_of_mem_go {line t l : Text} (h : l ∈ lines.go line t) : l <:+: line.reverse ++ t := by
  fun_induction lines.go line t with
  | case1 => cases h
  | case2 line hsome =>
    rcases List.mem_singleton.mp h with rfl
    exact List.infix_append' [] _ _
  | case3 line rest ih =>
    rcases List.mem_cons.mp h with rfl | h
    · exact (List.prefix_append _ _).isInfix
    · exact (ih h).trans ⟨line.reverse ++ [13, 10], [], by simp⟩
  | case4 line c rest _ hbreak ih =>
    rcases List.mem_cons.mp h with rfl | h
    · exact (List.prefix_append _ _).isInfix
    · exact (ih h).trans ⟨line.reverse ++ [c], [], by simp⟩
  | case5 line c rest _ hno ih => simpa using ih h

/-- Each line stands in the text as it is. -/
theorem infix_of_mem_lines {t l : Text} (h : l ∈ lines t) : l <:+: t :=
  infix_of_mem_go h

theorem not_break_of_mem_go {line t l : Text} (h : l ∈ lines.go line t)
    (hline : ∀ c ∈ line, isLineBreak c = false) : ∀ c ∈ l, isLineBreak c = false := by
  fun_induction lines.go line t with
  | case1 => cases h
  | case2 line hsome =>
    rcases List.mem_singleton.mp h with rfl
    simpa using hline
  | case3 line rest ih =>
    rcases List.mem_cons.mp h with rfl | h
    · simpa using hline
    · exact ih h (by simp)
  | case4 line c rest _ hbreak ih =>
    rcases List.mem_cons.mp h with rfl | h
    · simpa using hline
    · exact ih h (by simp)
  | case5 line c rest _ hno ih =>
    apply ih h
    intro d hd
    rcases List.mem_cons.mp hd with rfl | hd
    · simpa using hno
    · exact hline d hd

/-- No line holds a line break. -/
theorem not_break_of_mem_lines {t l : Text} (h : l ∈ lines t) : ∀ c ∈ l, isLineBreak c = false :=
  not_break_of_mem_go h (by simp)

/-! ### Putting lines together -/

theorem join_cons {sep l : Text} {ls : List Text} (h : ls ≠ []) :
    join sep (l :: ls) = l ++ sep ++ join sep ls :=
  List.intercalate_cons_of_ne_nil h

theorem mem_join {sep : Text} {ls : List Text} {c : Nat} (h : c ∈ join sep ls) :
    c ∈ sep ∨ ∃ l ∈ ls, c ∈ l := by
  induction ls with
  | nil => cases h
  | cons l ls ih =>
    by_cases hnil : ls = []
    · subst hnil
      rw [join, List.intercalate_singleton] at h
      exact .inr ⟨l, List.mem_cons_self, h⟩
    · rw [join_cons hnil, List.mem_append, List.mem_append] at h
      rcases h with (h | h) | h
      · exact .inr ⟨l, List.mem_cons_self, h⟩
      · exact .inl h
      · refine (ih h).imp_right fun ⟨l', hl', hc⟩ => ⟨l', List.mem_cons_of_mem l hl', hc⟩

theorem join_prefix_concat (sep l : Text) (ls : List Text) :
    join sep ls <+: join sep (ls ++ [l]) := by
  induction ls with
  | nil => exact List.nil_prefix
  | cons l₁ ls ih =>
    cases ls with
    | nil =>
      rw [List.cons_append, List.nil_append, join_cons (List.cons_ne_nil l []), join,
        List.intercalate_singleton, List.append_assoc]
      exact List.prefix_append l₁ _
    | cons l₂ ls =>
      rw [List.cons_append, List.cons_append, join_cons (List.cons_ne_nil l₂ ls),
        join_cons (List.cons_ne_nil l₂ _), List.prefix_append_right_inj]
      exact ih

/-- What holds no line feed and stands in a text made of lines stands in one of the lines. -/
theorem infix_of_infix_join {p : Text} {ls : List Text} (hp : p ≠ []) (hfeed : 10 ∉ p)
    (h : p <:+: join [10] ls) : ∃ l ∈ ls, p <:+: l := by
  induction ls with
  | nil => exact absurd (List.infix_nil.mp h) hp
  | cons l ls ih =>
    by_cases hls : ls = []
    · subst hls
      rw [join, List.intercalate_singleton] at h
      exact ⟨l, List.mem_cons_self, h⟩
    · rw [join_cons hls, List.append_assoc, List.infix_append_iff] at h
      rcases h with h | h | ⟨p₁, p₂, rfl, h₁, h₂⟩
      · exact ⟨l, List.mem_cons_self, h⟩
      · have hrest : p <:+: join [10] ls := by
          rcases List.infix_cons_iff.mp h with h | h
          · -- an occurrence that begins with the line feed
            cases p with
            | nil => exact absurd rfl hp
            | cons c p =>
              obtain ⟨rfl, -⟩ := List.cons_prefix_cons.mp h
              exact absurd List.mem_cons_self hfeed
          · exact h
        obtain ⟨l', hl', hin⟩ := ih hrest
        exact ⟨l', List.mem_cons_of_mem l hl', hin⟩
      · -- an occurrence over the end of the first line
        cases p₂ with
        | nil =>
          rw [List.append_nil]
          exact ⟨l, List.mem_cons_self, h₁.isInfix⟩
        | cons c p₂ =>
          obtain ⟨rfl, -⟩ := List.cons_prefix_cons.mp h₂
          exact absurd (List.mem_append_right p₁ List.mem_cons_self) hfeed

/-- What does not end in `c` and stands in a text with some `c` put at its end stands in the text. -/
theorem infix_of_infix_append_replicate {p t : Text} {c n : Nat} (hp : p ≠ [])
    (hend : p.getLast? ≠ some c) (h : p <:+: t ++ List.replicate n c) : p <:+: t := by
  have hlast : ∀ q : Text, q ≠ [] → q <:+: List.replicate n c → q.getLast? = some c := by
    intro q hq hin
    have hmem := hin.mem (List.getLast_mem hq)
    rw [List.getLast?_eq_some_getLast hq, List.eq_of_mem_replicate hmem]
  rcases List.infix_append_iff.mp h with h | h | ⟨p₁, p₂, rfl, h₁, h₂⟩
  · exact h
  · exact absurd (hlast p hp h) hend
  · cases p₂ with
    | nil =>
      rw [List.append_nil]
      exact h₁.isInfix
    | cons d p₂ =>
      refine absurd ?_ hend
      rw [List.getLast?_append_of_ne_nil _ (List.cons_ne_nil d p₂)]
      exact hlast _ (List.cons_ne_nil d p₂) h₂.isInfix

/-! ### Stripping the end -/

theorem prefix_of_stripEnd (t : Text) : stripEnd t <+: t :=
  List.rdropWhile_prefix isBlank t

theorem stripEnd_ending {t : Text} {c : Nat} (h : (stripEnd t).getLast? = some c) :
    isBlank c = false := by
  have hsome : stripEnd t ≠ [] := by
    intro hnil
    simp [hnil] at h
  have hlast := List.rdropWhile_last_not isBlank t hsome
  rw [List.getLast?_eq_some_getLast hsome, Option.some.injEq] at h
  subst h
  exact Bool.eq_false_iff.mpr hlast

/-- What is not blank does not strip to nothing. -/
theorem stripEnd_ne_nil {t : Text} (h : isBlankText t = false) : stripEnd t ≠ [] := by
  intro hnil
  have hall : ∀ c ∈ t, isBlank c = true := List.rdropWhile_eq_nil_iff.mp hnil
  rw [isBlankText, List.all_eq_true.mpr hall] at h
  cases h

/-! ### Firm texts -/

/-- Each line break of the text is a line feed right behind something that is not blank; `solid` tells
whether there is such a thing right before the text. -/
def Firm (solid : Bool) : Text → Prop
  | [] => True
  | c :: t => (isLineBreak c = true → c = 10 ∧ solid = true) ∧ Firm (!isBlank c) t

theorem Firm.of_prefix {p t : Text} {solid : Bool} (h : Firm solid t) (hp : p <+: t) :
    Firm solid p := by
  induction p generalizing solid t with
  | nil => trivial
  | cons c p ih =>
    cases t with
    | nil => simp at hp
    | cons d t =>
      obtain ⟨rfl, hrest⟩ := List.cons_prefix_cons.mp hp
      exact ⟨h.1, ih h.2 hrest⟩

theorem firm_of_not_break {t : Text} (h : ∀ c ∈ t, isLineBreak c = false) (solid : Bool) :
    Firm solid t := by
  induction t generalizing solid with
  | nil => trivial
  | cons c t ih =>
    constructor
    · intro hbreak
      rw [h c List.mem_cons_self] at hbreak
      cases hbreak
    · exact ih (fun d hd => h d (List.mem_cons_of_mem c hd)) _

theorem Firm.append {t rest : Text} {solid : Bool} (h : Firm solid t)
    (hrest : ∀ c ∈ rest, isLineBreak c = false) : Firm solid (t ++ rest) := by
  induction t generalizing solid with
  | nil => exact firm_of_not_break hrest solid
  | cons c t ih => exact ⟨h.1, ih h.2⟩

/-- A line that ends in something that is not blank. -/
structure SolidLine (l : Text) : Prop where
  nonempty : l ≠ []
  unbroken : ∀ c ∈ l, isLineBreak c = false
  ending : ∀ c, l.getLast? = some c → isBlank c = false

theorem SolidLine.firm_append {l rest : Text} (hl : SolidLine l) (hrest : Firm false rest)
    (solid : Bool) : Firm solid (l ++ 10 :: rest) := by
  obtain ⟨hsome, hbreak, hend⟩ := hl
  induction l generalizing solid with
  | nil => exact absurd rfl hsome
  | cons c l ih =>
    constructor
    · intro hc
      rw [hbreak c List.mem_cons_self] at hc
      cases hc
    · cases l with
      | nil =>
        have hsolid : isBlank c = false := hend c rfl
        rw [hsolid]
        exact ⟨fun _ => ⟨rfl, rfl⟩, hrest⟩
      | cons d l =>
        refine ih _ (List.cons_ne_nil d l) (fun e he => hbreak e (List.mem_cons_of_mem c he)) ?_
        intro e he
        exact hend e (by rw [List.getLast?_cons_cons]; exact he)

/-- Solid lines make a firm text, which ends as the last of them does. -/
theorem firm_join {ls : List Text} (h : ∀ l ∈ ls, SolidLine l) :
    Firm false (join [10] ls) ∧ ∀ c, (join [10] ls).getLast? = some c → isBlank c = false := by
  induction ls with
  | nil => exact ⟨trivial, nofun⟩
  | cons l ls ih =>
    have hl := h l List.mem_cons_self
    obtain ⟨hfirm, hend⟩ := ih fun l' hl' => h l' (List.mem_cons_of_mem l hl')
    cases ls with
    | nil =>
      rw [join, List.intercalate_singleton]
      exact ⟨firm_of_not_break hl.unbroken false, hl.ending⟩
    | cons l₂ ls =>
      have hsome : join [10] (l₂ :: ls) ≠ [] := by
        have hl₂ := h l₂ (List.mem_cons_of_mem l List.mem_cons_self)
        intro hnil
        cases ls with
        | nil =>
          rw [join, List.intercalate_singleton] at hnil
          exact hl₂.nonempty hnil
        | cons l₃ ls =>
          rw [join_cons (List.cons_ne_nil l₃ ls)] at hnil
          simp at hnil
      rw [join_cons (List.cons_ne_nil l₂ ls), List.append_assoc]
      refine ⟨hl.firm_append hfirm false, fun c hc => hend c ?_⟩
      rwa [List.getLast?_append_of_ne_nil _ (by simp), List.getLast?_append_of_ne_nil _ hsome] at hc

theorem not_blank_of_mem_go {line t l : Text} {solid : Bool} (hfirm : Firm solid t)
    (hsolid : solid = true → ∃ c ∈ line, isBlank c = false)
    (hend : ∀ c, (line.reverse ++ t).getLast? = some c → isBlank c = false)
    (h : l ∈ lines.go line t) : isBlankText l = false := by
  fun_induction lines.go line t generalizing solid with
  | case1 => cases h
  | case2 line hsome =>
    rcases List.mem_singleton.mp h with rfl
    cases line with
    | nil => simp at hsome
    | cons c line => simp [isBlankText, hend c (by simp)]
  | case3 line rest ih =>
    obtain ⟨hfeed, -⟩ := hfirm.1 rfl
    cases hfeed
  | case4 line c rest _ hbreak ih =>
    obtain ⟨rfl, rfl⟩ := hfirm.1 hbreak
    rcases List.mem_cons.mp h with rfl | h
    · obtain ⟨d, hd, hblank⟩ := hsolid rfl
      rw [isBlankText, List.all_reverse]
      exact List.all_eq_false.mpr ⟨d, hd, by simp [hblank]⟩
    · refine ih hfirm.2 (by simp [isBlank]) ?_ h
      intro e he
      apply hend e
      cases rest with
      | nil => simp at he
      | cons d rest => simpa [List.getLast?_cons_cons] using he
  | case5 line c rest _ hno ih =>
    refine ih hfirm.2 ?_ ?_ h
    · intro hc
      exact ⟨c, List.mem_cons_self, by simpa using hc⟩
    · intro e he
      exact hend e (by simpa using he)

/-- **No line of a firm text is blank** if the text ends in something that is not blank. -/
theorem Firm.not_blank_of_mem_lines {t l : Text} (h : Firm false t)
    (hend : ∀ c, t.getLast? = some c → isBlank c = false) (hl : l ∈ lines t) :
    isBlankText l = false := by
  refine not_blank_of_mem_go h nofun ?_ hl
  exact hend

end ChatCommands.Text
