import ChatCommands.Proofs.Matching.Folding
import ChatCommands.Proofs.Registry.Layouts

/-!
A blank message triggers nothing.

A command that was accepted has a trigger with something in it that is not blank.  What a message must
begin with for the command, or be, ends in that trigger, and folding neither makes white space nor
takes any away.  So a message that triggers a command is not blank, in whatever mode and with whatever
prefixes.  Main statement: `first?_blank`.
-/

namespace ChatCommands.Matching

open Text

variable {cv : Convention} {c : Command} {content spelled t : Text} {mode : MatchMode}

@[simp] theorem isBlankText_normalize (caseInsensitive : Bool) (t : Text) :
    isBlankText (normalize caseInsensitive t) = isBlankText t := by
  cases caseInsensitive
  · rfl
  · exact isBlankText_fold t

/-- Where a blank message reads as it is asked to, what it is asked for is blank. -/
theorem Reads.blank (h : Reads mode spelled content) (hblank : isBlankText content = true) :
    isBlankText spelled = true := by
  have hprefix : spelled <+: content := by
    cases mode with
    | exact => exact h ▸ List.prefix_rfl
    | prefixed => exact h
    | startsWith => exact h
  obtain ⟨rest, rfl⟩ := hprefix
  rw [isBlankText_append, Bool.and_eq_true] at hblank
  exact hblank.1

theorem blank_trigger_of_spelled (h : isBlankText (Matching.spelled cv c) = true) :
    isBlankText c.trigger = true := by
  unfold Matching.spelled at h
  split at h
  · rw [isBlankText_append, Bool.and_eq_true] at h
    exact h.2
  · exact h
  · exact h

/-- **A message that triggers a command is not blank**, unless the trigger is. -/
theorem not_triggers_of_blank (htrigger : isBlankText c.trigger = false)
    (hblank : isBlankText content = true) : triggers cv c content = false := by
  by_contra htriggers
  have hreads := triggers_iff.mp (eq_true_of_ne_false htriggers)
  have hspelled := hreads.blank (by rwa [isBlankText_normalize])
  rw [isBlankText_normalize] at hspelled
  rw [blank_trigger_of_spelled hspelled] at htrigger
  cases htrigger

/-- **Blank messages never fire.**  Of commands that passed their checks none is found for a message
that is empty or consists of white space only: with or without case, with any prefixes, by whatever
roles and in whatever channel it was sent. -/
theorem first?_blank (cv : Convention) (roles : List Text) (channel : Text) {cs : List Command}
    (hcs : ∀ c ∈ cs, ∃ v, Command.check v = .ok c) (hblank : isBlankText content = true) :
    first? cv roles channel content cs = none := by
  refine List.find?_eq_none.mpr fun c hc => ?_
  obtain ⟨v, hv⟩ := hcs c hc
  have htrigger := (Command.valid_of_check hv).trigger_not_blank
  unfold fires
  rw [not_triggers_of_blank htrigger hblank, Bool.false_and]
  exact Bool.false_ne_true

/-- A command with white space at the ends of its trigger, and with nothing else for a prefix. -/
def spaced (mode : MatchMode) : Command where
  id := text mode.name
  tenant := text "g"
  trigger := 0x3000 :: text "İ "
  mode
  sigil := some [0x2028]
  language := text "go"
  code := []

theorem first?_blank_spaced :
    (∀ c ∈ MatchMode.all.map spaced, ∃ v, Command.check v = .ok c) ∧
      isBlankText [0x2028, 0x3000, 32] = true ∧
      first? {} [] (text "lobby") [0x2028, 0x3000, 32] (MatchMode.all.map spaced) = none := by
  have hchecks : ∀ c ∈ MatchMode.all.map spaced, ∃ v, Command.check v = .ok c := by
    intro c hc
    obtain ⟨mode, -, rfl⟩ := List.mem_map.mp hc
    refine ⟨.record [("id", .str (text mode.name)), ("tenant_id", .str (text "g")),
      ("trigger", .str (0x3000 :: text "İ ")), ("match_mode", .str (text mode.name)),
      ("prefix", .str [0x2028]), ("language", .str (text "go")), ("code", .str [])], ?_⟩
    cases mode <;> rfl
  have hblank : isBlankText [0x2028, 0x3000, 32] = true := by decide
  exact ⟨hchecks, hblank, first?_blank {} [] (text "lobby") hchecks hblank⟩

end ChatCommands.Matching
