import ChatCommands.Text.Basic

/-!
Control sequences of terminals, and texts without them.

A sequence is the escape character, an opening bracket, digits, semicolons and question marks, and
one letter.
-/

namespace ChatCommands.Text

/-- A character between the bracket and the letter of a control sequence. -/
def isControlPart (c : Nat) : Bool := isAsciiDigit c || c == cp ';' || c == cp '?'

/-- A letter that ends a control sequence. -/
def isControlEnd (c : Nat) : Bool := (65 ≤ c && c ≤ 90) || (97 ≤ c && c ≤ 122)

/-- The rest of a text after the control sequence at its start, if there is one. -/
def afterControl? : Text → Option Text
  | 27 :: 91 :: rest =>
    match rest.dropWhile isControlPart with
    | c :: after => if isControlEnd c then some after else none
    | [] => none
  | _ => none

theorem afterControl?_length {t r : Text} (h : afterControl? t = some r) : r.length < t.length := by
  unfold afterControl? at h
  split at h
  · rename_i rest
    have hle := (List.dropWhile_sublist isControlPart (l := rest)).length_le
    split at h
    · rename_i c after heq
      split at h
      · cases h
        simp only [heq, List.length_cons] at hle ⊢
        omega
      · cases h
    · cases h
  · cases h

/-- The text without its control sequences. -/
def withoutAnsi (t : Text) : Text :=
  match t with
  | [] => []
  | c :: rest =>
    match _found : afterControl? (c :: rest) with
    | some after => withoutAnsi after
    | none => c :: withoutAnsi rest
termination_by t.length
decreasing_by
  · exact afterControl?_length _found
  · simp

end ChatCommands.Text
