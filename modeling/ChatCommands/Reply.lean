import ChatCommands.Number.Shortest
import ChatCommands.Run
import ChatCommands.Text.Blank

/-!
Replies: what a user is told about a run.

A reply shows the script's own output or error, and nothing else of what happened inside.
-/

namespace ChatCommands.Reply

/-- The mark at the end of a text that was cut. -/
def truncationNotice : Text := text "\n... (output truncated)"

/-- The text, or its beginning and the notice: where it is longer than `limit`,
or was cut before. -/
def bound (limit : Int) (t : Text) (cut : Bool := false) : Text :=
  if !cut && t.length ≤ limit then t
  else t.take (limit - truncationNotice.length).toNat ++ truncationNotice

/-- The advertised wait in seconds; it is at least a tenth of a second. -/
def waitSeconds (retryAfterMs : Int) : Rat :=
  (Binary64.ofRat (mkRat (max retryAfterMs 100) 1000)).toRat

/-- The name of a label's language, as users know it. -/
def languageLabel (label : Text) : Text :=
  match Language.ofLabel? label with
  | some l => text l.displayName
  | none => label

/-- The reply about a result of a command in the language of this label, if there is anything to
say. -/
def ofResult (limit : Int) (label : Text) (r : RunResult) (retryAfterMs : Int) : Option Text :=
  match r.status with
  | .success =>
    match Text.strip r.output with
    | [] => none
    | t => some (bound limit t r.truncated)
  | .scriptError =>
    let excerpt := match r.summary with
      | some (c :: t) => c :: t
      | _ => text "the script raised an error"
    some (bound limit (text "This command failed: " ++ Text.strip excerpt))
  | .securityRejected =>
    some (text "This command was blocked by the safety checks and did not run.")
  | .timeout => some (text "This command took too long to run and was stopped.")
  | .rateLimited =>
    some (text "This command is on cooldown. Try again in " ++
      Binary64.renderTenths (waitSeconds retryAfterMs) ++ text "s.")
  | .runtimeUnavailable =>
    some (languageLabel label ++ text " commands are temporarily unavailable.")

end ChatCommands.Reply
