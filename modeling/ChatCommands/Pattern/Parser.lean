import ChatCommands.Pattern.Basic

/-!
The written form of patterns.

`\b`, `\s`, `\w` and `\d` have their usual meanings, `^` stands for the start of a line and `.` for
any code point but a line feed; brackets enclose a set, parentheses a group, and a bar separates
alternatives.  `*` and `+` may follow a single code point or set, `?` also a group.
-/

namespace ChatCommands.Pattern

/-- What one code point after a backslash stands for inside a set. -/
def escapedClass (c : Nat) : PointClass :=
  if c = cp 's' then .blank
  else if c = cp 'w' then .word
  else if c = cp 'd' then .digit
  else if c = cp 'n' then .point 10
  else if c = cp 't' then .point 9
  else if c = cp 'r' then .point 13
  else .point c

/-- One code point of a set, perhaps escaped. -/
def parseClass : Text → Option (PointClass × Text)
  | 92 :: c :: rest => some (escapedClass c, rest)
  | c :: rest => if c = 92 then none else some (.point c, rest)
  | [] => none

/-- The rest of a set after its opening bracket. -/
def parseSet : (fuel : Nat) → PointSet → Text → Option (PointSet × Text)
  | 0, _, _ => none
  | fuel + 1, done, t =>
    match t with
    | 93 :: rest => some (done.reverse, rest)
    | _ =>
      match parseClass t with
      | some (.point first, 45 :: last :: rest) =>
        if last = 93 then parseSet fuel (.point 45 :: .point first :: done) (last :: rest)
        else parseSet fuel (.range first last :: done) rest
      | some (c, rest) => parseSet fuel (c :: done) rest
      | none => none

/-- A set with the repetition mark that follows it. -/
def repeated (s : PointSet) : Text → Pattern × Text
  | 42 :: rest => (.many s, rest)
  | 43 :: rest => (.seq (.one s) (.many s), rest)
  | 63 :: rest => (.either (.one s) .empty, rest)
  | rest => (.one s, rest)

/-- The inside of a group may begin with a mark that it is not remembered. -/
def groupStart : Text → Text
  | 63 :: 58 :: rest => rest
  | rest => rest

mutual

/-- Alternatives separated by bars, up to a closing parenthesis or the end. -/
def parseChoice : (fuel : Nat) → Text → Option (Pattern × Text)
  | 0, _ => none
  | fuel + 1, t =>
    match parseSequence fuel t with
    | some (p, 124 :: rest) =>
      match parseChoice fuel rest with
      | some (q, rest) => some (.either p q, rest)
      | none => none
    | other => other

/-- Parts that follow each other, up to a bar, a closing parenthesis or the end. -/
def parseSequence : (fuel : Nat) → Text → Option (Pattern × Text)
  | 0, _ => none
  | fuel + 1, t =>
    match t with
    | [] => some (.empty, [])
    | c :: _ =>
      if c = cp '|' || c = cp ')' then some (.empty, t)
      else
        match parsePart fuel t with
        | some (p, rest) =>
          match parseSequence fuel rest with
          | some (q, rest) => some (.seq p q, rest)
          | none => none
        | none => none

/-- One part with its repetition mark. -/
def parsePart : (fuel : Nat) → Text → Option (Pattern × Text)
  | 0, _ => none
  | fuel + 1, t =>
    match t with
    | 94 :: rest => some (.lineStart, rest)
    | 92 :: 98 :: rest => some (.wordEdge, rest)
    | 40 :: rest =>
      match parseChoice fuel (groupStart rest) with
      | some (p, 41 :: 63 :: rest) => some (.either p .empty, rest)
      | some (p, 41 :: rest) => some (p, rest)
      | _ => none
    | 91 :: rest => (parseSet fuel [] rest).map fun (s, rest) => repeated s rest
    | 46 :: rest => some (repeated [.notNewline] rest)
    | _ => (parseClass t).map fun (c, rest) => repeated [c] rest

end

/-- The pattern of a written form. -/
def parse? (t : Text) : Option Pattern :=
  match parseChoice (3 * t.length + 3) t with
  | some (p, []) => some p
  | _ => none

end ChatCommands.Pattern
