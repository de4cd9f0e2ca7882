import ChatCommands.Config
import ChatCommands.Proofs.Number.Nearest
import ChatCommands.Reply

/-!
How long a reply is.

Only the words of the script itself are cut down to the limit, and the notice at the end of a cut
text is never cut.  So a reply is longer than the limit just when the notice alone is, or when the
engine's own words are.  Main statement: `reply_overlong_iff`.
-/

namespace ChatCommands

/-! ### Small numerals -/

theorem Text.length_ofNat_of_lt_ten {n : Nat} (h : n < 10) : (Text.ofNat n).length = 1 := by
  unfold Text.ofNat Text.digitsRev
  rw [dif_neg (by omega)]
  rfl

theorem Text.length_ofNat_le_two {n : Nat} (h : n < 100) : (Text.ofNat n).length ≤ 2 := by
  by_cases hsmall : n < 10
  · rw [Text.length_ofNat_of_lt_ten hsmall]
    omega
  · have hrest := Text.length_ofNat_of_lt_ten (n := n / 10) (by omega)
    unfold Text.ofNat at hrest ⊢
    rw [List.length_reverse] at hrest ⊢
    unfold Text.digitsRev
    rw [dif_pos (by omega), List.length_cons, hrest]

namespace Binary64

theorem toRat_ofRat_nonneg {q : Rat} (hq : 0 ≤ q) : 0 ≤ (ofRat q).toRat := by
  have hsnap := snap_nonneg hq
  unfold snap at hsnap
  unfold toRat
  cases h : (ofRat q).toRat? with
  | none => simp
  | some x => simpa [h] using hsnap

theorem toRat_ofRat_le {q : Rat} {i : Int} (h : q ≤ i) (hi : 0 ≤ i) (hsize : i.natAbs ≤ 2 ^ 53) :
    (ofRat q).toRat ≤ i := by
  have hsnap := snap_mono h
  rw [snap_intCast hsize] at hsnap
  unfold snap at hsnap
  unfold toRat
  cases h : (ofRat q).toRat? with
  | none => simpa using hi
  | some x => simpa [h] using hsnap

/-- One decimal place of a number below a hundred takes at most four characters. -/
theorem length_renderTenths_le {q : Rat} (hq : 0 ≤ q) (h : q ≤ 99) :
    (renderTenths q).length ≤ 4 := by
  have hpos : ¬ q < 0 := not_lt.mpr hq
  have htenths : (tenths q).natAbs ≤ 990 := by
    have hden : (0 : Rat) < q.den := by exact_mod_cast q.den_pos
    have hnum : 10 * q.num.natAbs ≤ 990 * q.den := by
      have hle : (q.num : Rat) ≤ 99 * q.den := by
        rw [← Rat.mul_den_eq_num]
        exact mul_le_mul_of_nonneg_right h hden.le
      have hle' : q.num ≤ 99 * q.den := by exact_mod_cast hle
      have hnonneg := Rat.num_nonneg.mpr hq
      omega
    have hround : roundHalfEven (10 * q.num.natAbs) q.den ≤ roundHalfEven (990 * 1) 1 :=
      roundHalfEven_mono q.den_pos Nat.one_pos (by omega)
    have hexact := roundHalfEven_mul 990 Nat.one_pos
    unfold tenths
    simp only [if_neg hpos, Int.natAbs_natCast]
    exact hround.trans hexact.le
  have hwhole := Text.length_ofNat_le_two (n := (tenths q).natAbs / 10) (by omega)
  have hplace := Text.length_ofNat_of_lt_ten (n := (tenths q).natAbs % 10) (by omega)
  have hpoint : (text ".").length = 1 := by simp [text]
  simp only [renderTenths, withSign, hpos, decide_false, Bool.false_eq_true, if_false,
    List.length_append, hplace, hpoint]
  omega

end Binary64

namespace Reply

theorem length_truncationNotice : truncationNotice.length = 23 := by
  simp [truncationNotice, text]

/-- The text is not shown as it is: it is too long, or was cut before. -/
def IsCut (limit : Int) (t : Text) (cut : Bool) : Prop := cut = true ∨ limit < t.length

/-- **A text that is cut fits the limit if the notice does**, and no other text is too long. -/
theorem lt_length_bound_iff (limit : Int) (t : Text) (cut : Bool) :
    limit < (bound limit t cut).length ↔ IsCut limit t cut ∧ limit < 23 := by
  unfold bound IsCut
  rw [length_truncationNotice]
  split
  · rename_i hwhole
    obtain ⟨hcut, hfits⟩ : cut = false ∧ (t.length : Int) ≤ limit := by simpa using hwhole
    simp only [hcut, Bool.false_eq_true, false_or]
    omega
  · rename_i hcut
    have hcut : cut = true ∨ limit < t.length := by
      by_contra hnot
      simp only [not_or, not_lt, Bool.not_eq_true] at hnot
      exact hcut (by simp [hnot.1, hnot.2])
    rw [List.length_append, List.length_take, length_truncationNotice]
    simp only [hcut, true_and]
    omega

/-- What is said about a script that has failed. -/
def failureText (r : RunResult) : Text :=
  text "This command failed: " ++ Text.strip
    (match r.summary with
    | some (c :: t) => c :: t
    | _ => text "the script raised an error")

/-- There is a reply, and it is longer than the limit. -/
def Overlong (limit : Int) (label : Text) (r : RunResult) (retryAfterMs : Int) : Prop :=
  ∃ t, ofResult limit label r retryAfterMs = some t ∧ limit < t.length

/-- The limit leaves no room for the notice behind what the script says, or none for the words of
the engine. -/
def Cramped (limit : Int) (label : Text) (r : RunResult) (retryAfterMs : Int) : Prop :=
  match r.status with
  | .success =>
    Text.strip r.output ≠ [] ∧ IsCut limit (Text.strip r.output) r.truncated ∧ limit < 23
  | .scriptError => IsCut limit (failureText r) false ∧ limit < 23
  | .securityRejected => limit < 62
  | .timeout => limit < 50
  | .rateLimited => limit < (Binary64.renderTenths (waitSeconds retryAfterMs)).length + 44
  | .runtimeUnavailable => limit < (languageLabel label).length + 38

variable {limit : Int} {label : Text} {r : RunResult} {retryAfterMs : Int}

theorem overlong_of_eq {t : Text} (h : ofResult limit label r retryAfterMs = some t) :
    Overlong limit label r retryAfterMs ↔ limit < t.length := by
  unfold Overlong
  rw [h]
  constructor
  · rintro ⟨t', ht', hlong⟩
    cases ht'
    exact hlong
  · intro hlong
    exact ⟨t, rfl, hlong⟩

theorem overlong_iff_cramped :
    Overlong limit label r retryAfterMs ↔ Cramped limit label r retryAfterMs := by
  unfold Cramped
  cases hstatus : r.status with
  | success =>
    cases hsaid : Text.strip r.output with
    | nil =>
      have hnone : ofResult limit label r retryAfterMs = none := by
        simp [ofResult, hstatus, hsaid]
      simp [Overlong, hnone]
    | cons c t =>
      have hreply : ofResult limit label r retryAfterMs = some (bound limit (c :: t) r.truncated) := by
        simp [ofResult, hstatus, hsaid]
      rw [overlong_of_eq hreply, lt_length_bound_iff]
      simp
  | scriptError =>
    have hreply : ofResult limit label r retryAfterMs = some (bound limit (failureText r)) := by
      unfold ofResult
      rw [hstatus]
      rfl
    rw [overlong_of_eq hreply, lt_length_bound_iff]
  | securityRejected =>
    have hreply : ofResult limit label r retryAfterMs =
        some (text "This command was blocked by the safety checks and did not run.") := by
      simp [ofResult, hstatus]
    rw [overlong_of_eq hreply]
    simp [text]
  | timeout =>
    have hreply : ofResult limit label r retryAfterMs =
        some (text "This command took too long to run and was stopped.") := by
      simp [ofResult, hstatus]
    rw [overlong_of_eq hreply]
    simp [text]
  | rateLimited =>
    have hreply : ofResult limit label r retryAfterMs =
        some (text "This command is on cooldown. Try again in " ++
          Binary64.renderTenths (waitSeconds retryAfterMs) ++ text "s.") := by
      simp [ofResult, hstatus]
    rw [overlong_of_eq hreply]
    simp [text]
    omega
  | runtimeUnavailable =>
    have hreply : ofResult limit label r retryAfterMs =
        some (languageLabel label ++ text " commands are temporarily unavailable.") := by
      simp [ofResult, hstatus]
    rw [overlong_of_eq hreply]
    simp [text]

/-- A wait of at most a minute is told in four characters. -/
theorem length_wait_le (h : retryAfterMs ≤ Command.maxCooldownMs) :
    (Binary64.renderTenths (waitSeconds retryAfterMs)).length ≤ 4 := by
  have hms : max retryAfterMs 100 ≤ 60000 := max_le h (by decide)
  have hms₀ : 0 ≤ max retryAfterMs 100 := le_max_of_le_right (by decide)
  have hq : mkRat (max retryAfterMs 100) 1000 = (max retryAfterMs 100 : Int) / (1000 : Rat) := by
    rw [Rat.mkRat_eq_div]
    norm_num
  have hle : mkRat (max retryAfterMs 100) 1000 ≤ ((60 : Int) : Rat) := by
    rw [hq, div_le_iff₀ (by norm_num)]
    exact_mod_cast (by omega : max retryAfterMs 100 ≤ 60 * 1000)
  have hnonneg : 0 ≤ mkRat (max retryAfterMs 100) 1000 := by
    rw [hq]
    exact div_nonneg (by exact_mod_cast hms₀) (by norm_num)
  apply Binary64.length_renderTenths_le
  · exact Binary64.toRat_ofRat_nonneg hnonneg
  · exact (Binary64.toRat_ofRat_le hle (by decide) (by decide)).trans (by norm_num)

theorem not_cramped (hlimit : 62 ≤ limit) (hlabel : (languageLabel label).length + 38 ≤ limit)
    (hwait : retryAfterMs ≤ Command.maxCooldownMs) : ¬ Cramped limit label r retryAfterMs := by
  have hseconds := length_wait_le hwait
  unfold Cramped
  cases r.status with
  | success =>
    rintro ⟨-, -, hsmall⟩
    omega
  | scriptError =>
    rintro ⟨-, hsmall⟩
    omega
  | securityRejected | timeout | rateLimited | runtimeUnavailable =>
    simp only []
    omega

/-- **When a reply is longer than the limit**: just when there is something to cut and the limit is
shorter than the notice, or shorter than the engine's own words, which are not cut.  A limit of 62
is enough for every reply but that about a language with a long name. -/
theorem reply_overlong_iff (c : Config) (label : Text) (r : RunResult) (retryAfterMs : Int) :
    (Overlong c.maxReplyChars label r retryAfterMs ↔
        Cramped c.maxReplyChars label r retryAfterMs) ∧
      (62 ≤ c.maxReplyChars → (languageLabel label).length + 38 ≤ c.maxReplyChars →
        retryAfterMs ≤ Command.maxCooldownMs → ¬ Overlong c.maxReplyChars label r retryAfterMs) := by
  refine ⟨overlong_iff_cramped, fun hlimit hlabel hwait hlong => ?_⟩
  exact not_cramped hlimit hlabel hwait (overlong_iff_cramped.mp hlong)

/-- The longest wait and the usual limit. -/
theorem reply_overlong_iff_longest_wait :
    (62 : Int) ≤ ({} : Config).maxReplyChars ∧ (60000 : Int) ≤ Command.maxCooldownMs ∧
      ¬ Overlong ({} : Config).maxReplyChars (text "python") { status := .rateLimited } 60000 := by
  have hlabel : (languageLabel (text "python")).length + 38 ≤ ({} : Config).maxReplyChars := by
    decide +kernel
  exact ⟨by decide, by decide, (reply_overlong_iff {} (text "python") { status := .rateLimited }
    60000).2 (by decide) hlabel (by decide)⟩

/-- **Replies above the limit.**  A configuration may limit replies to 16 code points; output of 17
is then answered with the notice alone, which has 23.  With a limit of 32 the reply about refused
code has 62. -/
theorem cut_reply_overlong :
    (∃ c, Config.check (.obj [(text "max_reply_chars", .int 16)]) = .ok c ∧
      Overlong c.maxReplyChars (text "python")
        { status := .success, output := List.replicate 17 (cp 'x') } 0) ∧
    ∃ c, Config.check (.obj [(text "max_reply_chars", .int 32)]) = .ok c ∧
      Overlong c.maxReplyChars (text "python") { status := .securityRejected } 0 := by
  refine ⟨⟨_, rfl, ?_⟩, ⟨_, rfl, ?_⟩⟩
  · rw [overlong_iff_cramped]
    change Text.strip (List.replicate 17 (cp 'x')) ≠ [] ∧ IsCut 16 _ false ∧ (16 : Int) < 23
    refine ⟨by decide +kernel, .inr (by decide +kernel), by decide⟩
  · rw [overlong_iff_cramped]
    change (32 : Int) < 62
    decide

end Reply

end ChatCommands
