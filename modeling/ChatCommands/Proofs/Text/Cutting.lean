import ChatCommands.Text.Utf8
import Mathlib.Tactic.Ring

/-!
Texts that are cut in bytes.

If the bytes of a text are cut off after some of them, decoding gives the code points that are left
whole.  If the cut goes through the bytes of a code point, the rest of these is one defect, and
U+FFFD stands for it at the end.
-/

namespace ChatCommands.Utf8

variable {b lead : UInt8} {bs rest : Bytes} {t whole : Text} {value taken tail v extra n start : Nat}

/-! ### The code points that are left -/

/-- The longest beginning of a text that takes at most `n` bytes. -/
def fitting (n : Nat) : Text → Text
  | [] => []
  | c :: t => if pointSize c ≤ n then c :: fitting (n - pointSize c) t else []

/-- The code point that is cut if the text is cut off after `n` bytes. -/
def cutPoint? (n : Nat) : Text → Option Nat
  | [] => none
  | c :: t =>
    if pointSize c ≤ n then cutPoint? (n - pointSize c) t else if n = 0 then none else some c

theorem fitting_isPrefix (n : Nat) (t : Text) : fitting n t <+: t := by
  induction t generalizing n with
  | nil => exact List.nil_prefix
  | cons c t ih =>
    rw [fitting]
    split
    · exact (List.prefix_cons_inj c).mpr (ih _)
    · exact List.nil_prefix

/-- A code point is cut if there is room for a part of it after those before it. -/
theorem cutPoint?_eq_some_iff {c : Nat} : cutPoint? n t = some c ↔
    ∃ lost, t = fitting n t ++ c :: lost ∧ size (fitting n t) < n ∧
      n < size (fitting n t) + pointSize c := by
  induction t generalizing n with
  | nil => simp [cutPoint?]
  | cons d t ih =>
    rw [cutPoint?, fitting]
    by_cases hfits : pointSize d ≤ n
    · rw [if_pos hfits, if_pos hfits, ih]
      change _ ↔ ∃ lost, d :: t = d :: _ ∧ pointSize d + size _ < n ∧ n < pointSize d + size _ + _
      simp only [List.cons.injEq, true_and]
      refine exists_congr fun lost => and_congr_right fun _ => ?_
      omega
    · rw [if_neg hfits, if_neg hfits]
      change _ ↔ ∃ lost, d :: t = c :: lost ∧ 0 < n ∧ n < 0 + pointSize c
      split
      · rename_i hnone
        simp [hnone]
      · simp only [Option.some.injEq, List.cons.injEq]
        constructor
        · rintro rfl
          exact ⟨t, ⟨rfl, rfl⟩, by omega, by omega⟩
        · rintro ⟨lost, ⟨rfl, -⟩, -⟩
          rfl

/-! ### Reading what is cut -/

/-- The bytes after the second one: the value that they make, and what reading fewer of them comes
to. -/
theorem readTail_scalar (h : readTail value taken tail rest = .scalar v extra) :
    extra = taken + tail ∧ value * 64 ^ tail ≤ v ∧ v < (value + 1) * 64 ^ tail ∧
      ∀ m, readTail value taken tail (rest.take m) =
        if tail ≤ m then .scalar v extra else .defect .unexpectedEnd (taken + m) := by
  fun_induction readTail value taken tail rest with
  | case1 value taken rest =>
    cases h
    simp [readTail]
  | case2 | case4 => cases h
  | case3 value taken tail b rest hb ih =>
    obtain ⟨hextra, hlow, hhigh, htake⟩ := ih h
    have hdigit : b.toNat % 64 < 64 := Nat.mod_lt _ (by decide)
    refine ⟨by omega, ?_, ?_, ?_⟩
    · calc value * 64 ^ (tail + 1) = value * 64 * 64 ^ tail := by ring
        _ ≤ (value * 64 + b.toNat % 64) * 64 ^ tail := Nat.mul_le_mul_right _ (by omega)
        _ ≤ v := hlow
    · calc v < (value * 64 + b.toNat % 64 + 1) * 64 ^ tail := hhigh
        _ ≤ (value + 1) * 64 * 64 ^ tail := Nat.mul_le_mul_right _ (by omega)
        _ = (value + 1) * 64 ^ (tail + 1) := by ring
    · intro m
      cases m with
      | zero => rfl
      | succ m =>
        rw [List.take_succ_cons, readTail, if_pos hb, htake m]
        by_cases hm : tail ≤ m
        · rw [if_pos hm, if_pos (Nat.succ_le_succ hm)]
        · rw [if_neg hm, if_neg fun hle => hm (Nat.le_of_succ_le_succ hle), Nat.add_right_comm]
          rfl

/-- The first two bytes tell how many bytes the encoding of the value takes. -/
theorem pointSize_of_follow {lead lo hi second : Nat} (hfollow : follow lead = some (lo, hi, tail))
    (hlo : lo ≤ second) (hhi : second ≤ hi)
    (hlow : (leadBits lead tail * 64 + second % 64) * 64 ^ tail ≤ v)
    (hhigh : v < (leadBits lead tail * 64 + second % 64 + 1) * 64 ^ tail) :
    pointSize v = 2 + tail := by
  unfold follow at hfollow
  unfold pointSize
  split_ifs at hfollow <;> cases hfollow <;>
    simp only [leadBits, Bool.and_eq_true, decide_eq_true_eq] at * <;>
    norm_num at hlow hhigh <;> split_ifs <;> omega

/-- A scalar value takes as many bytes as its encoding, and fewer of them are one defect. -/
theorem readFront_scalar (h : readFront lead rest = .scalar v extra) :
    pointSize v = 1 + extra ∧ ∀ m, readFront lead (rest.take m) =
      if extra ≤ m then .scalar v extra else .defect .unexpectedEnd m := by
  unfold readFront at h ⊢
  by_cases hascii : lead.toNat < 0x80
  · simp only [if_pos hascii] at h ⊢
    cases h
    simp [pointSize, hascii]
  · simp only [if_neg hascii] at h ⊢
    cases hfollow : follow lead.toNat with
    | none =>
      rw [hfollow] at h
      cases h
    | some range =>
      obtain ⟨lo, hi, tail⟩ := range
      rw [hfollow] at h
      cases rest with
      | nil => cases h
      | cons b rest =>
        dsimp only at h
        split at h
        · rename_i hb
          obtain ⟨hextra, hlow, hhigh, htake⟩ := readTail_scalar h
          constructor
          · rw [Bool.and_eq_true, decide_eq_true_iff, decide_eq_true_iff] at hb
            rw [pointSize_of_follow hfollow hb.1 hb.2 hlow hhigh]
            omega
          · intro m
            cases m with
            | zero =>
              rw [if_neg (by omega)]
              rfl
            | succ m =>
              rw [List.take_succ_cons]
              dsimp only
              rw [if_pos hb, htake m, hextra]
              simp only [Nat.add_comm 1, Nat.add_le_add_iff_right]
        · cases h

/-- **A text of which the first `n` bytes are kept**: what is left whole, and U+FFFD for what is
cut. -/
theorem decodeLossy_take (h : decodeFrom start bs = .ok whole) (n : Nat) :
    decodeLossy (bs.take n) =
      fitting n whole ++ (cutPoint? n whole).toList.map fun _ => 0xFFFD := by
  fun_induction decodeFrom start bs generalizing n whole with
  | case1 =>
    cases h
    simp [decodeLossy, fitting, cutPoint?]
  | case2 start b rest v extra hfront ih =>
    obtain ⟨hsize, htake⟩ := readFront_scalar hfront
    cases hrest : decodeFrom (start + 1 + extra) (rest.drop extra) with
    | error e =>
      rw [hrest] at h
      cases h
    | ok t =>
      rw [hrest] at h
      cases h
      cases n with
      | zero =>
        have hnone : ¬ pointSize v ≤ 0 := by omega
        rw [fitting, cutPoint?, if_neg hnone, if_neg hnone, if_pos rfl, List.take_zero, decodeLossy]
        rfl
      | succ m =>
        rw [List.take_succ_cons, decodeLossy, htake m, fitting, cutPoint?, hsize]
        by_cases hfits : extra ≤ m
        · have hroom : 1 + extra ≤ m + 1 := by omega
          rw [if_pos hfits, if_pos hroom, if_pos hroom]
          dsimp only
          rw [List.drop_take, ih hrest, show m + 1 - (1 + extra) = m - extra by omega]
          rfl
        · have hroom : ¬ 1 + extra ≤ m + 1 := by omega
          rw [if_neg hfits, if_neg hroom, if_neg hroom, if_neg (Nat.succ_ne_zero m)]
          dsimp only
          rw [List.drop_take, Nat.sub_self, List.take_zero, decodeLossy]
          rfl
  | case3 => cases h

/-- What is decoded is a beginning of the text unless a code point other than U+FFFD is cut. -/
theorem decodeLossy_take_isPrefix_iff (h : decodeFrom start bs = .ok whole) (n : Nat) :
    decodeLossy (bs.take n) <+: whole ↔ ∀ c, cutPoint? n whole = some c → c = 0xFFFD := by
  rw [decodeLossy_take h]
  cases hcut : cutPoint? n whole with
  | none => simpa using fitting_isPrefix n whole
  | some c =>
    obtain ⟨lost, hwhole, -⟩ := cutPoint?_eq_some_iff.mp hcut
    have hsplit : fitting n whole ++ [0xFFFD] <+: fitting n whole ++ c :: lost ↔ 0xFFFD = c := by
      rw [List.prefix_append_right_inj, List.cons_prefix_cons]
      exact and_iff_left List.nil_prefix
    rw [← hwhole] at hsplit
    simpa [eq_comm] using hsplit

end ChatCommands.Utf8
