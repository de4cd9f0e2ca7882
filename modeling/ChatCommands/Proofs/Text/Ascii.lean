import ChatCommands.Text.Basic

/-!
Literals in ASCII.

The code points of such a literal are the bytes of its encoding.  To decode a literal is far more work
than to look at its bytes, so tables of literals are checked by their bytes.
-/

namespace ChatCommands.Text

/-- The bytes of a literal. -/
def bytes (s : String) : Text := s.toByteArray.data.toList.map UInt8.toNat

theorem bytes_ofList (cs : List Char) :
    bytes (String.ofList cs) = (cs.flatMap String.utf8EncodeChar).map UInt8.toNat := by
  rw [bytes, String.toByteArray_ofList, List.utf8Encode, List.toList_data_toByteArray]

/-- The encoding of a character begins with a byte of ASCII only if it is that byte. -/
theorem utf8EncodeChar_of_ascii {c : Char}
    (h : ∀ b ∈ String.utf8EncodeChar c, b.toNat < 128) :
    (String.utf8EncodeChar c).map UInt8.toNat = [c.toNat] := by
  have hval : c.toNat = c.val.toNat := rfl
  unfold String.utf8EncodeChar at h ⊢
  simp only [] at h ⊢
  split
  · change [(UInt8.ofNat c.val.toNat).toNat] = [c.toNat]
    rw [UInt8.toNat_ofNat', Nat.mod_eq_of_lt (by omega), hval]
  · rename_i hlarge
    rw [if_neg hlarge] at h
    split at h
    · have hbyte := h _ List.mem_cons_self
      rw [UInt8.toNat_ofNat'] at hbyte
      omega
    · split at h
      · have hbyte := h _ List.mem_cons_self
        rw [UInt8.toNat_ofNat'] at hbyte
        omega
      · have hbyte := h _ List.mem_cons_self
        rw [UInt8.toNat_ofNat'] at hbyte
        omega

/-- **The code points of a literal in ASCII are its bytes.** -/
theorem text_eq_bytes {s : String} (h : (bytes s).all (· < 128) = true) : text s = bytes s := by
  obtain ⟨cs, rfl⟩ : ∃ cs, s = String.ofList cs := ⟨s.toList, String.ofList_toList.symm⟩
  rw [bytes_ofList] at h ⊢
  rw [text, String.toList_ofList]
  induction cs with
  | nil => rfl
  | cons c cs ih =>
    rw [List.flatMap_cons, List.map_append, List.all_append, Bool.and_eq_true] at h
    have hfirst : ∀ b ∈ String.utf8EncodeChar c, b.toNat < 128 := by
      simpa using h.1
    rw [List.flatMap_cons, List.map_append, List.map_cons, ih h.2, utf8EncodeChar_of_ascii hfirst]
    rfl

end ChatCommands.Text
