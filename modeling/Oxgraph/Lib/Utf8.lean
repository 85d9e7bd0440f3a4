import Oxgraph.Lib.Words

/-! Where a byte string may be cut so that its front is still valid UTF-8. -/

namespace Oxgraph

/-- The bytes of a text spell it, and no others do. -/
theorem fromUtf8_eq_some {bytes : Bytes} {text : String} :
    fromUtf8 bytes = some text ↔ bytes = utf8Bytes text := by
  constructor
  · intro spelled
    rw [fromUtf8, String.fromUTF8?] at spelled
    split at spelled
    · cases spelled
      simp [utf8Bytes, String.fromUTF8]
    · cases spelled
  · rintro rfl
    exact fromUtf8_utf8Bytes text

theorem utf8Bytes_eq_flatMap (text : String) :
    utf8Bytes text = text.toList.flatMap String.utf8EncodeChar := by
  conv => lhs; rw [← String.ofList_toList (s := text)]
  rw [utf8Bytes, String.toByteArray_ofList, List.utf8Encode]
  simp

/-- Bytes are valid UTF-8 exactly when they encode some characters. -/
theorem isSome_fromUtf8_iff {bytes : Bytes} :
    (fromUtf8 bytes).isSome ↔ ∃ chars : List Char, bytes = chars.flatMap String.utf8EncodeChar := by
  rw [Option.isSome_iff_exists]
  constructor
  · rintro ⟨text, spelled⟩
    exact ⟨text.toList, by rw [fromUtf8_eq_some.mp spelled, utf8Bytes_eq_flatMap]⟩
  · rintro ⟨chars, rfl⟩
    refine ⟨String.ofList chars, fromUtf8_eq_some.mpr ?_⟩
    rw [utf8Bytes_eq_flatMap, String.toList_ofList]

/-- A byte of a longer encoding is no ASCII byte. -/
theorem not_ascii_of_mem_utf8EncodeChar {char : Char} {byte : UInt8}
    (long : 1 < (String.utf8EncodeChar char).length)
    (member : byte ∈ String.utf8EncodeChar char) : 128 ≤ byte.toNat := by
  unfold String.utf8EncodeChar at long member
  dsimp only at long member
  -- Every byte of two or more is at least 128, and a remainder keeps it below 256.
  split at member
  · rw [if_pos ‹_›] at long
    exact absurd long (by simp)
  · split at member
    · simp only [List.mem_cons, List.not_mem_nil, or_false] at member
      rcases member with rfl | rfl <;> rw [UInt8.toNat_ofNat'] <;> omega
    · split at member
      · simp only [List.mem_cons, List.not_mem_nil, or_false] at member
        rcases member with rfl | rfl | rfl <;> rw [UInt8.toNat_ofNat'] <;> omega
      · simp only [List.mem_cons, List.not_mem_nil, or_false] at member
        rcases member with rfl | rfl | rfl | rfl <;> rw [UInt8.toNat_ofNat'] <;> omega

/-- Characters encoded up to an ASCII byte are cut after it. -/
theorem flatMap_utf8EncodeChar_front {chars : List Char} {front rest : Bytes} {byte : UInt8}
    (ascii : byte.toNat < 128)
    (encoded : chars.flatMap String.utf8EncodeChar = front ++ byte :: rest) :
    ∃ head : List Char, front ++ [byte] = head.flatMap String.utf8EncodeChar := by
  -- Each character is before the byte, or is the byte.
  induction chars generalizing front with
  | nil => exact absurd encoded (by simp)
  | cons char chars ih =>
    rw [List.flatMap_cons] at encoded
    obtain ⟨between, before, after⟩ | ⟨between, before, after⟩ :=
      List.append_eq_append_iff.mp encoded
    · obtain ⟨head, encodes⟩ := ih after
      refine ⟨char :: head, ?_⟩
      rw [List.flatMap_cons, ← encodes, before, List.append_assoc]
    · cases between with
      | nil =>
        rw [List.append_nil] at before
        obtain ⟨head, encodes⟩ := @ih [] after.symm
        refine ⟨char :: head, ?_⟩
        rw [List.flatMap_cons, ← encodes, before, List.nil_append]
      | cons first between =>
        rw [List.cons_append, List.cons_eq_cons] at after
        have member : byte ∈ String.utf8EncodeChar char := by
          rw [before, after.1]
          exact List.mem_append_right front List.mem_cons_self
        have short : (String.utf8EncodeChar char).length ≤ 1 := by
          by_contra long
          have high := not_ascii_of_mem_utf8EncodeChar (by omega) member
          omega
        rw [before, List.length_append, List.length_cons] at short
        have empty : front = [] := List.eq_nil_of_length_eq_zero (by omega)
        have last : between = [] := List.eq_nil_of_length_eq_zero (by omega)
        refine ⟨[char], ?_⟩
        rw [List.flatMap_cons, List.flatMap_nil, List.append_nil, before, last, after.1]

/-- The front of valid UTF-8 up to an ASCII byte is valid UTF-8. -/
theorem isSome_fromUtf8_front {front rest : Bytes} {byte : UInt8} (ascii : byte.toNat < 128)
    (valid : (fromUtf8 (front ++ byte :: rest)).isSome) : (fromUtf8 (front ++ [byte])).isSome := by
  obtain ⟨chars, encoded⟩ := isSome_fromUtf8_iff.mp valid
  exact isSome_fromUtf8_iff.mpr (flatMap_utf8EncodeChar_front ascii encoded.symm)

end Oxgraph
