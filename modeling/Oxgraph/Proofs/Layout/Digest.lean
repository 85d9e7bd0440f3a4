import Mathlib.Data.String.Basic
import Oxgraph.Db.Wal
import Oxgraph.Layout.Arrays
import Oxgraph.Lib.Crc
import Oxgraph.Lib.Token

/-!
The table-driven checksum is the bit-serial one, and so it continues and detects bursts.

A composite key is a length-prefixed code, and so tells its fields.
-/

namespace Oxgraph.Layout

open Crc

/-- The reflected Castagnoli polynomial. -/
def castagnoliPolynomial : BitVec 32 := 0x82F63B78#32

theorem msb_castagnoliPolynomial : castagnoliPolynomial.msb = true := by decide

/-- Masking the polynomial by the low bit adds it exactly when the bit is set. -/
theorem toBitVec_advanceBit (crc : UInt32) :
    (advanceBit crc).toBitVec = shiftOut castagnoliPolynomial crc.toBitVec := by
  have mask : (-(crc &&& 1)).toBitVec =
      if crc.toBitVec.getLsbD 0 then BitVec.allOnes 32 else 0#32 := by
    rw [UInt32.toBitVec_neg, UInt32.toBitVec_and]
    show -(crc.toBitVec &&& 1#32) = _
    rw [BitVec.and_one_eq_setWidth_ofBool_getLsbD]
    cases crc.toBitVec.getLsbD 0 <;> decide
  unfold advanceBit shiftOut
  rw [UInt32.toBitVec_xor, UInt32.toBitVec_and, UInt32.toBitVec_shiftRight, mask]
  show (crc.toBitVec >>> 1) ^^^ (castagnoliPolynomial &&& _) = _
  cases crc.toBitVec.getLsbD 0 with
  | false =>
    rw [if_neg Bool.false_ne_true, if_neg Bool.false_ne_true, BitVec.and_zero, BitVec.xor_zero]
  | true => rw [if_pos rfl, if_pos rfl, BitVec.and_allOnes]

theorem toBitVec_repeat_advanceBit (count : Nat) (crc : UInt32) :
    (Nat.repeat advanceBit count crc).toBitVec =
      (shiftOut castagnoliPolynomial)^[count] crc.toBitVec := by
  induction count with
  | zero => rfl
  | succ count ih =>
    rw [Function.iterate_succ_apply', ← ih]
    exact toBitVec_advanceBit _

/-- Filling a table sets the entries it reaches, and keeps the others. -/
theorem getElem_fillTable (count first : Nat) (seed : UInt32) (table : Vector UInt32 256)
    (index : Nat) (inside : index < 256) :
    (fillTable count first seed table)[index] =
      if first ≤ index ∧ index < first + count then
        Nat.repeat advanceBit 8 (seed + UInt32.ofNat (index - first))
      else table[index] := by
  induction count generalizing first seed table with
  | zero =>
    rw [if_neg (by omega)]
    rfl
  | succ count ih =>
    rw [fillTable, ih, Vector.getElem_setIfInBounds]
    rcases Nat.lt_trichotomy index first with before | same | after
    · rw [if_neg (by omega), if_neg (by omega), if_neg (by omega)]
    · -- The entry that is set now is behind all that are set later.
      subst same
      rw [if_neg (by omega), if_pos rfl, if_pos (by omega), Nat.sub_self]
      exact congrArg _ (UInt32.add_zero seed).symm
    · have next : index - first = 1 + (index - (first + 1)) := by omega
      have moved : seed + 1 + UInt32.ofNat (index - (first + 1)) =
          seed + UInt32.ofNat (index - first) := by
        rw [next, UInt32.ofNat_add, UInt32.add_assoc]
        rfl
      rw [if_neg (Nat.ne_of_lt after), moved]
      by_cases reached : index < first + (count + 1)
      · rw [if_pos (by omega), if_pos (by omega)]
      · rw [if_neg (by omega), if_neg (by omega)]

/-- Each entry of the table is eight bits of the checksum of its index. -/
theorem get_crc32cTable (index : Fin 256) :
    crc32cTable.get index = Nat.repeat advanceBit 8 (UInt32.ofNat index) := by
  have entry := getElem_fillTable 256 0 0 (Vector.replicate 256 0) index index.isLt
  rw [if_pos ⟨Nat.zero_le _, by omega⟩, Nat.sub_zero, UInt32.zero_add] at entry
  exact entry

/-- A table step is the eight bit steps of its byte. -/
theorem toBitVec_advanceByte (state : UInt32) (byte : UInt8) :
    (advanceByte state byte).toBitVec =
      run castagnoliPolynomial state.toBitVec (byteBits byte) := by
  -- The entry reduces the low byte of the state with the byte, and the rest only moves down.
  have index : (UInt32.ofNat (state.toUInt8 ^^^ byte).toNat).toBitVec =
      ((state.toBitVec ^^^ byte.toBitVec.setWidth 32).setWidth 8).setWidth 32 := by
    have widened : UInt32.ofNat (state.toUInt8 ^^^ byte).toNat =
        (state.toUInt8 ^^^ byte).toUInt32 := UInt32.ofNat_uInt8ToNat _
    have narrowed : (byte.toBitVec.setWidth 32).setWidth 8 = byte.toBitVec := by
      rw [BitVec.setWidth_setWidth_of_le _ (by decide : 8 ≤ 32), BitVec.setWidth_eq]
    rw [widened, UInt8.toBitVec_toUInt32, UInt8.toBitVec_xor, UInt32.toBitVec_toUInt8,
      @BitVec.setWidth_xor 32 8, narrowed]
  have moved : byte.toBitVec.setWidth 32 >>> 8 = 0#32 := by
    refine BitVec.eq_of_getLsbD_eq fun position _ => ?_
    simp
  rw [run_eq_word _ (by simp), length_byteBits, word_byteBits, iterate_shiftOut_split,
    BitVec.ushiftRight_xor_distrib, moved, BitVec.xor_zero, ← index,
    ← toBitVec_repeat_advanceBit]
  unfold advanceByte
  dsimp only
  rw [get_crc32cTable, UInt32.toBitVec_xor, UInt32.toBitVec_shiftRight]
  rfl

/-- The checksum of the table is the bit-serial one. -/
theorem toBitVec_crc32cAppend (seed : UInt32) (bytes : Bytes) :
    (crc32cAppend seed bytes).toBitVec =
      Crc.checksum castagnoliPolynomial seed.toBitVec (messageBits bytes) := by
  have states (state : UInt32) : (bytes.foldl advanceByte state).toBitVec =
      run castagnoliPolynomial state.toBitVec (messageBits bytes) := by
    induction bytes generalizing state with
    | nil => rfl
    | cons byte rest ih =>
      rw [List.foldl_cons, ih, toBitVec_advanceByte, ← run_append]
      rfl
  rw [crc32cAppend, UInt32.toBitVec_not, states, UInt32.toBitVec_not]
  rfl

/-- Two byte strings differ inside one window only. -/
def DifferWithin (start width : Nat) (left right : Bytes) : Prop :=
  ∀ index, left[index]? ≠ right[index]? → start ≤ index ∧ index < start + width

/-- Strings that differ inside a window are the same before it and behind it. -/
theorem DifferWithin.split {start width : Nat} {left right : Bytes}
    (within : DifferWithin start width left right) :
    left.take start = right.take start ∧
      (left.drop start).drop width = (right.drop start).drop width := by
  have same {index : Nat} (outside : index < start ∨ start + width ≤ index) :
      left[index]? = right[index]? := by
    by_contra differ
    have inside := within index differ
    omega
  constructor
  · refine List.ext_getElem? fun index => ?_
    rw [List.getElem?_take, List.getElem?_take]
    split
    · exact same (.inl ‹_›)
    · rfl
  · refine List.ext_getElem? fun index => ?_
    rw [List.drop_drop, List.drop_drop, List.getElem?_drop, List.getElem?_drop]
    exact same (.inr (Nat.le_add_right _ _))

/--
The table-driven checksum continues, is the bit-serial one, and detects every burst of four bytes.

Each bit step is a bijection of the register, so that what follows does not undo a difference; and
four bytes are as many bits as the register has, so that no difference of theirs cancels.
-/
theorem crc32cAppend_detects_bursts :
    (∀ seed before after, crc32cAppend (crc32cAppend seed before) after =
      crc32cAppend seed (before ++ after)) ∧
    (∀ message, (crc32cAppend 0 message).toBitVec =
      Crc.checksum castagnoliPolynomial 0 (messageBits message)) ∧
    ∀ seed left right start, left.length = right.length → left ≠ right →
      DifferWithin start 4 left right → crc32cAppend seed left ≠ crc32cAppend seed right := by
  refine ⟨fun seed before after => ?_, fun message => toBitVec_crc32cAppend 0 message,
    fun seed left right start length differ within same => ?_⟩
  · rw [← UInt32.toBitVec_inj]
    simp only [toBitVec_crc32cAppend, messageBits_append, checksum_append]
  · obtain ⟨before, behind⟩ := within.split
    have whole (bytes : Bytes) : bytes =
        bytes.take start ++ (bytes.drop start).take 4 ++ (bytes.drop start).drop 4 := by
      rw [List.append_assoc, List.take_append_drop, List.take_append_drop]
    have windows : (left.drop start).take 4 ≠ (right.drop start).take 4 := by
      intro equal
      exact differ (by rw [whole left, whole right, before, equal, behind])
    have lengths : ((left.drop start).take 4).length = ((right.drop start).take 4).length := by
      simp only [List.length_take, List.length_drop, length]
    have room : (messageBits ((left.drop start).take 4)).length ≤ 32 := by
      rw [length_messageBits, List.length_take]
      omega
    refine checksum_burst msb_castagnoliPolynomial seed.toBitVec (messageBits (left.take start))
      (messageBits ((left.drop start).drop 4)) (by simp only [length_messageBits, lengths]) room
      (fun equal => windows (messageBits_injective equal)) ?_
    -- Both checks are those of the whole strings.
    rw [← messageBits_append, ← messageBits_append, ← whole left, before, behind,
      ← messageBits_append, ← messageBits_append, ← whole right, ← toBitVec_crc32cAppend,
      ← toBitVec_crc32cAppend, same]

/-- Swapping two bytes of a string changes its checksum. -/
theorem crc32cAppend_detects_swap :
    crc32cAppend 7 [1, 2, 3, 4, 5, 6] ≠ crc32cAppend 7 [1, 5, 3, 4, 2, 6] := by
  refine crc32cAppend_detects_bursts.2.2 7 _ _ 1 rfl (by decide) fun index differ => ?_
  by_contra outside
  rcases Nat.lt_or_ge index 6 with inside | past
  · interval_cases index <;> simp_all
  · simp [past] at differ

end Oxgraph.Layout

namespace Oxgraph.Layout

/-- The separator of a composite key is no decimal digit. -/
theorem colon_notMem_digits (number : Nat) : ':' ∉ number.repr.toList := by
  intro member
  rw [Nat.toList_repr] at member
  have digit := Nat.isDigit_of_mem_toDigits (by decide) (by decide) member
  exact absurd digit (by decide)

/-- A number is read back from its decimal digits. -/
theorem repr_toList_injective : Function.Injective fun number : Nat => number.repr.toList := by
  intro left right same
  simp only [Nat.toList_repr] at same
  rw [← Nat.ofDigitChars_ten_toDigits (n := left), same, Nat.ofDigitChars_ten_toDigits]

/-- Decimal byte counts in front of text, behind a colon. -/
def decimalPrefix : LengthPrefix Char where
  size := Char.utf8Size
  digits number := number.repr.toList
  separator := ':'
  size_pos := Char.utf8Size_pos
  digits_injective := repr_toList_injective
  separator_notMem := colon_notMem_digits

theorem weight_decimalPrefix (text : List Char) :
    decimalPrefix.weight text = String.utf8Len text := by
  induction text with
  | nil => rfl
  | cons letter rest ih =>
    rw [LengthPrefix.weight, List.map_cons, List.sum_cons, ← LengthPrefix.weight, ih]
    simp [decimalPrefix, Nat.add_comm]

/-- One more field is one more framed word. -/
theorem toList_pushField (key field : String) :
    (pushField key field).toList = key.toList ++ decimalPrefix.frame field.toList := by
  have weight : decimalPrefix.weight field.toList = field.utf8ByteSize := by
    rw [weight_decimalPrefix, ← String.utf8ByteSize_ofList, String.ofList_toList]
  rw [pushField, String.toList_append, String.toList_append, String.toList_append,
    LengthPrefix.frame, weight]
  simp [decimalPrefix, toString]

/-- A composite key is its fields, each behind its byte count. -/
theorem toList_encodeCompositeKey (fields : List String) :
    (encodeCompositeKey fields).toList = decimalPrefix.encode (fields.map String.toList) := by
  suffices pushed : ∀ key, (fields.foldl pushField key).toList =
      key.toList ++ decimalPrefix.encode (fields.map String.toList) by
    simpa [encodeCompositeKey] using pushed ""
  induction fields with
  | nil => simp [LengthPrefix.encode]
  | cons field rest ih =>
    intro key
    rw [List.foldl_cons, ih, toList_pushField, List.append_assoc]
    rfl

/-- Different field lists have different composite keys. -/
theorem encodeCompositeKey_inj : Function.Injective encodeCompositeKey := by
  intro left right same
  have letters := congrArg String.toList same
  rw [toList_encodeCompositeKey, toList_encodeCompositeKey] at letters
  have texts := decimalPrefix.encode_injective letters
  exact List.map_injective_iff.mpr (fun _ _ => String.toList_inj.mp) texts

end Oxgraph.Layout
