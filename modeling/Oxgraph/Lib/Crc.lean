import Mathlib.Data.BitVec
import Mathlib.Logic.Function.Iterate

/-!
Reflected cyclic redundancy checks over registers of any width.

A register takes a message bit by bit, least significant bit first. Taking a bit is linear in
exclusive or, and is a bijection of the register when the polynomial has its top bit.
-/

namespace Oxgraph.Crc

variable {w : Nat} (poly : BitVec w)

/-- Shifts one bit out of a register, and reduces by the polynomial when it was set. -/
def shiftOut (register : BitVec w) : BitVec w :=
  if register.getLsbD 0 then (register >>> 1) ^^^ poly else register >>> 1

/-- A message bit at the low end of a register. -/
def lowBit (bit : Bool) : BitVec w := (BitVec.ofBool bit).setWidth w

/-- Takes one message bit into a register. -/
def feed (register : BitVec w) (bit : Bool) : BitVec w := shiftOut poly (register ^^^ lowBit bit)

/-- Takes a message into a register. -/
def run (register : BitVec w) (message : List Bool) : BitVec w := message.foldl (feed poly) register

/-- The check of a message, with the initial and the final register complemented. -/
def checksum (seed : BitVec w) (message : List Bool) : BitVec w := ~~~run poly (~~~seed) message

/-- A message as one word, its first bit lowest. -/
def word : List Bool → BitVec w
  | [] => 0
  | bit :: rest => lowBit bit ^^^ (word rest <<< 1)

/-- The bits of a byte, least significant first. -/
def byteBits (byte : UInt8) : List Bool := (List.range 8).map byte.toBitVec.getLsbD

/-- The bits of a byte string, in the order that they are taken. -/
def messageBits (bytes : List UInt8) : List Bool := bytes.flatMap byteBits

theorem getLsbD_lowBit (bit : Bool) (index : Nat) : (lowBit bit : BitVec w).getLsbD index =
    (decide (index < w) && (decide (index = 0) && bit)) := by
  -- Only position zero of a one-bit word can be set.
  rw [lowBit, BitVec.getLsbD_setWidth, BitVec.getLsbD_ofBool]

/-- The bits of a word are those of the message, as far as the register has room. -/
theorem getLsbD_word (message : List Bool) (index : Nat) :
    (word message : BitVec w).getLsbD index = (decide (index < w) && message.getD index false) := by
  -- Each bit in front moves the word of the others up by one position.
  induction message generalizing index with
  | nil => simp [word]
  | cons bit rest ih =>
    rw [word, BitVec.getLsbD_xor, getLsbD_lowBit, BitVec.getLsbD_shiftLeft, ih]
    cases index with
    | zero => simp
    | succ index =>
      by_cases inside : index + 1 < w
      · simp [inside, Nat.lt_of_succ_lt inside]
      · simp [inside]

variable {left right : List Bool}

/-- Different messages of one length that the register has room for are different words. -/
theorem word_inj (length : left.length = right.length) (room : left.length ≤ w) :
    (word left : BitVec w) = word right ↔ left = right := by
  constructor
  · intro same
    refine List.ext_getElem length fun index inLeft inRight => ?_
    -- The words agree at every position, and each position holds one bit of its message.
    have bits := congrArg (fun register : BitVec w => register.getLsbD index) same
    have inside : index < w := by omega
    simp only [getLsbD_word, inside, decide_true, Bool.true_and] at bits
    simpa [inLeft, inRight] using bits
  · intro same
    rw [same]

-- Bytes.

@[simp] theorem length_byteBits (byte : UInt8) : (byteBits byte).length = 8 := by
  rw [byteBits, List.length_map, List.length_range]

/-- The bits of a byte at the low end of a register are the byte. -/
theorem word_byteBits (byte : UInt8) :
    (word (byteBits byte) : BitVec w) = byte.toBitVec.setWidth w := by
  refine BitVec.eq_of_getLsbD_eq fun index inside => ?_
  rw [getLsbD_word, BitVec.getLsbD_setWidth]
  by_cases low : index < 8
  · simp [byteBits, low]
  · simp [byteBits, low, BitVec.getLsbD_of_ge byte.toBitVec index (Nat.not_lt.mp low)]

theorem byteBits_injective : Function.Injective byteBits := by
  intro left right same
  -- In a register of eight bits the bits of a byte are the byte itself.
  have words := congrArg (word : List Bool → BitVec 8) same
  rw [word_byteBits, word_byteBits, BitVec.setWidth_eq, BitVec.setWidth_eq] at words
  exact UInt8.toBitVec_inj.mp words

@[simp] theorem length_messageBits (bytes : List UInt8) :
    (messageBits bytes).length = bytes.length * 8 := by
  simp [messageBits, List.length_flatMap]

theorem messageBits_append (before after : List UInt8) :
    messageBits (before ++ after) = messageBits before ++ messageBits after :=
  List.flatMap_append

theorem messageBits_injective : Function.Injective messageBits := by
  intro left right same
  have length := congrArg List.length same
  rw [length_messageBits, length_messageBits] at length
  induction left generalizing right with
  | nil => exact (List.length_eq_zero_iff.mp (by simpa using length.symm)).symm
  | cons byte rest ih =>
    cases right with
    | nil => simp at length
    | cons other others =>
      -- The first eight bits are those of the first byte.
      obtain ⟨first, behind⟩ := List.append_inj same (by simp)
      rw [byteBits_injective first, ih behind (by simpa using length)]

-- Linearity.

/-- Shifting out is linear. -/
theorem shiftOut_xor (left right : BitVec w) :
    shiftOut poly (left ^^^ right) = shiftOut poly left ^^^ shiftOut poly right := by
  -- The polynomial is added for either operand, and cancels when it is added for both.
  unfold shiftOut
  rw [BitVec.getLsbD_xor, BitVec.ushiftRight_xor_distrib]
  cases left.getLsbD 0 <;> cases right.getLsbD 0
  · simp
  · simp [BitVec.xor_assoc]
  · simp only [Bool.xor_false, if_true, if_false, Bool.false_eq_true]
    rw [BitVec.xor_assoc, BitVec.xor_assoc, BitVec.xor_comm poly]
  · simp only [Bool.xor_true, Bool.not_true, if_true, if_false, Bool.false_eq_true]
    rw [BitVec.xor_assoc, ← BitVec.xor_assoc poly, BitVec.xor_comm poly, BitVec.xor_assoc,
      BitVec.xor_self, BitVec.xor_zero]

/-- Shifting out repeatedly is linear. -/
theorem iterate_shiftOut_xor (count : Nat) (left right : BitVec w) :
    (shiftOut poly)^[count] (left ^^^ right) =
      (shiftOut poly)^[count] left ^^^ (shiftOut poly)^[count] right := by
  induction count generalizing left right with
  | zero => rfl
  | succ count ih =>
    simp only [Function.iterate_succ_apply, shiftOut_xor, ih]

/-- Bits that are clear leave a register without a reduction. -/
theorem iterate_shiftOut_clear {count : Nat} {register : BitVec w}
    (clear : ∀ index < count, register.getLsbD index = false) :
    (shiftOut poly)^[count] register = register >>> count := by
  induction count with
  | zero => simp
  | succ count ih =>
    have before := ih fun index below => clear index (Nat.lt_succ_of_lt below)
    have low : (register >>> count).getLsbD 0 = false := by
      simpa using clear count (Nat.lt_succ_self count)
    rw [Function.iterate_succ_apply', before, shiftOut, low, BitVec.shiftRight_add]
    rfl

/-- Shifting out reduces the low bits apart from the others, which only move down. -/
theorem iterate_shiftOut_split (count : Nat) (register : BitVec w) :
    (shiftOut poly)^[count] register =
      (register >>> count) ^^^ (shiftOut poly)^[count] ((register.setWidth count).setWidth w) := by
  -- A register is its high part, whose low bits are clear, plus its low part.
  have split : register = ((register >>> count) <<< count) ^^^
      (register.setWidth count).setWidth w := by
    refine BitVec.eq_of_getLsbD_eq fun index inside => ?_
    by_cases low : index < count
    · simp [low, inside]
    · have whole : count + (index - count) = index := by omega
      simp [low, inside, whole]
  have high : (((register >>> count) <<< count) >>> count : BitVec w) = register >>> count := by
    refine BitVec.eq_of_getLsbD_eq fun index inside => ?_
    by_cases room : count + index < w
    · simp [room]
    · simp [room, BitVec.getLsbD_of_ge register (count + index) (by omega)]
  conv_lhs => rw [split]
  rw [iterate_shiftOut_xor, iterate_shiftOut_clear, high]
  intro index below
  simp [below]

-- Bijectivity.

variable {poly}

/-- Shifting out loses nothing when the polynomial has its top bit. -/
theorem shiftOut_injective (top : poly.msb = true) : Function.Injective (shiftOut poly) := by
  intro left right same
  -- The top bit of the result is the bit that was shifted out.
  have shown (register : BitVec w) : (shiftOut poly register).msb = register.getLsbD 0 := by
    have shifted : (register >>> 1).msb = false := by simp
    unfold shiftOut
    cases register.getLsbD 0 <;> simp [shifted, top]
  have low : left.getLsbD 0 = right.getLsbD 0 := by
    rw [← shown, ← shown, same]
  have high : left >>> 1 = right >>> 1 := by
    unfold shiftOut at same
    rw [low] at same
    split at same
    · exact (BitVec.xor_left_inj _).mp same
    · exact same
  refine BitVec.eq_of_getLsbD_eq fun index inside => ?_
  cases index with
  | zero => exact low
  | succ index =>
    have bits := congrArg (fun register : BitVec w => register.getLsbD index) high
    simpa [Nat.add_comm] using bits

/-- Taking a bit loses nothing of the register. -/
theorem feed_injective (top : poly.msb = true) (bit : Bool) :
    Function.Injective fun register => feed poly register bit := by
  intro left right same
  exact (BitVec.xor_left_inj _).mp (shiftOut_injective top same)

/-- Taking a message loses nothing of the register. -/
theorem run_injective (top : poly.msb = true) (message : List Bool) :
    Function.Injective fun register => run poly register message := by
  induction message with
  | nil => exact fun _ _ same => same
  | cons bit rest ih => exact fun _ _ same => feed_injective top bit (ih same)

-- Messages.

/-- A message is taken after another. -/
theorem run_append (register : BitVec w) (before after : List Bool) :
    run poly register (before ++ after) = run poly (run poly register before) after :=
  List.foldl_append

/-- A message that the register has room for is taken as one word. -/
theorem run_eq_word (register : BitVec w) {message : List Bool} (room : message.length ≤ w) :
    run poly register message = (shiftOut poly)^[message.length] (register ^^^ word message) := by
  induction message generalizing register with
  | nil => simp [run, word]
  | cons bit rest ih =>
    rw [List.length_cons] at room
    -- The bits behind the first one have moved down to their places when it has been taken.
    have moved : shiftOut poly (word rest <<< 1) = word rest := by
      have clear := @iterate_shiftOut_clear w poly 1 (word rest <<< 1) (by
        intro index below
        simp [below])
      rw [Function.iterate_one] at clear
      rw [clear]
      refine BitVec.eq_of_getLsbD_eq fun index inside => ?_
      by_cases last : 1 + index < w
      · simp [last, BitVec.getLsbD_eq_getElem inside]
      · have past : rest.length ≤ index := by omega
        simp [getLsbD_word, last, past]
    have rest_room : rest.length ≤ w := by omega
    rw [List.length_cons, Function.iterate_succ_apply, word, ← BitVec.xor_assoc, shiftOut_xor,
      moved]
    exact ih (feed poly register bit) rest_room

/-- Different messages of one length that the register has room for leave different registers. -/
theorem run_inj_of_room (top : poly.msb = true) (register : BitVec w)
    (length : left.length = right.length) (room : left.length ≤ w) :
    run poly register left = run poly register right ↔ left = right := by
  constructor
  · intro same
    rw [run_eq_word register room, run_eq_word register (length ▸ room), ← length] at same
    have words := (shiftOut_injective top).iterate left.length same
    exact (word_inj length room).mp ((BitVec.xor_right_inj _).mp words)
  · intro same
    rw [same]

/-- The check of a message continues that of what was before it. -/
theorem checksum_append (seed : BitVec w) (before after : List Bool) :
    checksum poly (checksum poly seed before) after = checksum poly seed (before ++ after) := by
  unfold checksum
  rw [BitVec.not_not, run_append]

/-- Two messages that differ within a run of bits that the register has room for differ in check. -/
theorem checksum_burst (top : poly.msb = true) (seed : BitVec w) (before after : List Bool)
    (length : left.length = right.length) (room : left.length ≤ w) (differ : left ≠ right) :
    checksum poly seed (before ++ left ++ after) ≠
      checksum poly seed (before ++ right ++ after) := by
  intro same
  have registers := BitVec.not_inj.mp same
  rw [run_append, run_append, run_append, run_append] at registers
  -- What comes after cannot make up for it, as each of its bits is taken injectively.
  have burst := run_injective top after registers
  exact differ ((run_inj_of_room top _ length room).mp burst)

end Oxgraph.Crc
