import Oxgraph.Lib.Words

/-! The index widths of the graph layouts, and their conversions to and from dense slots. -/

namespace Oxgraph.Layout

/--
An unsigned dense ID width.

A native word and a little-endian storage word are both modelled by the index they carry.
-/
class LayoutIndex (I : Type) where
  -- The bytes of a word, and the number of its values.
  bytes : Nat
  bound : Nat
  toNat : I → Nat
  ofNat : Nat → I
  toNat_lt : ∀ index, toNat index < bound
  toNat_ofNat : ∀ value, value < bound → toNat (ofNat value) = value
  ofNat_toNat : ∀ index, ofNat (toNat index) = index
  one_lt : 1 < bound
  -- Every width fits the 64-bit `usize` of the target.
  bound_le : bound ≤ usizeBound

export LayoutIndex (toNat)

attribute [simp] LayoutIndex.ofNat_toNat

section

variable {I : Type} [LayoutIndex I]

/-- Converts this ID to `usize` when representable. -/
def toUsize (index : I) : Option Nat :=
  if toNat index < usizeBound then some (toNat index) else none

/-- Converts a `usize` into this ID width when representable. -/
def fromUsize (value : Nat) : Option I :=
  if value < LayoutIndex.bound I then some (LayoutIndex.ofNat value) else none

/-- Every index is representable in `usize`. -/
@[simp] theorem toUsize_eq (index : I) : toUsize index = some (toNat index) :=
  if_pos (Nat.lt_of_lt_of_le (LayoutIndex.toNat_lt index) LayoutIndex.bound_le)

/-- A slot is representable exactly when the width has it. -/
theorem fromUsize_eq_some {value : Nat} {index : I} :
    fromUsize value = some index ↔ toNat index = value := by
  unfold fromUsize
  by_cases fits : value < LayoutIndex.bound I
  · rw [if_pos fits]
    constructor
    · rintro ⟨⟩
      exact LayoutIndex.toNat_ofNat value fits
    · rintro rfl
      rw [LayoutIndex.ofNat_toNat]
  · rw [if_neg fits]
    constructor
    · rintro ⟨⟩
    · rintro rfl
      exact absurd (LayoutIndex.toNat_lt index) fits

/-- Indices with equal slots are equal. -/
theorem toNat_injective {left right : I} (same : toNat left = toNat right) : left = right := by
  rw [← LayoutIndex.ofNat_toNat left, same, LayoutIndex.ofNat_toNat]

end

instance : LayoutIndex UInt16 where
  bytes := 2
  bound := 2 ^ 16
  toNat := UInt16.toNat
  ofNat := UInt16.ofNat
  toNat_lt := UInt16.toNat_lt
  toNat_ofNat _ fits := UInt16.toNat_ofNat_of_lt' fits
  ofNat_toNat _ := UInt16.ofNat_toNat
  one_lt := by decide
  bound_le := by decide

instance : LayoutIndex UInt32 where
  bytes := 4
  bound := 2 ^ 32
  toNat := UInt32.toNat
  ofNat := UInt32.ofNat
  toNat_lt := UInt32.toNat_lt
  toNat_ofNat _ fits := UInt32.toNat_ofNat_of_lt' fits
  ofNat_toNat _ := UInt32.ofNat_toNat
  one_lt := by decide
  bound_le := by decide

/-- The width of `u64`, and of the native `usize`, which is the same on the target. -/
instance : LayoutIndex UInt64 where
  bytes := 8
  bound := 2 ^ 64
  toNat := UInt64.toNat
  ofNat := UInt64.ofNat
  toNat_lt := UInt64.toNat_lt
  toNat_ofNat _ fits := UInt64.toNat_ofNat_of_lt' fits
  ofNat_toNat _ := UInt64.ofNat_toNat
  one_lt := by decide
  bound_le := by decide

/-- A persisted width: a fixed little-endian storage word, and a code for section kinds. -/
class SnapshotWidth (I : Type) extends LayoutIndex I, FixedLayout I where
  -- Width discriminant carried in the low two bits of a section kind.
  widthCode : UInt32
  widthCode_lt : widthCode < 3

/-- Every persisted width has a word for a tag up to two. -/
theorem two_lt_bound {W : Type} [SnapshotWidth W] : 2 < LayoutIndex.bound W := by
  -- Any bytes are those of a word, so that words of different bytes are different.
  let word (byte : UInt8) : W := FixedLayout.readFromPrefix (List.replicate (FixedLayout.size W) byte)
  have bytes (byte : UInt8) :
      FixedLayout.asBytes (word byte) = List.replicate (FixedLayout.size W) byte := by
    rw [FixedLayout.asBytes_read _ (by simp), List.take_of_length_le (by simp)]
  have apart {left right : UInt8} (different : left ≠ right) :
      toNat (word left) ≠ toNat (word right) := by
    intro same
    have equal := congrArg FixedLayout.asBytes (toNat_injective same)
    rw [bytes, bytes] at equal
    have positive : FixedLayout.size W ≠ 0 := Nat.ne_of_gt FixedLayout.size_pos
    exact different (List.replicate_right_injective positive equal)
  have zero := LayoutIndex.toNat_lt (word 0)
  have one := LayoutIndex.toNat_lt (word 1)
  have two := LayoutIndex.toNat_lt (word 2)
  have zeroOne := apart (show (0 : UInt8) ≠ 1 by decide)
  have zeroTwo := apart (show (0 : UInt8) ≠ 2 by decide)
  have oneTwo := apart (show (1 : UInt8) ≠ 2 by decide)
  omega

instance : SnapshotWidth UInt16 where
  widthCode := 0b00
  widthCode_lt := by decide

instance : SnapshotWidth UInt32 where
  widthCode := 0b01
  widthCode_lt := by decide

instance : SnapshotWidth UInt64 where
  widthCode := 0b10
  widthCode_lt := by decide

end Oxgraph.Layout
