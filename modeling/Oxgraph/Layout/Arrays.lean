import Oxgraph.Layout.Index
import Oxgraph.Lib.Result
import Oxgraph.Lib.Words
import Oxgraph.Snapshot.Plan

/-! The table-driven checksum and the composite keys of layout crates, and offset and value arrays. -/

namespace Oxgraph.Layout

/-- Advances a checksum by one bit, with a mask in place of a branch. -/
def advanceBit (crc : UInt32) : UInt32 :=
  let mask := -(crc &&& 1)
  (crc >>> 1) ^^^ (0x82F63B78 &&& mask)

/-- Fills as many entries from an index on, each with the checksum of the seed at its index. -/
def fillTable : Nat → Nat → UInt32 → Vector UInt32 256 → Vector UInt32 256
  | 0, _, _, table => table
  | count + 1, index, seed, table =>
    fillTable count (index + 1) (seed + 1)
      (table.setIfInBounds index (Nat.repeat advanceBit 8 seed))

/-- Builds the 256-entry table. -/
def buildCrc32cTable : Vector UInt32 256 := fillTable 256 0 0 (Vector.replicate 256 0)

/-- Lookup table for the byte-at-a-time computation. -/
def crc32cTable : Vector UInt32 256 := buildCrc32cTable

/-- Advances a state by one byte, by the entry of its low byte and of the byte. -/
def advanceByte (state : UInt32) (byte : UInt8) : UInt32 :=
  let index := (state.toUInt8 ^^^ byte).toFin
  (state >>> 8) ^^^ crc32cTable.get index

/-- Continues a checksum over bytes, seeded with the result of a prior call. -/
def crc32cAppend (crc : UInt32) (bytes : Bytes) : UInt32 := ~~~bytes.foldl advanceByte (~~~crc)

end Oxgraph.Layout

-- Composite keys.

namespace Oxgraph.Layout

/-- Appends one field to a key, behind its byte count. -/
def pushField (key field : String) : String := key ++ toString field.utf8ByteSize ++ ":" ++ field

/-- Encodes fields into one string that is injective in the field tuple. -/
def encodeCompositeKey (fields : List String) : String := fields.foldl pushField ""

end Oxgraph.Layout

-- Offset and value arrays: built from buckets, written to snapshots, and checked when opened.

namespace Oxgraph.Layout

open Container (Checksum32 PlanError SectionBindError SnapshotWriter)

variable {I : Type} [LayoutIndex I]

-- Build time.

/-- Reasons an ID fails dense bounds validation. -/
inductive IdOutOfBounds where
  | usizeOverflow
  | outOfRange (slot count : Nat)
  deriving DecidableEq

/-- Validates that an ID's slot is less than a count. -/
def idToSlot (id : I) (count : Nat) : Except IdOutOfBounds Nat :=
  match toUsize id with
  | none => .error .usizeOverflow
  | some slot => if slot < count then .ok slot else .error (.outOfRange slot count)

/-- The slot of an ID, or the largest `usize` when it does not fit. -/
def slotOrMax (id : I) : Nat := (toUsize id).getD (usizeBound - 1)

/-- Converts a slot into an index; the error is the value that does not fit the width. -/
def indexFromUsize (value : Nat) : Except Nat I :=
  match fromUsize value with
  | none => .error value
  | some index => .ok index

/-- Allocates the next dense ID from a counter and advances it; the error is the overflow. -/
def nextDenseIndex (counter : Nat) : Except Nat (I × Nat) := do
  let id ← indexFromUsize counter
  match checkedAdd counter 1 with
  | none => .error (usizeBound - 1)
  | some advanced => .ok (id, advanced)

/-- Appends each bucket's items, and the offset where it ends. -/
def flattenBuckets {T : Type} : List (List T) → List I × List T → Except Nat (List I × List T)
  | [], built => .ok built
  | bucket :: rest, (offsets, items) => do
    let items := items ++ bucket
    let offset ← indexFromUsize items.length
    flattenBuckets rest (offsets ++ [offset], items)

/-- Flattens buckets into offsets and items. -/
def buildOffsetIndex {T : Type} (buckets : List (List T)) : Except Nat (List I × List T) := do
  let first ← indexFromUsize 0
  flattenBuckets buckets ([first], [])

-- Read time.

/-- Reasons a borrowed offset or value array fails structural validation. -/
inductive OffsetIntegrityIssue where
  | length (expected actual : Nat)
  | countOverflow (count : Nat)
  | firstNonZero (actual : Nat)
  | nonMonotonic (index previous actual : Nat)
  | finalMismatch (finalOffset valueLen : Nat)
  | valueOutOfRange (index value bound : Nat)
  | usizeOverflow (index : Nat)
  deriving DecidableEq

/-- Checks the offsets from an index on against the previous one. -/
def checkMonotonicFrom (index previous : Nat) : List I → Except OffsetIntegrityIssue Unit
  | [] => .ok ()
  | word :: rest =>
    match toUsize word with
    | none => .error (.usizeOverflow index)
    | some offset =>
      if index = 0 then
        if offset ≠ 0 then .error (.firstNonZero offset)
        else checkMonotonicFrom (index + 1) offset rest
      else if offset < previous then .error (.nonMonotonic index previous offset)
      else checkMonotonicFrom (index + 1) offset rest

/-- Verifies that the first offset is zero and that offsets never descend. -/
def checkOffsetsMonotonic (offsets : List I) : Except OffsetIntegrityIssue Unit :=
  checkMonotonicFrom 0 0 offsets

/-- Checks the values from an index on against a bound. -/
def checkValuesFrom (bound index : Nat) : List I → Except OffsetIntegrityIssue Unit
  | [] => .ok ()
  | word :: rest =>
    match toUsize word with
    | none => .error (.usizeOverflow index)
    | some value =>
      if value ≥ bound then .error (.valueOutOfRange index value bound)
      else checkValuesFrom bound (index + 1) rest

/-- Verifies that every value is less than a bound. -/
def checkValueRange (values : List I) (bound : Nat) : Except OffsetIntegrityIssue Unit :=
  checkValuesFrom bound 0 values

/-- Validates one offset section against a count of rows and a number of values. -/
def checkOffsetSection (offsets : List I) (expectedCount valueLen : Nat) :
    Fallible OffsetIntegrityIssue Unit :=
  match checkedAdd expectedCount 1 with
  | none => throw (.countOverflow expectedCount)
  | some expected =>
    if offsets.length ≠ expected then throw (.length expected offsets.length)
    else do
      .ofResult (checkOffsetsMonotonic offsets)
      let finalIndex := offsets.length - 1
      let word ← .orPanic offsets[finalIndex]?
      match toUsize word with
      | none => throw (.usizeOverflow finalIndex)
      | some finalOffset =>
        if finalOffset ≠ valueLen then throw (.finalMismatch finalOffset valueLen)
        else return ()

-- After validation.

/-- Converts a previously validated index to `usize`, or panics. -/
def indexToUsizeValidated (index : I) : Option Nat := toUsize index

/-- Converts a previously validated slot to an index, or panics. -/
def usizeToIndexValidated (value : Nat) : Option I := fromUsize value

/-- Subtraction that panics below zero. -/
def subOrPanic (left right : Nat) : Option Nat :=
  if right ≤ left then some (left - right) else none

-- Snapshots.

/-- Writes one whole section of raw bytes. -/
def sectionBytes (checksum : Checksum32) (writer : SnapshotWriter) (kind version : UInt32)
    (alignmentLog2 : UInt8) (bytes : Bytes) : Except PlanError SnapshotWriter := do
  let sink ← writer.beginSection kind version alignmentLog2
  (sink.write checksum bytes).endSection

/-- Writes one whole section of index words, which have no alignment of their own. -/
def sectionWidths {W : Type} [FixedLayout W] (writer : SnapshotWriter) (checksum : Checksum32)
    (kind version : UInt32) (words : List W) : Except PlanError SnapshotWriter := do
  let sink ← writer.beginSection kind version 0
  (sink.write checksum (arrayBytes words)).endSection

/-- Binds a section of index words, which may lie at any address. -/
def typedWords (W : Type) [FixedLayout W] (snapshot : Container.Snapshot) (kind version : UInt32) :
    Except SectionBindError (List W) := do
  let elements ← snapshot.typedSection kind version (FixedLayout.size W) 1 0
  return elements.map readFromPrefix

end Oxgraph.Layout
