import Oxgraph.Snapshot.Container

/-!
The reader's paths with everything that could panic made explicit, and patching a checksum.

Slices, indices, sums, shifts and divisions fail as `none` where the code would panic.
-/

namespace Oxgraph.Container

/-- Divides, where division by zero panics. -/
def divideOrPanic (left right : Nat) : Option Nat :=
  if right = 0 then none else some (left / right)

/-- Shifts one left in `usize`, where shifting by the width or more panics. -/
def shiftOneOrPanic (amount : Nat) : Option Nat :=
  if amount < 64 then some (2 ^ amount) else none

namespace Section

/-- The section of an entry, where a range that overflows or leaves the bytes panics. -/
def fromEntryOrPanic (bytes : Bytes) (entry : RawSectionEntry) : Option Section := do
  let stop ← checkedAdd entry.offset.toNat entry.length.toNat
  let payload ← sliceOf bytes entry.offset.toNat stop
  return { payload
           kind := entry.kind
           version := entry.version
           crc32c := entry.crc32c
           alignmentLog2 := entry.alignmentLog2 }

/-- The alignment the producer declared. -/
def declaredAlignmentOrPanic (self : Section) : Option Nat :=
  shiftOneOrPanic self.alignmentLog2.toNat

/-- Borrows the payload as a slice, where the element count is a division. -/
def tryAsSliceOrPanic (self : Section) (elemSize required ptrAddr : Nat) :
    Option (Except SectionViewError (List Bytes)) :=
  let length := self.payload.length
  if elemSize = 0 then some (.error .zeroSizedType)
  else if length % elemSize ≠ 0 then some (.error (.lengthNotMultipleOfSize length elemSize))
  else if ptrAddr % required ≠ 0 then some (.error (.alignmentMismatch ptrAddr required))
  else do
    let count ← divideOrPanic length elemSize
    return .ok (elements elemSize count self.payload)

end Section

namespace Snapshot

/-- Opens a buffer, where the table is sliced off what follows the header. -/
def openOrPanic (bytes : Bytes) : Option (Except SnapshotError Snapshot) :=
  match parseHeader bytes with
  | .error error => some (.error error)
  | .ok (header, afterHeader) =>
    match validateMagicVersionsReserved header with
    | .error error => some (.error error)
    | .ok () =>
      let sectionCount := header.sectionCount.toNat
      if sectionCount > maxSectionCount then
        some (.error (.sectionCountTooLarge header.sectionCount maxSectionCount))
      else
        match checkedMul sectionCount sectionEntrySize with
        | none => some (.error (.sectionCountTooLarge header.sectionCount maxSectionCount))
        | some tableLen =>
          if afterHeader.length < tableLen then
            some (.error (.truncatedSectionTable tableLen afterHeader.length))
          else do
            let tableBytes ← sliceOf afterHeader 0 tableLen
            match refFromBytes RawSectionEntry tableBytes with
            | none => return .error .malformedSectionTable
            | some entries =>
              match validateSectionTable bytes entries with
              | .error error => return .error error
              | .ok () =>
                return .ok { bytes, formatMajor := header.formatMajor
                             formatMinor := header.formatMinor
                             tableCrc32c := header.tableCrc32c, entries }

/-- The section of a kind, where the position found is an index into the table. -/
def sectionOrPanic (snapshot : Snapshot) (kind : UInt32) : Option (Option Section) :=
  match binarySearchBy snapshot.entries fun entry => compare entry.kind kind with
  | none => some none
  | some index => do
    let entry ← snapshot.entries[index]?
    let found ← Section.fromEntryOrPanic snapshot.bytes entry
    return some found

/-- All sections, in table order. -/
def sectionsOrPanic (snapshot : Snapshot) : Option (List Section) :=
  snapshot.entries.mapM (Section.fromEntryOrPanic snapshot.bytes)

/-- Binds a section of a kind and a version as a slice of words. -/
def typedSectionOrPanic (snapshot : Snapshot) (kind expectedVersion : UInt32)
    (wordSize required ptrAddr : Nat) : Option (Except SectionBindError (List Bytes)) := do
  match ← snapshot.sectionOrPanic kind with
  | none => return .error (.missing kind)
  | some found =>
    if found.version ≠ expectedVersion then
      return .error (.versionMismatch kind expectedVersion found.version)
    else
      let words ← found.tryAsSliceOrPanic wordSize required ptrAddr
      return words.mapError (.view kind)

end Snapshot

-- Patching.

/-- Copies bytes over a range of a buffer; a range outside the buffer panics. -/
def copyOrPanic (buf : Bytes) (offset : Nat) (bytes : Bytes) : Option Bytes :=
  if offset + bytes.length ≤ buf.length then some (overwrite buf offset bytes) else none

-- Byte offset of the checksum field of a section table entry.
def entryCrcOffset : Nat := 24
-- Byte offset of the table checksum field of the header.
def headerCrcOffset : Nat := 24

/-- The table position, the payload checksum and the table size of the section of a kind. -/
def locateSection (bytes : Bytes) (kind : UInt32) (checksum : Checksum32) :
    Option (Except SnapshotError (Nat × UInt32 × Nat)) := do
  match ← Snapshot.openOrPanic bytes with
  | .error error => return .error error
  | .ok snapshot =>
    match binarySearchBy snapshot.entries fun entry => compare entry.kind kind with
    | none => return .error (.sectionMissing kind)
    | some index =>
      let entry ← snapshot.entries[index]?
      let found ← Section.fromEntryOrPanic snapshot.bytes entry
      return .ok (headerSize + index * sectionEntrySize, checksum 0 found.payload,
        snapshot.entries.length)

/-- Recomputes and patches the checksums of one section's entry and of the table, in place. -/
def patchSectionCrc (bytes : Bytes) (kind : UInt32) (checksum : Checksum32) :
    Option (Except SnapshotError Unit × Bytes) := do
  match ← locateSection bytes kind checksum with
  | .error error => return (.error error, bytes)
  | .ok (entryOffset, payloadCrc, sectionCount) =>
    let bytes ← copyOrPanic bytes (entryOffset + entryCrcOffset) (asBytes payloadCrc)
    -- The entry changed, so the table checksum is taken over the patched table.
    let tableEnd := headerSize + sectionCount * sectionEntrySize
    let table ← sliceOf bytes headerSize tableEnd
    let bytes ← copyOrPanic bytes headerCrcOffset (asBytes (checksum 0 table))
    return (.ok (), bytes)

/-- Patches the sections of the listed kinds, one call after the other, up to the first error. -/
def patchSections (checksum : Checksum32) :
    List UInt32 → Bytes → Option (Except SnapshotError Unit × Bytes)
  | [], bytes => some (.ok (), bytes)
  | kind :: rest, bytes => do
    let (result, patched) ← patchSectionCrc bytes kind checksum
    match result with
    | .error error => return (.error error, patched)
    | .ok () => patchSections checksum rest patched

end Oxgraph.Container
