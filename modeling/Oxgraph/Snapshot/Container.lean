import Oxgraph.Lib.BinarySearch
import Oxgraph.Lib.Words

/-! The snapshot container: a header, a table of sections, and their checksummed payloads. -/

namespace Oxgraph.Container

/-- A checksum fold, seeded with a previous result. -/
abbrev Checksum32 := UInt32 → Bytes → UInt32

-- Magic bytes of the container format.
def formatMagic : Vector UInt8 8 := #v[0x4F, 0x58, 0x47, 0x54, 0x4F, 0x50, 0x4F, 0x00]
-- Format major version this library reads and writes.
def formatMajor : UInt32 := 1
-- Format minor version written.
def formatMinor : UInt32 := 0
-- Highest format minor version readable.
def maxSupportedMinor : UInt32 := 0
-- Size of the header in bytes.
def headerSize : Nat := 32
-- Size of one section table entry in bytes.
def sectionEntrySize : Nat := 32
-- Maximum payload alignment, as a power of two.
def maxAlignmentLog2 : UInt8 := 12
-- Maximum section count.
def maxSectionCount : Nat := 1024

/-- Formats a number as `0x` and zero-padded lowercase hexadecimal digits. -/
def hex (width value : Nat) : String :=
  let digits := Nat.toDigits 16 value
  "0x" ++ String.ofList (List.replicate (width - digits.length) '0' ++ digits)

/-- Errors of opening a snapshot. -/
inductive SnapshotError where
  | truncatedHeader (needed actual : Nat)
  | badMagic (actual : List UInt8)
  | formatMajorMismatch (actual supported : UInt32)
  | formatMinorTooNew (actual maxSupported : UInt32)
  | headerSizeMismatch (actual expected : UInt32)
  | nonZeroHeaderReserved
  | sectionCountTooLarge (count : UInt32) (max : Nat)
  | truncatedSectionTable (needed actual : Nat)
  | malformedSectionTable
  | nonZeroEntryReserved (kind : UInt32)
  | unsupportedFlags (kind : UInt32) (flags : UInt8)
  | alignmentLog2TooLarge (kind : UInt32) (alignmentLog2 : UInt8)
  | sectionRangeOverflow (kind : UInt32)
  | sectionOutOfBounds (kind : UInt32) (offset length : UInt64) (snapshotLen : Nat)
  | unsortedSectionTable (index : Nat)
  | nonAscendingKind (kind prev : UInt32)
  | tableChecksumMismatch (expected actual : UInt32)
  | sectionChecksumMismatch (kind expected actual : UInt32)
  | sectionMissing (kind : UInt32)
  deriving DecidableEq

/-- The text of a snapshot error. -/
def SnapshotError.display : SnapshotError → String
  | .truncatedHeader needed actual =>
    s!"snapshot header is truncated: needed {needed} bytes, got {actual}"
  | .badMagic actual => s!"bad snapshot magic: {actual}"
  | .formatMajorMismatch actual supported =>
    s!"unsupported snapshot format major: snapshot is {actual}, this reader supports {supported}"
  | .formatMinorTooNew actual maxSupported =>
    s!"snapshot format minor {actual} is newer than this reader's maximum {maxSupported}"
  | .headerSizeMismatch actual expected =>
    s!"header_size mismatch: snapshot reports {actual}, this reader expects {expected}"
  | .nonZeroHeaderReserved => "snapshot header reserved bytes are not all zero"
  | .sectionCountTooLarge count max => s!"section count {count} exceeds maximum {max}"
  | .truncatedSectionTable needed actual =>
    s!"section table is truncated: needed {needed} bytes, got {actual}"
  | .malformedSectionTable => "section table bytes are malformed"
  | .nonZeroEntryReserved kind =>
    s!"section {kind} entry trailing reserved bytes are not all zero"
  | .unsupportedFlags kind flags =>
    s!"section {kind} entry has unsupported flags byte " ++ hex 2 flags.toNat
  | .alignmentLog2TooLarge kind alignmentLog2 =>
    s!"section {kind} alignment_log2 {alignmentLog2} exceeds maximum"
  | .sectionRangeOverflow kind => s!"section {kind} offset + length overflows u64"
  | .sectionOutOfBounds kind offset length snapshotLen =>
    s!"section {kind} is out of bounds: offset {offset}, length {length}, " ++
      s!"snapshot length {snapshotLen}"
  | .unsortedSectionTable index =>
    s!"section table entry at index {index} is unsorted or overlaps its predecessor"
  | .nonAscendingKind kind prev =>
    s!"section kind {kind} is not strictly greater than its predecessor {prev}"
  | .tableChecksumMismatch expected actual =>
    "section table checksum mismatch: header records " ++ hex 8 expected.toNat ++
      ", table bytes hash to " ++ hex 8 actual.toNat
  | .sectionChecksumMismatch kind expected actual =>
    s!"section {kind} payload checksum mismatch: entry records " ++ hex 8 expected.toNat ++
      ", payload hashes to " ++ hex 8 actual.toNat
  | .sectionMissing kind => s!"snapshot section {kind} is missing"

/-- Errors of borrowing a section's payload. -/
inductive SectionViewError where
  | zeroSizedType
  | lengthNotMultipleOfSize (length elemSize : Nat)
  | alignmentMismatch (ptrAddr required : Nat)
  | checksumMismatch (kind expected actual : UInt32)
  deriving DecidableEq

/-- The text of a section view error. -/
def SectionViewError.display : SectionViewError → String
  | .zeroSizedType => "cannot borrow a section payload as a zero-sized type"
  | .lengthNotMultipleOfSize length elemSize =>
    s!"section length {length} is not a multiple of element size {elemSize}"
  | .alignmentMismatch ptrAddr required =>
    "section payload at address " ++ hex 0 ptrAddr ++ s!" is not aligned to {required}"
  | .checksumMismatch kind expected actual =>
    s!"section {kind} payload checksum mismatch: entry records " ++ hex 8 expected.toNat ++
      ", payload hashes to " ++ hex 8 actual.toNat

/-- Errors of binding a width-typed section by kind and version. -/
inductive SectionBindError where
  | missing (kind : UInt32)
  | versionMismatch (kind expected actual : UInt32)
  | view (kind : UInt32) (error : SectionViewError)
  deriving DecidableEq

/-- Errors of planning a snapshot. -/
inductive PlanError where
  | bufferTooSmall (needed actual : Nat)
  | alignmentTooLarge (alignmentLog2 : UInt8)
  | payloadOverflow
  | tooManySections (count : Nat)
  | nonAscendingKind (kind prev : UInt32)
  deriving DecidableEq

/-- Byte-level snapshot header. -/
structure RawHeader where
  magic : Vector UInt8 8
  formatMajor : UInt32
  formatMinor : UInt32
  -- Header size in bytes.
  headerSize : UInt32
  -- Number of section table entries.
  sectionCount : UInt32
  -- Checksum over the section table bytes.
  tableCrc32c : UInt32
  -- Reserved; must be zero.
  reserved : Vector UInt8 4

instance : FixedLayout RawHeader :=
  FixedLayout.ofFields
    (fun header => (header.magic, header.formatMajor, header.formatMinor, header.headerSize,
      header.sectionCount, header.tableCrc32c, header.reserved))
    (fun (magic, major, minor, size, count, crc, reserved) =>
      ⟨magic, major, minor, size, count, crc, reserved⟩)
    (fun _ => rfl) (fun _ => rfl)

/-- Byte-level section table entry. -/
structure RawSectionEntry where
  -- Byte offset and length of the payload.
  offset : UInt64
  length : UInt64
  -- Opaque section kind; kinds ascend strictly along the table.
  kind : UInt32
  version : UInt32
  -- Checksum over the payload bytes.
  crc32c : UInt32
  -- Declared payload alignment, as a power of two.
  alignmentLog2 : UInt8
  -- Reserved; must be zero.
  flags : UInt8
  reserved : Vector UInt8 2

instance : FixedLayout RawSectionEntry :=
  FixedLayout.ofFields
    (fun entry => (entry.offset, entry.length, entry.kind, entry.version, entry.crc32c,
      entry.alignmentLog2, entry.flags, entry.reserved))
    (fun (offset, length, kind, version, crc, alignment, flags, reserved) =>
      ⟨offset, length, kind, version, crc, alignment, flags, reserved⟩)
    (fun _ => rfl) (fun _ => rfl)

-- The write-through encoder.

/-- Rounds a length up to a power-of-two alignment. -/
def alignUpChecked (value : Nat) (alignmentLog2 : UInt8) : Except PlanError Nat :=
  let alignment := 2 ^ alignmentLog2.toNat
  match checkedAdd value (alignment - 1) with
  | none => .error .payloadOverflow
  | some added => .ok (added / alignment * alignment)

/-- Replaces the bytes at an offset. -/
def overwrite (buf : Bytes) (offset : Nat) (bytes : Bytes) : Bytes :=
  buf.take offset ++ bytes ++ buf.drop (offset + bytes.length)

/-- Write-through snapshot encoder over one buffer. -/
structure SnapshotWriter where
  -- Snapshot bytes; the header and the table are zero until the end.
  buf : Bytes
  -- Staged section entries.
  entries : List RawSectionEntry
  -- Reserved table capacity in entries.
  maxSections : Nat

/-- Payload sink of one section in progress. -/
structure SectionSink where
  writer : SnapshotWriter
  -- Buffer offset where the payload starts.
  start : Nat
  kind : UInt32
  version : UInt32
  -- Payload checksum folded so far.
  crc : UInt32
  alignmentLog2 : UInt8

namespace SnapshotWriter

/-- A writer whose table region reserves a number of entries. -/
def new (maxSections : Nat) : Except PlanError SnapshotWriter :=
  if maxSections > maxSectionCount then .error (.tooManySections maxSections)
  else .ok { buf := List.replicate (headerSize + maxSections * sectionEntrySize) 0
             entries := []
             maxSections }

/-- Starts a section, padding the buffer to its alignment. -/
def beginSection (writer : SnapshotWriter) (kind version : UInt32) (alignmentLog2 : UInt8) :
    Except PlanError SectionSink :=
  if alignmentLog2 > maxAlignmentLog2 then .error (.alignmentTooLarge alignmentLog2)
  else if writer.entries.length ≥ writer.maxSections then
    .error (.tooManySections (writer.entries.length + 1))
  else
    match writer.entries.getLast?.filter fun prior => kind ≤ prior.kind with
    | some prior => .error (.nonAscendingKind kind prior.kind)
    | none =>
      match alignUpChecked writer.buf.length alignmentLog2 with
      | .error error => .error error
      | .ok aligned =>
        let padding := List.replicate (aligned - writer.buf.length) 0
        .ok { writer := { writer with buf := writer.buf ++ padding }
              start := aligned, kind, version, crc := 0, alignmentLog2 }

/-- Patches the header and the table, and returns the encoded bytes. -/
def finish (writer : SnapshotWriter) (checksum : Checksum32) : Except PlanError Bytes :=
  if writer.buf.length ≥ UInt64.size then .error .payloadOverflow
  else if writer.entries.length ≥ u32Bound then .error (.tooManySections writer.entries.length)
  else
    let table := arrayBytes writer.entries
    let patched := overwrite writer.buf headerSize table
    let tableCrc := checksum 0 ((patched.drop headerSize).take
      (writer.entries.length * sectionEntrySize))
    let header : RawHeader :=
      { magic := formatMagic
        formatMajor
        formatMinor
        headerSize := .ofNat headerSize
        sectionCount := .ofNat writer.entries.length
        tableCrc32c := tableCrc
        reserved := .replicate 4 0 }
    .ok (overwrite patched 0 (asBytes header))

end SnapshotWriter

namespace SectionSink

/-- Appends raw payload bytes, folding them into the payload checksum. -/
def write (sink : SectionSink) (checksum : Checksum32) (bytes : Bytes) : SectionSink :=
  { sink with
    crc := checksum sink.crc bytes
    writer := { sink.writer with buf := sink.writer.buf ++ bytes } }

/-- Finishes the section, recording its table entry. -/
def endSection (sink : SectionSink) : Except PlanError SnapshotWriter :=
  let length := sink.writer.buf.length - sink.start
  if sink.start ≥ UInt64.size then .error .payloadOverflow
  else if length ≥ UInt64.size then .error .payloadOverflow
  else
    let entry : RawSectionEntry :=
      { offset := .ofNat sink.start
        length := .ofNat length
        kind := sink.kind
        version := sink.version
        crc32c := sink.crc
        alignmentLog2 := sink.alignmentLog2
        flags := 0
        reserved := .replicate 2 0 }
    .ok { sink.writer with entries := sink.writer.entries ++ [entry] }

end SectionSink

-- The reader.

/-- View of one validated section. -/
structure Section where
  payload : Bytes
  kind : UInt32
  version : UInt32
  crc32c : UInt32
  alignmentLog2 : UInt8

namespace Section

/-- The section of a validated entry. -/
def fromEntry (bytes : Bytes) (entry : RawSectionEntry) : Section where
  payload := (bytes.drop entry.offset.toNat).take entry.length.toNat
  kind := entry.kind
  version := entry.version
  crc32c := entry.crc32c
  alignmentLog2 := entry.alignmentLog2

/-- Verifies the payload bytes against the recorded checksum. -/
def verify (self : Section) (checksum : Checksum32) : Except SectionViewError Unit :=
  let actual := checksum 0 self.payload
  if actual = self.crc32c then .ok ()
  else .error (.checksumMismatch self.kind self.crc32c actual)

/-- Borrows the payload as an array of records, whose layouts have no alignment of their own. -/
def tryAsSlice (T : Type) [FixedLayout T] (self : Section) : Except SectionViewError (List T) :=
  match refFromBytes T self.payload with
  | none => .error (.lengthNotMultipleOfSize self.payload.length (FixedLayout.size T))
  | some records => .ok records

/-- The elements of a byte run, each of a fixed size. -/
def elements (elemSize : Nat) : Nat → Bytes → List Bytes
  | 0, _ => []
  | count + 1, bytes => bytes.take elemSize :: elements elemSize count (bytes.drop elemSize)

/-- Borrows the payload at an address as a slice of elements of a size and an alignment. -/
def tryAsSliceAt (self : Section) (elemSize required ptrAddr : Nat) :
    Except SectionViewError (List Bytes) :=
  let length := self.payload.length
  if elemSize = 0 then .error .zeroSizedType
  else if length % elemSize ≠ 0 then .error (.lengthNotMultipleOfSize length elemSize)
  -- The borrowed pointer itself is checked, not the declared alignment.
  else if ptrAddr % required ≠ 0 then .error (.alignmentMismatch ptrAddr required)
  else .ok (elements elemSize (length / elemSize) self.payload)

end Section

/-- Validated handle to a snapshot's bytes and section table. -/
structure Snapshot where
  bytes : Bytes
  formatMajor : UInt32
  formatMinor : UInt32
  tableCrc32c : UInt32
  entries : List RawSectionEntry

/-- Parses the fixed header from the start of a buffer. -/
def parseHeader (bytes : Bytes) : Except SnapshotError (RawHeader × Bytes) :=
  if bytes.length < headerSize then .error (.truncatedHeader headerSize bytes.length)
  else .ok (readFromPrefix bytes, bytes.drop headerSize)

/-- Validates the magic, the versions, the header size, and the reserved bytes. -/
def validateMagicVersionsReserved (header : RawHeader) : Except SnapshotError Unit :=
  if header.magic ≠ formatMagic then .error (.badMagic header.magic.toList)
  else if header.formatMajor ≠ formatMajor then
    .error (.formatMajorMismatch header.formatMajor formatMajor)
  else if header.formatMinor > maxSupportedMinor then
    .error (.formatMinorTooNew header.formatMinor maxSupportedMinor)
  else if header.headerSize.toNat ≠ headerSize then
    .error (.headerSizeMismatch header.headerSize (.ofNat headerSize))
  else if header.reserved ≠ .replicate 4 0 then .error .nonZeroHeaderReserved
  else .ok ()

/-- Checks each entry by itself, its bounds, and the ascending order of kinds. -/
def checkEntries (snapshotLen : Nat) :
    Option UInt32 → List RawSectionEntry → Except SnapshotError Unit
  | _, [] => .ok ()
  | prevKind, entry :: rest =>
    match prevKind.filter fun prev => entry.kind ≤ prev with
    | some prev => .error (.nonAscendingKind entry.kind prev)
    | none =>
      if entry.flags ≠ 0 then .error (.unsupportedFlags entry.kind entry.flags)
      else if entry.reserved ≠ .replicate 2 0 then .error (.nonZeroEntryReserved entry.kind)
      else if entry.alignmentLog2 > maxAlignmentLog2 then
        .error (.alignmentLog2TooLarge entry.kind entry.alignmentLog2)
      else
        match checkedAdd entry.offset.toNat entry.length.toNat with
        | none => .error (.sectionRangeOverflow entry.kind)
        | some stop =>
          if stop > snapshotLen then
            .error (.sectionOutOfBounds entry.kind entry.offset entry.length snapshotLen)
          else checkEntries snapshotLen (some entry.kind) rest

/-- Checks that payloads start after the table and never overlap a predecessor. -/
def checkLayout : Nat → Nat → List RawSectionEntry → Except SnapshotError Unit
  | _, _, [] => .ok ()
  | index, prevEnd, entry :: rest =>
    if entry.offset.toNat < prevEnd then .error (.unsortedSectionTable index)
    else checkLayout (index + 1) (entry.offset.toNat + entry.length.toNat) rest

/-- Walks the section table and checks all its invariants. -/
def validateSectionTable (bytes : Bytes) (entries : List RawSectionEntry) :
    Except SnapshotError Unit := do
  checkEntries bytes.length none entries
  checkLayout 0 (headerSize + entries.length * sectionEntrySize) entries

namespace Snapshot

/-- Opens a buffer as a structurally validated snapshot. -/
def openBytes (bytes : Bytes) : Except SnapshotError Snapshot := do
  let (header, afterHeader) ← parseHeader bytes
  validateMagicVersionsReserved header
  let sectionCount := header.sectionCount.toNat
  let tableLen := sectionCount * sectionEntrySize
  if sectionCount > maxSectionCount then
    .error (.sectionCountTooLarge header.sectionCount maxSectionCount)
  else if afterHeader.length < tableLen then
    .error (.truncatedSectionTable tableLen afterHeader.length)
  else
    match refFromBytes RawSectionEntry (afterHeader.take tableLen) with
    | none => .error .malformedSectionTable
    | some entries =>
      validateSectionTable bytes entries
      return { bytes, formatMajor := header.formatMajor, formatMinor := header.formatMinor
               tableCrc32c := header.tableCrc32c, entries }

/-- Opens a buffer structurally and verifies the header's table checksum. -/
def openChecked (bytes : Bytes) (checksum : Checksum32) : Except SnapshotError Snapshot := do
  let snapshot ← openBytes bytes
  let actual := checksum 0 (arrayBytes snapshot.entries)
  if actual ≠ snapshot.tableCrc32c then
    .error (.tableChecksumMismatch snapshot.tableCrc32c actual)
  else return snapshot

/-- The section of a kind, when present. -/
def sectionOf (snapshot : Snapshot) (kind : UInt32) : Option Section :=
  match binarySearchBy snapshot.entries fun entry => compare entry.kind kind with
  | none => none
  | some index => snapshot.entries[index]?.map (Section.fromEntry snapshot.bytes)

/-- All validated sections, in table order. -/
def sections (snapshot : Snapshot) : List Section :=
  snapshot.entries.map (Section.fromEntry snapshot.bytes)

/-- Verifies every section payload against its entry's recorded checksum. -/
def verifyAll (snapshot : Snapshot) (checksum : Checksum32) : Except SnapshotError Unit :=
  snapshot.sections.forM fun found =>
    let actual := checksum 0 found.payload
    if actual ≠ found.crc32c then .error (.sectionChecksumMismatch found.kind found.crc32c actual)
    else .ok ()

/-- Binds a section of a kind and a version as a slice of words of a size and an alignment. -/
def typedSection (snapshot : Snapshot) (kind expectedVersion : UInt32)
    (wordSize required ptrAddr : Nat) : Except SectionBindError (List Bytes) :=
  match snapshot.sectionOf kind with
  | none => .error (.missing kind)
  | some found =>
    if found.version ≠ expectedVersion then
      .error (.versionMismatch kind expectedVersion found.version)
    else (found.tryAsSliceAt wordSize required ptrAddr).mapError (.view kind)

end Snapshot

end Oxgraph.Container
