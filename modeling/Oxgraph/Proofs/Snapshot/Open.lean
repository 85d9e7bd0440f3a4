import Oxgraph.Lib.Result
import Oxgraph.Proofs.Snapshot.Container
import Oxgraph.Snapshot.Patch

/-! Opening accepts exactly the well-formed byte strings, and nothing read from one can panic. -/

namespace Oxgraph.Container

/-- A byte string that begins with a supported header and a table of well-placed sections. -/
structure Acceptable (bytes : Bytes) (header : RawHeader) (entries : List RawSectionEntry) :
    Prop where
  begins : ∃ rest, bytes = asBytes header ++ (arrayBytes entries ++ rest)
  magic : header.magic = formatMagic
  major : header.formatMajor = formatMajor
  minor : header.formatMinor ≤ maxSupportedMinor
  size : header.headerSize.toNat = headerSize
  reserved : header.reserved = .replicate 4 0
  count : header.sectionCount.toNat = entries.length
  few : entries.length ≤ maxSectionCount
  flags : ∀ entry ∈ entries, entry.flags = 0
  zero : ∀ entry ∈ entries, entry.reserved = .replicate 2 0
  aligned : ∀ entry ∈ entries, entry.alignmentLog2 ≤ maxAlignmentLog2
  inside : ∀ entry ∈ entries, entry.stop ≤ bytes.length
  after : ∀ entry ∈ entries, headerSize + entries.length * sectionEntrySize ≤ entry.offset.toNat
  ascending : entries.Pairwise fun before after => before.kind < after.kind
  apart : entries.Pairwise fun before after => before.stop ≤ after.offset.toNat

variable {header : RawHeader}

/-- A header is valid exactly when each of its fields is the supported one. -/
theorem validateMagicVersionsReserved_eq_ok :
    validateMagicVersionsReserved header = .ok () ↔
      header.magic = formatMagic ∧ header.formatMajor = formatMajor ∧
        header.formatMinor ≤ maxSupportedMinor ∧ header.headerSize.toNat = headerSize ∧
        header.reserved = .replicate 4 0 := by
  have minor : ¬ header.formatMinor > maxSupportedMinor ↔
      header.formatMinor ≤ maxSupportedMinor := UInt32.not_lt
  rw [← minor]
  unfold validateMagicVersionsReserved
  constructor
  · intro valid
    split at valid
    · cases valid
    rename_i magic
    split at valid
    · cases valid
    rename_i major
    split at valid
    · cases valid
    rename_i tooNew
    split at valid
    · cases valid
    rename_i size
    split at valid
    · cases valid
    rename_i reserved
    exact ⟨not_not.mp magic, not_not.mp major, tooNew, not_not.mp size, not_not.mp reserved⟩
  · rintro ⟨magic, major, tooNew, size, reserved⟩
    rw [if_neg (not_not.mpr magic), if_neg (not_not.mpr major), if_neg tooNew,
      if_neg (not_not.mpr size), if_neg (not_not.mpr reserved)]

variable {bytes : Bytes} {entries : List RawSectionEntry}

/-- A table passes validation when its entries are valid, in order, apart, and past it. -/
theorem validateSectionTable_eq_ok :
    validateSectionTable bytes entries = .ok () ↔
      (∀ entry ∈ entries, entry.Valid bytes.length) ∧
        (entries.Pairwise fun before after => before.kind < after.kind) ∧
        (entries.Pairwise fun before after => before.stop ≤ after.offset.toNat) ∧
        ∀ entry ∈ entries,
          headerSize + entries.length * sectionEntrySize ≤ entry.offset.toNat := by
  unfold validateSectionTable
  rw [bind_eq_ok]
  constructor
  · rintro ⟨_, checked, laid⟩
    obtain ⟨valid, ascending, _⟩ := checkEntries_eq_ok.mp checked
    obtain ⟨apart, after⟩ := checkLayout_eq_ok.mp laid
    exact ⟨valid, ascending, apart, after⟩
  · rintro ⟨valid, ascending, apart, after⟩
    exact ⟨(), checkEntries_eq_ok.mpr ⟨valid, ascending, by simp⟩,
      checkLayout_eq_ok.mpr ⟨apart, after⟩⟩

variable {snapshot : Snapshot}

/-- What is opened was acceptable, and is kept as it is. -/
theorem acceptable_of_open (opened : Snapshot.openBytes bytes = .ok snapshot) :
    (∃ header, Acceptable bytes header snapshot.entries) ∧ snapshot.bytes = bytes ∧
      ∀ entry ∈ snapshot.entries, entry.Valid bytes.length := by
  unfold Snapshot.openBytes at opened
  obtain ⟨⟨header, afterHeader⟩, parsed, opened⟩ := bind_eq_ok.mp opened
  obtain ⟨_, valid, opened⟩ := bind_eq_ok.mp opened
  obtain ⟨magic, major, minor, size, reserved⟩ := validateMagicVersionsReserved_eq_ok.mp valid
  unfold parseHeader at parsed
  split at parsed
  · cases parsed
  rename_i long
  cases parsed
  dsimp only at opened
  split at opened
  · cases opened
  rename_i few
  split at opened
  · cases opened
  rename_i whole
  split at opened
  · cases opened
  rename_i entries borrowed
  obtain ⟨_, table, opened⟩ := bind_eq_ok.mp opened
  cases opened
  obtain ⟨validEntries, ascending, apart, after⟩ := validateSectionTable_eq_ok.mp table
  have width : FixedLayout.size RawSectionEntry = sectionEntrySize := rfl
  have tableBytes := arrayBytes_of_refFromBytes borrowed
  have count : (readFromPrefix bytes : RawHeader).sectionCount.toNat = entries.length := by
    have length := congrArg List.length tableBytes
    rw [length_arrayBytes, width, List.length_take, Nat.min_eq_left (Nat.le_of_not_lt whole)]
      at length
    exact (Nat.eq_of_mul_eq_mul_right (by decide) length).symm
  have headerBytes : asBytes (readFromPrefix bytes : RawHeader) = bytes.take headerSize :=
    FixedLayout.asBytes_read bytes (Nat.le_of_not_lt long)
  refine ⟨⟨readFromPrefix bytes, ?_⟩, rfl, validEntries⟩
  exact {
    begins := ⟨(bytes.drop headerSize).drop
      ((readFromPrefix bytes : RawHeader).sectionCount.toNat * sectionEntrySize), by
        rw [headerBytes, tableBytes, List.take_append_drop, List.take_append_drop]⟩
    magic, major, minor, size, reserved, count
    few := by
      rw [← count]
      exact Nat.le_of_not_lt few
    flags := fun entry member => (validEntries entry member).flags
    zero := fun entry member => (validEntries entry member).zero
    aligned := fun entry member => UInt8.not_lt.mp (validEntries entry member).aligned
    inside := fun entry member => (validEntries entry member).inside
    after, ascending, apart }

/-- What is acceptable, its payloads in the address range, opens to its header and its table. -/
theorem Acceptable.openBytes_eq (acceptable : Acceptable bytes header entries)
    (range : ∀ entry ∈ entries, entry.stop < usizeBound) :
    Snapshot.openBytes bytes =
      .ok { bytes, formatMajor := header.formatMajor, formatMinor := header.formatMinor
            tableCrc32c := header.tableCrc32c, entries } := by
  obtain ⟨rest, begins⟩ := acceptable.begins
  have width : FixedLayout.size RawSectionEntry = sectionEntrySize := rfl
  have headerBytes : (asBytes header).length = headerSize := FixedLayout.length_asBytes header
  have tableBytes : (arrayBytes entries).length = entries.length * sectionEntrySize := by
    rw [length_arrayBytes, width]
  have parsed : parseHeader bytes = .ok (header, arrayBytes entries ++ rest) := by
    unfold parseHeader
    rw [if_neg (by rw [begins, List.length_append, headerBytes]; omega), begins,
      FixedLayout.read_asBytes, List.drop_left' headerBytes]
  have valid : validateMagicVersionsReserved header = .ok () :=
    validateMagicVersionsReserved_eq_ok.mpr
      ⟨acceptable.magic, acceptable.major, acceptable.minor, acceptable.size, acceptable.reserved⟩
  have table : validateSectionTable bytes entries = .ok () :=
    validateSectionTable_eq_ok.mpr ⟨fun entry member =>
      { flags := acceptable.flags entry member
        zero := acceptable.zero entry member
        aligned := UInt8.not_lt.mpr (acceptable.aligned entry member)
        range := range entry member
        inside := acceptable.inside entry member },
      acceptable.ascending, acceptable.apart, acceptable.after⟩
  unfold Snapshot.openBytes
  rw [parsed]
  simp only [bind, Except.bind, valid, acceptable.count]
  rw [if_neg (Nat.not_lt.mpr acceptable.few), if_neg (by simp [tableBytes]), ← tableBytes,
    List.take_left, refFromBytes_arrayBytes]
  simp only [table]
  rfl

/-- Whatever is acceptable opens, to its own table. -/
theorem Acceptable.opens (acceptable : Acceptable bytes header entries)
    (fits : bytes.length < usizeBound) :
    ∃ snapshot, Snapshot.openBytes bytes = .ok snapshot ∧ snapshot.entries = entries :=
  ⟨_, acceptable.openBytes_eq fun entry member =>
    Nat.lt_of_le_of_lt (acceptable.inside entry member) fits, rfl⟩

-- What an opened snapshot answers.

/-- Cutting a run of bytes into elements keeps all of it, an element size at a time. -/
theorem elements_spec {elemSize count : Nat} (whole : bytes.length = count * elemSize) :
    (Section.elements elemSize count bytes).length = count ∧
      (∀ element ∈ Section.elements elemSize count bytes, element.length = elemSize) ∧
      (Section.elements elemSize count bytes).flatten = bytes := by
  induction count generalizing bytes with
  | zero =>
    rw [Nat.zero_mul] at whole
    simp [Section.elements, List.eq_nil_of_length_eq_zero whole]
  | succ count ih =>
    rw [Nat.add_mul, Nat.one_mul] at whole
    obtain ⟨length, sizes, flat⟩ := @ih (bytes.drop elemSize) (by
      rw [List.length_drop]
      omega)
    rw [Section.elements, List.length_cons, length, List.forall_mem_cons, List.flatten_cons, flat,
      List.take_append_drop, List.length_take]
    exact ⟨rfl, ⟨by omega, sizes⟩, rfl⟩

/-- A slice borrowed from a section covers its payload exactly. -/
theorem tryAsSliceAt_spec {found : Section} {elemSize required ptrAddr : Nat} {slice : List Bytes}
    (borrowed : found.tryAsSliceAt elemSize required ptrAddr = .ok slice) :
    slice.length * elemSize = found.payload.length ∧
      (∀ element ∈ slice, element.length = elemSize) ∧ slice.flatten = found.payload := by
  unfold Section.tryAsSliceAt at borrowed
  dsimp only at borrowed
  split at borrowed
  · cases borrowed
  split at borrowed
  · cases borrowed
  rename_i whole
  split at borrowed
  · cases borrowed
  cases borrowed
  have exactly : found.payload.length / elemSize * elemSize = found.payload.length :=
    Nat.div_mul_cancel (Nat.dvd_of_mod_eq_zero (not_not.mp whole))
  obtain ⟨length, sizes, flat⟩ := elements_spec exactly.symm
  rw [length]
  exact ⟨exactly, sizes, flat⟩

/-- A snapshot whose sections are all where the table says, each found by its kind. -/
structure SoundView (bytes : Bytes) (snapshot : Snapshot) : Prop where
  same : snapshot.bytes = bytes
  inside : ∀ entry ∈ snapshot.entries, entry.stop ≤ bytes.length
  after : ∀ entry ∈ snapshot.entries,
    headerSize + snapshot.entries.length * sectionEntrySize ≤ entry.offset.toNat
  -- Each payload ends before every later one starts, so they are disjoint and increase.
  apart : snapshot.entries.Pairwise fun before after => before.stop ≤ after.offset.toNat
  ascending : snapshot.entries.Pairwise fun before after => before.kind < after.kind
  lengths : ∀ entry ∈ snapshot.entries,
    (Section.fromEntry bytes entry).payload.length = entry.length.toNat
  search : ∀ kind, snapshot.sectionOf kind =
    snapshot.sections.find? fun found => found.kind = kind
  slices : ∀ found ∈ snapshot.sections, ∀ elemSize required ptrAddr slice,
    found.tryAsSliceAt elemSize required ptrAddr = .ok slice →
      slice.length * elemSize = found.payload.length
  typed : ∀ kind expectedVersion wordSize required ptrAddr words,
    snapshot.typedSection kind expectedVersion wordSize required ptrAddr = .ok words →
      ∃ found ∈ snapshot.sections, found.kind = kind ∧ found.version = expectedVersion ∧
        words.length * wordSize = found.payload.length

/-- A snapshot no accessor of which panics. -/
structure PanicFree (snapshot : Snapshot) : Prop where
  sections : snapshot.sectionsOrPanic = some snapshot.sections
  found : ∀ kind, snapshot.sectionOrPanic kind = some (snapshot.sectionOf kind)
  alignment : ∀ found ∈ snapshot.sections,
    found.declaredAlignmentOrPanic = some (2 ^ found.alignmentLog2.toNat)
  slices : ∀ found ∈ snapshot.sections, ∀ elemSize required ptrAddr,
    found.tryAsSliceOrPanic elemSize required ptrAddr =
      some (found.tryAsSliceAt elemSize required ptrAddr)
  typed : ∀ kind expectedVersion wordSize required ptrAddr,
    snapshot.typedSectionOrPanic kind expectedVersion wordSize required ptrAddr =
      some (snapshot.typedSection kind expectedVersion wordSize required ptrAddr)

/-- An opened snapshot is a sound view. -/
theorem soundView_of_open (opened : Snapshot.openBytes bytes = .ok snapshot) :
    SoundView bytes snapshot := by
  obtain ⟨⟨header, acceptable⟩, same, valid⟩ := acceptable_of_open opened
  have search (kind : UInt32) : snapshot.sectionOf kind =
      snapshot.sections.find? fun found => found.kind = kind := by
    rw [sectionOf_eq_find acceptable.ascending kind]
    unfold Snapshot.sections
    rw [List.find?_map]
    rfl
  refine { same, inside := acceptable.inside, after := acceptable.after, apart := acceptable.apart
           ascending := acceptable.ascending, lengths := ?_, search, slices := ?_, typed := ?_ }
  · intro entry member
    have inside := acceptable.inside entry member
    unfold RawSectionEntry.stop at inside
    unfold Section.fromEntry
    rw [List.length_take, List.length_drop]
    omega
  · exact fun found _ elemSize required ptrAddr slice borrowed => (tryAsSliceAt_spec borrowed).1
  · intro kind expectedVersion wordSize required ptrAddr words bound
    unfold Snapshot.typedSection at bound
    cases located : snapshot.sectionOf kind with
    | none =>
      rw [located] at bound
      cases bound
    | some found =>
      rw [located] at bound
      dsimp only at bound
      split at bound
      · cases bound
      rename_i version
      rw [search] at located
      have keeps := List.find?_some located
      exact ⟨found, List.mem_of_find?_eq_some located, of_decide_eq_true keeps,
        not_not.mp version, (tryAsSliceAt_spec (mapError_eq_ok.mp bound)).1⟩

-- What could panic.

/-- The section of a valid entry is sliced out of the bytes. -/
theorem fromEntryOrPanic_eq {entry : RawSectionEntry} (valid : entry.Valid bytes.length) :
    Section.fromEntryOrPanic bytes entry = some (Section.fromEntry bytes entry) := by
  have inside := valid.inside
  unfold Section.fromEntryOrPanic sliceOf
  rw [checkedAdd_eq_some.mpr ⟨rfl, valid.range⟩]
  unfold RawSectionEntry.stop at inside
  simp only [Option.bind_eq_bind, Option.bind_some]
  rw [if_pos ⟨Nat.le_add_right _ _, inside⟩, Nat.add_sub_cancel_left]
  rfl

/-- Counting the elements of a slice never divides by zero. -/
theorem tryAsSliceOrPanic_eq (found : Section) (elemSize required ptrAddr : Nat) :
    found.tryAsSliceOrPanic elemSize required ptrAddr =
      some (found.tryAsSliceAt elemSize required ptrAddr) := by
  unfold Section.tryAsSliceOrPanic Section.tryAsSliceAt divideOrPanic
  by_cases empty : elemSize = 0
  · simp [empty]
  · simp only [if_neg empty, Option.bind_eq_bind, Option.bind_some]
    split
    · rfl
    split
    · rfl
    · rfl

/-- No accessor of an opened snapshot panics. -/
theorem panicFree_of_open (opened : Snapshot.openBytes bytes = .ok snapshot) :
    PanicFree snapshot := by
  obtain ⟨⟨header, acceptable⟩, same, valid⟩ := acceptable_of_open opened
  have entry_eq : ∀ entry ∈ snapshot.entries, Section.fromEntryOrPanic snapshot.bytes entry =
      some (Section.fromEntry snapshot.bytes entry) := by
    intro entry member
    rw [same]
    exact fromEntryOrPanic_eq (valid entry member)
  have found_eq (kind : UInt32) : snapshot.sectionOrPanic kind =
      some (snapshot.sectionOf kind) := by
    have sorted : Ascending (snapshot.entries.map RawSectionEntry.kind) :=
      List.pairwise_map.mpr (acceptable.ascending.imp fun below => Std.compare_eq_lt.mpr below)
    have search := binarySearchBy_spec (monotone_of_ascending sorted kind)
    unfold Snapshot.sectionOrPanic Snapshot.sectionOf
    cases located : binarySearchBy snapshot.entries fun entry => compare entry.kind kind with
    | none => rfl
    | some index =>
      -- The search only returns positions inside the table.
      rw [located] at search
      obtain ⟨entry, position, _⟩ := search
      have sliced := entry_eq entry (List.mem_of_getElem? position)
      simp [position, sliced]
  refine { sections := ?_, found := found_eq, alignment := ?_, typed := ?_
           slices := fun found _ => tryAsSliceOrPanic_eq found }
  · unfold Snapshot.sectionsOrPanic Snapshot.sections
    exact mapM_some entry_eq
  · intro found member
    obtain ⟨entry, inTable, rfl⟩ := List.mem_map.mp member
    have aligned := acceptable.aligned entry inTable
    have cap : entry.alignmentLog2.toNat ≤ 12 := UInt8.le_iff_toNat_le.mp aligned
    unfold Section.declaredAlignmentOrPanic shiftOneOrPanic
    exact if_pos (Nat.lt_of_le_of_lt cap (by decide))
  · intro kind expectedVersion wordSize required ptrAddr
    unfold Snapshot.typedSectionOrPanic Snapshot.typedSection
    rw [found_eq]
    cases snapshot.sectionOf kind with
    | none => rfl
    | some found =>
      simp only [Option.bind_eq_bind, Option.bind_some, tryAsSliceOrPanic_eq]
      split
      · rfl
      · rfl

/-- Opening never panics, on any bytes. -/
theorem openOrPanic_eq (bytes : Bytes) :
    Snapshot.openOrPanic bytes = some (Snapshot.openBytes bytes) := by
  unfold Snapshot.openOrPanic Snapshot.openBytes
  cases parsed : parseHeader bytes with
  | error error => rfl
  | ok result =>
    obtain ⟨header, afterHeader⟩ := result
    simp only [bind, Except.bind]
    cases validateMagicVersionsReserved header with
    | error error => rfl
    | ok _ =>
      dsimp only
      by_cases many : header.sectionCount.toNat > maxSectionCount
      · simp only [if_pos many]
      rw [if_neg many, if_neg many]
      -- The count is capped before the table length is computed from it.
      have product : checkedMul header.sectionCount.toNat sectionEntrySize =
          some (header.sectionCount.toNat * sectionEntrySize) := by
        have most : maxSectionCount = 1024 := rfl
        have width : sectionEntrySize = 32 := rfl
        unfold checkedMul
        rw [if_pos (by rw [width, usizeBound]; omega)]
      rw [product]
      dsimp only
      by_cases short : afterHeader.length < header.sectionCount.toNat * sectionEntrySize
      · simp only [if_pos short]
      rw [if_neg short, if_neg short]
      have slice : sliceOf afterHeader 0 (header.sectionCount.toNat * sectionEntrySize) =
          some (afterHeader.take (header.sectionCount.toNat * sectionEntrySize)) := by
        unfold sliceOf
        rw [if_pos ⟨Nat.zero_le _, Nat.le_of_not_lt short⟩, List.drop_zero, Nat.sub_zero]
      rw [slice]
      simp only [Option.bind_some]
      cases refFromBytes RawSectionEntry
        (afterHeader.take (header.sectionCount.toNat * sectionEntrySize)) with
      | none => rfl
      | some entries =>
        dsimp only
        cases validateSectionTable bytes entries with
        | error error => rfl
        | ok _ => rfl

/-- Opening any bytes fails or gives a sound view that nothing can panic on, and it fails on
nothing acceptable. -/
theorem open_hostile_bytes :
    (∀ bytes, Snapshot.openOrPanic bytes = some (Snapshot.openBytes bytes)) ∧
    (∀ bytes checksum snapshot, Snapshot.openBytes bytes = .ok snapshot ∨
        Snapshot.openChecked bytes checksum = .ok snapshot →
      SoundView bytes snapshot ∧ PanicFree snapshot) ∧
    ∀ bytes header entries, bytes.length < usizeBound → Acceptable bytes header entries →
      ∃ snapshot, Snapshot.openBytes bytes = .ok snapshot ∧ snapshot.entries = entries := by
  refine ⟨openOrPanic_eq, ?_, fun bytes header entries fits acceptable => acceptable.opens fits⟩
  intro bytes checksum snapshot either
  have opened : Snapshot.openBytes bytes = .ok snapshot := by
    rcases either with opened | checked
    · exact opened
    · obtain ⟨first, opened, checked⟩ := bind_eq_ok.mp checked
      dsimp only at checked
      split at checked
      · cases checked
      · cases checked
        exact opened
  exact ⟨soundView_of_open opened, panicFree_of_open opened⟩

/-- A header and a table of one section, over a payload of one byte, open. -/
theorem open_hostile_bytes_one : ∃ snapshot,
    Snapshot.openBytes (asBytes (⟨formatMagic, 1, 0, 32, 1, 7, #v[0, 0, 0, 0]⟩ : RawHeader) ++
      (arrayBytes [(⟨64, 1, 5, 2, 3, 0, 0, #v[0, 0]⟩ : RawSectionEntry)] ++ [9])) = .ok snapshot ∧
    snapshot.entries = [⟨64, 1, 5, 2, 3, 0, 0, #v[0, 0]⟩] :=
  open_hostile_bytes.2.2 _ ⟨formatMagic, 1, 0, 32, 1, 7, #v[0, 0, 0, 0]⟩ _ (by decide +kernel)
    { begins := ⟨[9], rfl⟩, magic := rfl, major := rfl, minor := by decide, size := rfl
      reserved := rfl, count := rfl, few := by decide, flags := by simp
      zero := List.forall_mem_singleton.mpr rfl
      aligned := by simp, inside := by decide +kernel, after := by decide +kernel
      ascending := by simp, apart := by simp }

end Oxgraph.Container
