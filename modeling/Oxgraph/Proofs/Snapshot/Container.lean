import Oxgraph.Snapshot.Plan

/-! What a writer lays out, a reader finds: every planned section, and no other. -/

namespace Oxgraph.Container

/-- The laws a checksum fold satisfies: it continues, and a fresh fold of nothing is zero. -/
structure Lawful (checksum : Checksum32) : Prop where
  continues : ∀ seed before after, checksum (checksum seed before) after =
    checksum seed (before ++ after)
  nothing : checksum 0 [] = 0

namespace RawSectionEntry

/-- The end of an entry's payload. -/
def stop (entry : RawSectionEntry) : Nat := entry.offset.toNat + entry.length.toNat

/-- The bytes of an entry's payload. -/
def payload (entry : RawSectionEntry) (buf : Bytes) : Bytes :=
  (buf.drop entry.offset.toNat).take entry.length.toNat

/-- The section an entry describes in a buffer. -/
def described (buf : Bytes) (entry : RawSectionEntry) : PendingSection :=
  { kind := entry.kind, version := entry.version, alignmentLog2 := entry.alignmentLog2
    payload := entry.payload buf }

/-- An entry describes a payload that lies in a buffer, past a number of reserved bytes. -/
structure Laid (checksum : Checksum32) (buf : Bytes) (reserved : Nat) (entry : RawSectionEntry) :
    Prop where
  crc32c : entry.crc32c = checksum 0 (entry.payload buf)
  after : reserved ≤ entry.offset.toNat
  inside : entry.stop ≤ buf.length
  flags : entry.flags = 0
  zero : entry.reserved = .replicate 2 0
  aligned : ¬ entry.alignmentLog2 > maxAlignmentLog2
  multiple : entry.offset.toNat % 2 ^ entry.alignmentLog2.toNat = 0

/-- What a reader checks of an entry by itself, in a snapshot of a length. -/
structure Valid (len : Nat) (entry : RawSectionEntry) : Prop where
  flags : entry.flags = 0
  zero : entry.reserved = .replicate 2 0
  aligned : ¬ entry.alignmentLog2 > maxAlignmentLog2
  range : entry.stop < usizeBound
  inside : entry.stop ≤ len

variable {entry : RawSectionEntry}

/-- What is laid out in a buffer of a representable length is valid in it. -/
theorem Laid.valid {checksum : Checksum32} {buf : Bytes} {reserved : Nat}
    (laid : entry.Laid checksum buf reserved) (fits : buf.length < usizeBound) :
    entry.Valid buf.length :=
  ⟨laid.flags, laid.zero, laid.aligned, Nat.lt_of_le_of_lt laid.inside fits, laid.inside⟩

/-- More bytes at the end of a buffer leave a payload inside it alone. -/
theorem payload_append {buf : Bytes} (inside : entry.stop ≤ buf.length) (more : Bytes) :
    entry.payload (buf ++ more) = entry.payload buf := by
  unfold stop at inside
  unfold payload
  rw [List.drop_append_of_le_length (by omega), List.take_append_of_le_length (by simp; omega)]

/-- More bytes at the end of a buffer leave what is laid out in it alone. -/
theorem Laid.append {checksum : Checksum32} {buf : Bytes} {reserved : Nat}
    (laid : entry.Laid checksum buf reserved) (more : Bytes) :
    entry.Laid checksum (buf ++ more) reserved := by
  refine { laid with crc32c := ?_, inside := ?_ }
  · rw [payload_append laid.inside]
    exact laid.crc32c
  · rw [List.length_append]
    exact Nat.le_trans laid.inside (Nat.le_add_right _ _)

end RawSectionEntry

/-- A writer has laid out exactly the planned sections. -/
structure Wrote (checksum : Checksum32) (writer : SnapshotWriter)
    (planned : List PendingSection) : Prop where
  planned : writer.entries.map (RawSectionEntry.described writer.buf) = planned
  laid : ∀ entry ∈ writer.entries, entry.Laid checksum writer.buf
    (headerSize + writer.maxSections * sectionEntrySize)
  ascending : writer.entries.Pairwise fun before after => before.kind < after.kind
  apart : writer.entries.Pairwise fun before after => before.stop ≤ after.offset.toNat
  room : headerSize + writer.maxSections * sectionEntrySize ≤ writer.buf.length
  capacity : writer.entries.length ≤ writer.maxSections
  limit : writer.maxSections ≤ maxSectionCount

variable {checksum : Checksum32} {writer : SnapshotWriter}

/-- A new writer has laid out nothing. -/
theorem wrote_new {maxSections : Nat} (created : SnapshotWriter.new maxSections = .ok writer) :
    Wrote checksum writer [] := by
  unfold SnapshotWriter.new at created
  split at created
  · cases created
  · rename_i within
    cases created
    exact ⟨rfl, by simp, .nil, .nil, by simp, Nat.zero_le _, Nat.le_of_not_gt within⟩

variable {planned : List PendingSection}

/-- More bytes at the end of the buffer leave what a writer has laid out alone. -/
theorem Wrote.grow (wrote : Wrote checksum writer planned) (more : Bytes) :
    Wrote checksum { writer with buf := writer.buf ++ more } planned := by
  refine { wrote with planned := ?_, laid := ?_, room := ?_ }
  · rw [← wrote.planned]
    refine List.map_congr_left fun entry member => ?_
    unfold RawSectionEntry.described
    rw [RawSectionEntry.payload_append (wrote.laid entry member).inside]
  · exact fun entry member => (wrote.laid entry member).append more
  · rw [List.length_append]
    exact Nat.le_trans wrote.room (Nat.le_add_right _ _)

/-- Rounding up never goes down, and lands on a multiple of the alignment. -/
theorem alignUpChecked_spec {value aligned : Nat} {alignmentLog2 : UInt8}
    (rounded : alignUpChecked value alignmentLog2 = .ok aligned) :
    value ≤ aligned ∧ aligned % 2 ^ alignmentLog2.toNat = 0 := by
  unfold alignUpChecked at rounded
  dsimp only at rounded
  have positive : 0 < 2 ^ alignmentLog2.toNat := Nat.two_pow_pos _
  split at rounded
  · cases rounded
  · rename_i added fits
    cases rounded
    obtain ⟨sum, _⟩ := checkedAdd_eq_some.mp fits
    have below := Nat.lt_div_mul_add (a := added) positive
    exact ⟨by omega, Nat.mul_mod_left _ _⟩

variable {entries : List RawSectionEntry}

/-- The new section ascends past the sections already laid out. -/
theorem kind_lt_of_last {kind : UInt32}
    (ascending : entries.Pairwise fun before after => before.kind < after.kind)
    (ordered : (entries.getLast?.filter fun prior => kind ≤ prior.kind) = none) :
    ∀ entry ∈ entries, entry.kind < kind := by
  intro entry member
  obtain ⟨front, last, rfl⟩ := List.eq_nil_or_concat' entries |>.resolve_left
    (List.ne_nil_of_mem member)
  have below : last.kind < kind := by
    simp only [List.getLast?_concat, Option.filter_some, ite_eq_right_iff, decide_eq_true_iff,
      reduceCtorEq, imp_false] at ordered
    rw [UInt32.lt_iff_toNat_lt]
    rw [UInt32.le_iff_toNat_le] at ordered
    omega
  rcases List.mem_append.mp member with early | final
  · have earlier := (List.pairwise_append.mp ascending).2.2 entry early last (by simp)
    rw [UInt32.lt_iff_toNat_lt] at earlier below ⊢
    omega
  · rw [List.mem_singleton] at final
    rw [final]
    exact below

/-- A section in progress: its payload ends the buffer, past everything laid out before it. -/
structure Filling (checksum : Checksum32) (sink : SectionSink) (planned : List PendingSection)
    (payload : Bytes) : Prop where
  wrote : Wrote checksum sink.writer planned
  payload : sink.writer.buf.drop sink.start = payload
  started : sink.start ≤ sink.writer.buf.length
  after : headerSize + sink.writer.maxSections * sectionEntrySize ≤ sink.start
  aligned : ¬ sink.alignmentLog2 > maxAlignmentLog2
  multiple : sink.start % 2 ^ sink.alignmentLog2.toNat = 0
  capacity : sink.writer.entries.length < sink.writer.maxSections
  above : ∀ entry ∈ sink.writer.entries, entry.kind < sink.kind
  apart : ∀ entry ∈ sink.writer.entries, entry.stop ≤ sink.start

variable {sink : SectionSink}

/-- A section begun has no payload yet, and the metadata it was begun with. -/
theorem Wrote.beginSection {kind version : UInt32} {alignmentLog2 : UInt8}
    (wrote : Wrote checksum writer planned)
    (begun : writer.beginSection kind version alignmentLog2 = .ok sink) :
    Filling checksum sink planned [] ∧ sink.kind = kind ∧ sink.version = version ∧
      sink.alignmentLog2 = alignmentLog2 ∧ sink.crc = 0 ∧
      sink.writer.entries = writer.entries ∧ sink.writer.maxSections = writer.maxSections := by
  unfold SnapshotWriter.beginSection at begun
  split at begun
  · cases begun
  rename_i notTooLarge
  split at begun
  · cases begun
  rename_i capacity
  split at begun
  · cases begun
  rename_i ordered
  split at begun
  · cases begun
  rename_i aligned rounded
  cases begun
  obtain ⟨grown, multiple⟩ := alignUpChecked_spec rounded
  have size : (writer.buf ++ List.replicate (aligned - writer.buf.length) (0 : UInt8)).length =
      aligned := by
    rw [List.length_append, List.length_replicate]
    omega
  refine ⟨⟨wrote.grow _, ?_, ?_, Nat.le_trans wrote.room grown, notTooLarge, multiple,
    Nat.lt_of_not_ge capacity, kind_lt_of_last wrote.ascending ordered, ?_⟩,
    rfl, rfl, rfl, rfl, rfl, rfl⟩
  · exact List.drop_of_length_le (Nat.le_of_eq size)
  · exact Nat.le_of_eq size.symm
  · exact fun entry member => Nat.le_trans (wrote.laid entry member).inside grown

variable {payload : Bytes}

/-- Bytes written to a section in progress extend its payload. -/
theorem Filling.write (filling : Filling checksum sink planned payload) (bytes : Bytes) :
    Filling checksum (sink.write checksum bytes) planned (payload ++ bytes) := by
  refine { filling with wrote := filling.wrote.grow bytes, payload := ?_, started := ?_ }
  · change (sink.writer.buf ++ bytes).drop sink.start = _
    rw [List.drop_append_of_le_length filling.started, filling.payload]
  · change sink.start ≤ (sink.writer.buf ++ bytes).length
    rw [List.length_append]
    exact Nat.le_trans filling.started (Nat.le_add_right _ _)

/-- A section filled chunk by chunk, in all the state its sink keeps. -/
structure Filled (checksum : Checksum32) (before after : SectionSink)
    (planned : List PendingSection) (payload : Bytes) : Prop where
  filling : Filling checksum after planned payload
  kind : after.kind = before.kind
  version : after.version = before.version
  alignmentLog2 : after.alignmentLog2 = before.alignmentLog2
  entries : after.writer.entries = before.writer.entries
  maxSections : after.writer.maxSections = before.writer.maxSections
  start : after.start = before.start

/-- Chunks written one after the other extend the payload by all of them. -/
theorem Filling.writeChunks (chunks : List Bytes)
    (filling : Filling checksum sink planned payload) :
    Filled checksum sink (chunks.foldl (fun sink bytes => sink.write checksum bytes) sink) planned
      (payload ++ chunks.flatten) := by
  induction chunks generalizing sink payload with
  | nil =>
    rw [List.flatten_nil, List.append_nil]
    exact ⟨filling, rfl, rfl, rfl, rfl, rfl, rfl⟩
  | cons chunk rest ih =>
    obtain ⟨filled, kind, version, alignmentLog2, entries, maxSections, start⟩ :=
      ih (filling.write chunk)
    rw [List.append_assoc] at filled
    exact ⟨filled, kind, version, alignmentLog2, entries, maxSections, start⟩

/-- Ending a section whose checksum is its payload's lays the section out. -/
theorem Filling.endSection {after : SnapshotWriter}
    (filling : Filling checksum sink planned payload) (crc : sink.crc = checksum 0 payload)
    (ended : sink.endSection = .ok after) :
    Wrote checksum after
      (planned ++ [⟨sink.kind, sink.version, sink.alignmentLog2, payload⟩]) := by
  have wrote := filling.wrote
  unfold SectionSink.endSection at ended
  dsimp only at ended
  have run : sink.writer.buf.length - sink.start = payload.length := by
    rw [← filling.payload, List.length_drop]
  rw [run] at ended
  split at ended
  · cases ended
  rename_i startFits
  split at ended
  · cases ended
  rename_i lengthFits
  cases ended
  have start : (UInt64.ofNat sink.start).toNat = sink.start := UInt64.toNat_ofNat_of_lt' (by omega)
  have length : (UInt64.ofNat payload.length).toNat = payload.length :=
    UInt64.toNat_ofNat_of_lt' (by omega)
  -- The entry that ending the section adds to the table.
  generalize entryEq : RawSectionEntry.mk (.ofNat sink.start) (.ofNat payload.length) sink.kind
    sink.version sink.crc sink.alignmentLog2 0 (.replicate 2 0) = entry
  have offset : entry.offset.toNat = sink.start := by rw [← entryEq, start]
  have own : entry.payload sink.writer.buf = payload := by
    unfold RawSectionEntry.payload
    rw [offset, filling.payload, ← entryEq, length, List.take_length]
  have stop : entry.stop ≤ sink.writer.buf.length := by
    have started := filling.started
    unfold RawSectionEntry.stop
    rw [offset, ← entryEq]
    dsimp only
    rw [length]
    omega
  -- The old entries keep what they had; each part is shown of the new one.
  constructor
  · rw [List.map_append, List.map_singleton, wrote.planned]
    refine congrArg _ (congrArg (fun last => [last]) ?_)
    unfold RawSectionEntry.described
    rw [own, ← entryEq]
  · intro other member
    rcases List.mem_append.mp member with old | new
    · exact wrote.laid other old
    · obtain rfl := List.mem_singleton.mp new
      refine ⟨?_, ?_, stop, ?_, ?_, ?_, ?_⟩
      · rw [own, ← crc, ← entryEq]
      · rw [offset]
        exact filling.after
      · rw [← entryEq]
      · rw [← entryEq]
      · rw [← entryEq]
        exact filling.aligned
      · rw [offset, ← entryEq]
        exact filling.multiple
  · refine List.pairwise_append.mpr ⟨wrote.ascending, List.pairwise_singleton _ _, ?_⟩
    intro before member last new
    obtain rfl := List.mem_singleton.mp new
    rw [← entryEq]
    exact filling.above before member
  · refine List.pairwise_append.mpr ⟨wrote.apart, List.pairwise_singleton _ _, ?_⟩
    intro before member last new
    obtain rfl := List.mem_singleton.mp new
    rw [offset]
    exact filling.apart before member
  · exact wrote.room
  · have capacity := filling.capacity
    dsimp only
    rw [List.length_append, List.length_singleton]
    omega
  · exact wrote.limit

-- Reading back.

/-- Entries pass the reader's own checks exactly when each is valid and their kinds ascend. -/
theorem checkEntries_eq_ok {len : Nat} {prev : Option UInt32} :
    checkEntries len prev entries = .ok () ↔
      (∀ entry ∈ entries, entry.Valid len) ∧
        (entries.Pairwise fun before after => before.kind < after.kind) ∧
        ∀ kind ∈ prev, ∀ entry ∈ entries, kind < entry.kind := by
  induction entries generalizing prev with
  | nil => simp [checkEntries]
  | cons entry rest ih =>
    -- The check of one entry: its kind exceeds the one before, then its own fields.
    have own : checkEntries len prev (entry :: rest) = .ok () ↔
        (∀ kind ∈ prev, kind < entry.kind) ∧ entry.Valid len ∧
          checkEntries len (some entry.kind) rest = .ok () := by
      have ordered : (prev.filter fun kind => decide (entry.kind ≤ kind)) = none ↔
          ∀ kind ∈ prev, kind < entry.kind := by
        rw [Option.filter_eq_none_iff]
        simp [UInt32.lt_iff_toNat_lt, UInt32.le_iff_toNat_le]
      rw [checkEntries]
      cases above : prev.filter fun kind => decide (entry.kind ≤ kind) with
      | some kind =>
        have never : ¬ ∀ kind ∈ prev, kind < entry.kind := by
          rw [← ordered, above]
          exact Option.some_ne_none kind
        exact ⟨fun impossible => (nomatch impossible), fun ⟨holds, _⟩ => absurd holds never⟩
      | none =>
        have holds := ordered.mp above
        cases sum : checkedAdd entry.offset.toNat entry.length.toNat with
        | none =>
          have beyond : ¬ entry.Valid len := fun valid => by
            rw [checkedAdd_eq_some.mpr ⟨rfl, valid.range⟩] at sum
            cases sum
          simp only [beyond, false_and, and_false, iff_false]
          split_ifs <;> exact fun impossible => nomatch impossible
        | some stop =>
          obtain ⟨rfl, range⟩ := checkedAdd_eq_some.mp sum
          dsimp only
          constructor
          · intro passed
            split at passed
            · cases passed
            rename_i flags
            split at passed
            · cases passed
            rename_i zero
            split at passed
            · cases passed
            rename_i aligned
            split at passed
            · cases passed
            rename_i inside
            exact ⟨holds, ⟨not_not.mp flags, not_not.mp zero, aligned, range,
              Nat.le_of_not_lt inside⟩, passed⟩
          · rintro ⟨_, valid, passed⟩
            have inside : ¬ entry.offset.toNat + entry.length.toNat > len :=
              Nat.not_lt.mpr valid.inside
            rw [if_neg (not_not.mpr valid.flags), if_neg (not_not.mpr valid.zero),
              if_neg valid.aligned, if_neg inside]
            exact passed
    -- The kind before an entry is the largest so far, since kinds ascend.
    rw [own, ih, List.forall_mem_cons, List.pairwise_cons]
    constructor
    · rintro ⟨above, valid, others, ascending, later⟩
      refine ⟨⟨valid, others⟩, ⟨fun other member => later _ rfl other member, ascending⟩, ?_⟩
      intro kind mem other member
      rcases List.mem_cons.mp member with rfl | member
      · exact above kind mem
      · exact UInt32.lt_trans (above kind mem) (later _ rfl other member)
    · rintro ⟨⟨valid, others⟩, ⟨later, ascending⟩, above⟩
      refine ⟨fun kind mem => above kind mem entry List.mem_cons_self, valid, others, ascending, ?_⟩
      rintro kind ⟨⟩ other member
      exact later other member

/-- Payloads pass the reader's layout check exactly when they lie apart, in order. -/
theorem checkLayout_eq_ok {index prevEnd : Nat} :
    checkLayout index prevEnd entries = .ok () ↔
      (entries.Pairwise fun before after => before.stop ≤ after.offset.toNat) ∧
        ∀ entry ∈ entries, prevEnd ≤ entry.offset.toNat := by
  induction entries generalizing index prevEnd with
  | nil => simp [checkLayout]
  | cons entry rest ih =>
    rw [checkLayout, List.pairwise_cons, List.forall_mem_cons]
    by_cases early : entry.offset.toNat < prevEnd
    · simp [early, Nat.not_le.mpr early]
    · rw [if_neg early, ih]
      constructor
      · rintro ⟨apart, later⟩
        refine ⟨⟨later, apart⟩, Nat.le_of_not_lt early, fun other member => ?_⟩
        have beyond := later other member
        omega
      · rintro ⟨⟨later, apart⟩, _⟩
        exact ⟨apart, later⟩

/-- The encoded bytes are the header, the table, and what the buffer holds after them. -/
theorem finish_eq {bytes : Bytes}
    (room : headerSize + writer.entries.length * sectionEntrySize ≤ writer.buf.length)
    (finished : writer.finish checksum = .ok bytes) :
    writer.buf.length < UInt64.size ∧ ∃ header : RawHeader,
      bytes = asBytes header ++ (arrayBytes writer.entries ++
        writer.buf.drop (headerSize + writer.entries.length * sectionEntrySize)) ∧
      header = { magic := formatMagic, formatMajor, formatMinor, headerSize := .ofNat headerSize
                 sectionCount := .ofNat writer.entries.length
                 tableCrc32c := checksum 0 (arrayBytes writer.entries)
                 reserved := .replicate 4 0 } := by
  unfold SnapshotWriter.finish at finished
  split at finished
  · cases finished
  rename_i fits
  split at finished
  · cases finished
  refine ⟨Nat.lt_of_not_ge fits, _, ?_, rfl⟩
  have width : FixedLayout.size RawSectionEntry = sectionEntrySize := rfl
  have table : (arrayBytes writer.entries).length = writer.entries.length * sectionEntrySize := by
    rw [length_arrayBytes, width]
  have front : (writer.buf.take headerSize).length = headerSize := by
    rw [List.length_take]
    omega
  -- The header region is exactly the first bytes of the patched buffer.
  have patched : (overwrite writer.buf headerSize (arrayBytes writer.entries)).drop headerSize =
      arrayBytes writer.entries ++
        writer.buf.drop (headerSize + writer.entries.length * sectionEntrySize) := by
    unfold overwrite
    rw [List.append_assoc, List.drop_left' front, table]
  have headerBytes : ∀ header : RawHeader, (asBytes header).length = headerSize := fun header =>
    FixedLayout.length_asBytes header
  simp only at finished
  rw [patched, ← table, List.take_left] at finished
  cases finished
  unfold overwrite
  rw [List.take_zero, List.nil_append, Nat.zero_add, headerBytes]
  exact congrArg _ patched

/-- A finished snapshot, read back: the writer's own table, over payloads left in place. -/
structure Reopened (checksum : Checksum32) (writer : SnapshotWriter) (bytes : Bytes)
    (snapshot : Snapshot) : Prop where
  opened : Snapshot.openBytes bytes = .ok snapshot
  checked : Snapshot.openChecked bytes checksum = .ok snapshot
  same : snapshot.bytes = bytes
  entries : snapshot.entries = writer.entries
  length : bytes.length = writer.buf.length
  kept : ∀ entry ∈ writer.entries, entry.payload bytes = entry.payload writer.buf

/-- A finished snapshot opens to the table its writer laid out. -/
theorem Wrote.reopen {bytes : Bytes} (wrote : Wrote checksum writer planned)
    (finished : writer.finish checksum = .ok bytes) :
    ∃ snapshot, Reopened checksum writer bytes snapshot := by
  have width : FixedLayout.size RawSectionEntry = sectionEntrySize := rfl
  have table : (arrayBytes writer.entries).length = writer.entries.length * sectionEntrySize := by
    rw [length_arrayBytes, width]
  have few : writer.entries.length ≤ maxSectionCount :=
    Nat.le_trans wrote.capacity wrote.limit
  -- The table written may be shorter than the one reserved: it still ends before any payload.
  have used : headerSize + writer.entries.length * sectionEntrySize ≤
      headerSize + writer.maxSections * sectionEntrySize :=
    Nat.add_le_add_left (Nat.mul_le_mul_right _ wrote.capacity) _
  obtain ⟨fits, header, rfl, headerEq⟩ :=
    finish_eq (Nat.le_trans used wrote.room) finished
  have headerBytes : (asBytes header).length = headerSize := FixedLayout.length_asBytes header
  generalize contentEq : asBytes header ++ (arrayBytes writer.entries ++
    writer.buf.drop (headerSize + writer.entries.length * sectionEntrySize)) = bytes
  have length : bytes.length = writer.buf.length := by
    have room := wrote.room
    rw [← contentEq, List.length_append, List.length_append, headerBytes, table, List.length_drop]
    omega
  -- Only bytes before the payloads are overwritten.
  have kept : ∀ entry ∈ writer.entries, entry.payload bytes = entry.payload writer.buf := by
    intro entry member
    have beyond := Nat.le_trans used (wrote.laid entry member).after
    unfold RawSectionEntry.payload
    rw [← contentEq, ← List.append_assoc, List.drop_append, List.drop_of_length_le,
      List.nil_append, List.length_append, headerBytes, table, List.drop_drop,
      Nat.add_sub_cancel' beyond]
    rw [List.length_append, headerBytes, table]
    exact beyond
  have laid : ∀ entry ∈ writer.entries, entry.Laid checksum bytes
      (headerSize + writer.maxSections * sectionEntrySize) := by
    intro entry member
    have before := wrote.laid entry member
    refine { before with crc32c := ?_, inside := ?_ }
    · rw [kept entry member]
      exact before.crc32c
    · rw [length]
      exact before.inside
  have count : header.sectionCount.toNat = writer.entries.length := by
    rw [headerEq]
    exact UInt32.toNat_ofNat_of_lt' (by
      have : maxSectionCount < UInt32.size := by decide
      omega)
  -- What opening checks, in its order.
  have parsed : parseHeader bytes = .ok (header, arrayBytes writer.entries ++
      writer.buf.drop (headerSize + writer.entries.length * sectionEntrySize)) := by
    have long : ¬ bytes.length < headerSize := by
      have room := wrote.room
      omega
    unfold parseHeader
    rw [if_neg long, ← contentEq, FixedLayout.read_asBytes, List.drop_left' headerBytes]
  have valid : validateMagicVersionsReserved header = .ok () := by
    rw [headerEq]
    rfl
  have validTable : validateSectionTable bytes writer.entries = .ok () := by
    unfold validateSectionTable
    rw [checkEntries_eq_ok.mpr ⟨fun entry member => (laid entry member).valid
      (by rw [length]; exact fits), wrote.ascending, by simp⟩]
    exact checkLayout_eq_ok.mpr ⟨wrote.apart, fun entry member =>
      Nat.le_trans used (wrote.laid entry member).after⟩
  let snapshot : Snapshot :=
    { bytes, formatMajor := header.formatMajor, formatMinor := header.formatMinor
      tableCrc32c := header.tableCrc32c, entries := writer.entries }
  have opened : Snapshot.openBytes bytes = .ok snapshot := by
    unfold Snapshot.openBytes
    rw [parsed]
    simp only [bind, Except.bind, valid, count]
    rw [if_neg (Nat.not_lt.mpr few), if_neg (by simp [table]), ← table, List.take_left,
      refFromBytes_arrayBytes]
    simp only [validTable]
    rfl
  refine ⟨snapshot, opened, ?_, rfl, rfl, length, kept⟩
  have crc : header.tableCrc32c = checksum 0 (arrayBytes writer.entries) := by rw [headerEq]
  unfold Snapshot.openChecked
  rw [opened]
  change (if checksum 0 (arrayBytes writer.entries) ≠ header.tableCrc32c then _ else _) = _
  rw [crc, if_neg (not_not.mpr rfl)]
  rfl

/-- Along strictly ascending kinds, a binary search finds what a linear scan finds. -/
theorem sectionOf_eq_find {snapshot : Snapshot}
    (ascending : snapshot.entries.Pairwise fun before after => before.kind < after.kind)
    (kind : UInt32) : snapshot.sectionOf kind =
      (snapshot.entries.find? fun entry => entry.kind = kind).map
        (Section.fromEntry snapshot.bytes) := by
  have sorted : Ascending (snapshot.entries.map RawSectionEntry.kind) :=
    List.pairwise_map.mpr (ascending.imp fun below => Std.compare_eq_lt.mpr below)
  have search := binarySearchBy_spec (monotone_of_ascending sorted kind)
  unfold Snapshot.sectionOf
  cases found : binarySearchBy snapshot.entries fun entry => compare entry.kind kind with
  | none =>
    rw [found] at search
    have missing : snapshot.entries.find? (fun entry => entry.kind = kind) = none := by
      rw [List.find?_eq_none]
      intro entry member same
      refine search entry member ?_
      rw [of_decide_eq_true same]
      exact Std.ReflOrd.compare_self
    rw [missing]
    rfl
  | some index =>
    rw [found] at search
    obtain ⟨entry, located, equal⟩ := search
    have same : entry.kind = kind := Std.LawfulEqOrd.eq_of_compare equal
    have member : entry ∈ snapshot.entries := List.mem_of_getElem? located
    -- Kinds ascend strictly, so the first entry of the kind is the one found.
    have first : snapshot.entries.find? (fun entry => entry.kind = kind) = some entry := by
      cases scan : snapshot.entries.find? fun entry => entry.kind = kind with
      | none => exact absurd (decide_eq_true same) (List.find?_eq_none.mp scan entry member)
      | some other =>
        have keeps := List.find?_some scan
        have otherKind : other.kind = kind := of_decide_eq_true keeps
        have unique := List.inj_on_of_nodup_map sorted.nodup member
          (List.mem_of_find?_eq_some scan) (same.trans otherKind.symm)
        rw [unique]
    change snapshot.entries[index]?.map (Section.fromEntry snapshot.bytes) = _
    rw [located, first]

end Oxgraph.Container
