import Oxgraph.Proofs.Snapshot.Open
import Oxgraph.Proofs.Snapshot.Stream

/-! A header and the checksums under it decide every byte that a reader's answers depend on. -/

namespace Oxgraph.Container

variable {checksum : Checksum32}

/-- A byte string that opens, and whose table and payloads all verify. -/
structure Intact (checksum : Checksum32) (bytes : Bytes) (snapshot : Snapshot) : Prop where
  opened : Snapshot.openChecked bytes checksum = .ok snapshot
  verified : snapshot.verifyAll checksum = .ok ()

/-- Acceptable bytes whose header and entries record the checksums of what lies in them. -/
structure Sealed (checksum : Checksum32) (bytes : Bytes) (header : RawHeader)
    (entries : List RawSectionEntry) : Prop where
  acceptable : Acceptable bytes header entries
  range : ∀ entry ∈ entries, entry.stop < usizeBound
  table : checksum 0 (arrayBytes entries) = header.tableCrc32c
  payloads : ∀ entry ∈ entries, checksum 0 (entry.payload bytes) = entry.crc32c

-- What the two checks establish.

variable {bytes : Bytes} {snapshot : Snapshot}

/-- Bytes open to exactly the header and the table they begin with. -/
theorem openBytes_eq_ok :
    Snapshot.openBytes bytes = .ok snapshot ↔ ∃ header,
      Acceptable bytes header snapshot.entries ∧
      (∀ entry ∈ snapshot.entries, entry.stop < usizeBound) ∧
      snapshot = { bytes, formatMajor := header.formatMajor, formatMinor := header.formatMinor
                   tableCrc32c := header.tableCrc32c, entries := snapshot.entries } := by
  constructor
  · intro opened
    obtain ⟨⟨header, acceptable⟩, _, valid⟩ := acceptable_of_open opened
    have range := fun entry member => (valid entry member).range
    refine ⟨header, acceptable, range, ?_⟩
    -- The header is the only one the bytes can begin with, so both openings agree.
    have other := acceptable.openBytes_eq range
    rw [opened] at other
    exact Except.ok.inj other
  · rintro ⟨header, acceptable, range, same⟩
    rw [same]
    exact acceptable.openBytes_eq range

/-- A checked opening is an opening whose table hashes to what the header records. -/
theorem openChecked_eq_ok :
    Snapshot.openChecked bytes checksum = .ok snapshot ↔
      Snapshot.openBytes bytes = .ok snapshot ∧
        checksum 0 (arrayBytes snapshot.entries) = snapshot.tableCrc32c := by
  unfold Snapshot.openChecked
  rw [bind_eq_ok]
  constructor
  · rintro ⟨first, opened, checked⟩
    dsimp only at checked
    split at checked
    · cases checked
    · rename_i matching
      cases checked
      exact ⟨opened, not_not.mp matching⟩
  · rintro ⟨opened, matching⟩
    refine ⟨snapshot, opened, ?_⟩
    dsimp only
    rw [if_neg (not_not.mpr matching)]
    rfl

/-- Every payload verifies exactly when each entry records its own payload's checksum. -/
theorem verifyAll_eq_ok :
    snapshot.verifyAll checksum = .ok () ↔ ∀ entry ∈ snapshot.entries,
      checksum 0 (entry.payload snapshot.bytes) = entry.crc32c := by
  unfold Snapshot.verifyAll Snapshot.sections
  rw [forM_eq_ok]
  constructor
  · intro verified entry member
    have own := verified _ (List.mem_map_of_mem member)
    dsimp only at own
    split at own
    · cases own
    · rename_i same
      exact not_not.mp same
  · intro same found listed
    obtain ⟨entry, member, rfl⟩ := List.mem_map.mp listed
    dsimp only
    rw [if_neg]
    exact not_not.mpr (same entry member)

/-- A byte string is intact exactly when it is sealed under the header it begins with. -/
theorem intact_iff :
    Intact checksum bytes snapshot ↔ ∃ header, Sealed checksum bytes header snapshot.entries ∧
      snapshot = { bytes, formatMajor := header.formatMajor, formatMinor := header.formatMinor
                   tableCrc32c := header.tableCrc32c, entries := snapshot.entries } := by
  constructor
  · rintro ⟨opened, verified⟩
    obtain ⟨opened, table⟩ := openChecked_eq_ok.mp opened
    obtain ⟨header, acceptable, range, same⟩ := openBytes_eq_ok.mp opened
    rw [same] at table verified
    exact ⟨header, ⟨acceptable, range, table, verifyAll_eq_ok.mp verified⟩, same⟩
  · rintro ⟨header, kept, same⟩
    have opened := openBytes_eq_ok.mpr ⟨header, kept.acceptable, kept.range, same⟩
    refine ⟨openChecked_eq_ok.mpr ⟨opened, ?_⟩, verifyAll_eq_ok.mpr ?_⟩
    · rw [same]
      exact kept.table
    · rw [same]
      exact kept.payloads

variable {entries : List RawSectionEntry} {header : RawHeader}

/-- Sealed bytes are intact. -/
theorem Sealed.intact (kept : Sealed checksum bytes header entries) :
    ∃ snapshot, Intact checksum bytes snapshot ∧ snapshot.entries = entries ∧
      snapshot.bytes = bytes :=
  ⟨{ bytes, formatMajor := header.formatMajor, formatMinor := header.formatMinor
     tableCrc32c := header.tableCrc32c, entries }, intact_iff.mpr ⟨header, kept, rfl⟩, rfl, rfl⟩

/-- An intact snapshot is a view of the very bytes that were opened. -/
theorem Intact.same (intact : Intact checksum bytes snapshot) : snapshot.bytes = bytes := by
  obtain ⟨header, _, same⟩ := intact_iff.mp intact
  rw [same]

-- What the encoders produce is intact.

/-- The byte strings that the planning encoder and the streaming writer produce. -/
inductive Produced (checksum : Checksum32) (bytes : Bytes) : Prop where
  -- The bytes written into a buffer, with any of what follows them in it.
  | planned (sections : List PendingSection) (plan : SnapshotPlan) (out written : Bytes)
      (needed cut : Nat) (accepted : SnapshotPlan.new sections = .ok plan)
      (wrote : plan.writeInto out checksum = .ok (needed, written)) (whole : needed ≤ cut)
      (same : bytes = written.take cut)
  -- A writer driven through any uses of its sinks, and finished.
  | streamed (maxSections : Nat) (writer : SnapshotWriter) (uses : List SinkUse)
      (created : SnapshotWriter.new maxSections = .ok writer)
      (finished : (runSinks checksum writer uses).1.finish checksum = .ok bytes)

/-- A finished snapshot is sealed. -/
theorem Wrote.intact {writer : SnapshotWriter} {planned : List PendingSection}
    (wrote : Wrote checksum writer planned) (finished : writer.finish checksum = .ok bytes) :
    ∃ snapshot, Intact checksum bytes snapshot := by
  obtain ⟨snapshot, reopened⟩ := wrote.reopen finished
  refine ⟨snapshot, reopened.checked, verifyAll_eq_ok.mpr ?_⟩
  rw [reopened.entries, reopened.same]
  intro entry member
  -- The writer recorded each checksum over the bytes it laid down.
  rw [reopened.kept entry member]
  exact (wrote.laid entry member).crc32c.symm

/-- More bytes at the end leave an intact snapshot intact. -/
theorem Intact.append (intact : Intact checksum bytes snapshot) (more : Bytes) :
    ∃ longer, Intact checksum (bytes ++ more) longer := by
  obtain ⟨header, kept, _⟩ := intact_iff.mp intact
  obtain ⟨rest, begins⟩ := kept.acceptable.begins
  -- Every payload lies inside the shorter bytes, so it reads the same in the longer.
  have still (entry : RawSectionEntry) (member : entry ∈ snapshot.entries) :=
    RawSectionEntry.payload_append (kept.acceptable.inside entry member) more
  have accepts : Acceptable (bytes ++ more) header snapshot.entries :=
    { kept.acceptable with
      begins := ⟨rest ++ more, by rw [begins]; simp only [List.append_assoc]⟩
      inside := fun entry member => by
        rw [List.length_append]
        exact Nat.le_add_right_of_le (kept.acceptable.inside entry member) }
  have longer : Sealed checksum (bytes ++ more) header snapshot.entries :=
    { kept with
      acceptable := accepts
      payloads := fun entry member => by
        rw [still entry member]
        exact kept.payloads entry member }
  obtain ⟨other, intact, _⟩ := longer.intact
  exact ⟨other, intact⟩

/-- A plan that was written fits, and so did its buffer. -/
theorem of_writeInto_ok {plan : SnapshotPlan} {out written : Bytes} {needed : Nat}
    (few : plan.sections.length ≤ maxSectionCount)
    (wrote : plan.writeInto out checksum = .ok (needed, written)) :
    Fits (tableEnd plan.sections.length) plan.sections ∧
      (encoded checksum plan.sections).length ≤ out.length := by
  obtain ⟨size, sized, wrote⟩ := bind_eq_ok.mp wrote
  obtain ⟨fits, total⟩ := (encodedLen_eq_ok few).mp sized
  dsimp only at wrote
  -- A buffer that is too short is refused, so this one had room.
  split at wrote
  · cases wrote
  · rename_i room
    rw [← length_encoded checksum] at total
    exact ⟨fits, by omega⟩

/-- Whatever an encoder produces is intact. -/
theorem Produced.intact (lawful : Lawful checksum) (produced : Produced checksum bytes) :
    ∃ snapshot, Intact checksum bytes snapshot := by
  cases produced with
  | planned sections plan out written needed cut accepted wrote whole same =>
    obtain ⟨few, checked, rfl⟩ := new_eq_ok.mp accepted
    obtain ⟨fits, room⟩ := of_writeInto_ok few wrote
    obtain ⟨laid, finished⟩ := wrote_encoded checksum few checked fits
    obtain ⟨snapshot, intact⟩ := laid.intact finished
    rw [writeInto_ok checksum few fits room] at wrote
    cases wrote
    -- What follows the encoded bytes in the buffer is the caller's.
    rw [same, List.take_append, List.take_of_length_le whole]
    exact intact.append _
  | streamed maxSections writer uses created finished =>
    exact ((wrote_new created).runSinks lawful uses).intact finished

-- What the checksums cover.

/-- The byte ranges the checksums of a snapshot cover: its table, and each payload. -/
def Snapshot.covered (snapshot : Snapshot) : List (Nat × Nat) :=
  (headerSize, tableEnd snapshot.entries.length) ::
    snapshot.entries.map fun entry => (entry.offset.toNat, entry.stop)

/-- Other bytes hold in every covered range what the snapshot's own bytes hold there. -/
def Snapshot.Agrees (snapshot : Snapshot) (other : Bytes) : Prop :=
  ∀ range ∈ snapshot.covered,
    sliceOf other range.1 range.2 = sliceOf snapshot.bytes range.1 range.2

/-- The checksum tells a covered range of other bytes from the snapshot's own, if they differ. -/
def Snapshot.Distinguished (checksum : Checksum32) (snapshot : Snapshot) (other : Bytes) : Prop :=
  ∀ range ∈ snapshot.covered,
    sliceOf other range.1 range.2 ≠ sliceOf snapshot.bytes range.1 range.2 →
    (sliceOf other range.1 range.2).map (checksum 0) ≠
      (sliceOf snapshot.bytes range.1 range.2).map (checksum 0)

instance (snapshot : Snapshot) (other : Bytes) : Decidable (snapshot.Agrees other) :=
  inferInstanceAs (Decidable (∀ range ∈ snapshot.covered, _))

instance (checksum : Checksum32) (snapshot : Snapshot) (other : Bytes) :
    Decidable (snapshot.Distinguished checksum other) :=
  inferInstanceAs (Decidable (∀ range ∈ snapshot.covered, _))

/-- The bytes of a header and a table, over what follows them. -/
def assembled (header : RawHeader) (entries : List RawSectionEntry) (rest : Bytes) : Bytes :=
  asBytes header ++ (arrayBytes entries ++ rest)

/-- The rest of an assembled file follows its header and its table. -/
theorem length_front (header : RawHeader) (entries : List RawSectionEntry) :
    (asBytes header ++ arrayBytes entries).length = tableEnd entries.length := by
  have width : FixedLayout.size RawSectionEntry = sectionEntrySize := rfl
  have headerBytes : (asBytes header).length = headerSize := FixedLayout.length_asBytes header
  rw [List.length_append, headerBytes, length_arrayBytes, width, tableEnd]

/-- The table of an assembled file is the slice between the header and the table's end. -/
theorem table_slice (header : RawHeader) (entries : List RawSectionEntry) (rest : Bytes) :
    sliceOf (assembled header entries rest) headerSize (tableEnd entries.length) =
      some (arrayBytes entries) := by
  have headerBytes : (asBytes header).length = headerSize := FixedLayout.length_asBytes header
  -- The table stands between the header and the rest.
  have middle := sliceOf_middle (asBytes header) (arrayBytes entries) rest
  rw [← List.length_append, length_front, headerBytes, List.append_assoc] at middle
  exact middle

/-- The table of acceptable bytes is the slice between the header and the table's end. -/
theorem Acceptable.table_slice (acceptable : Acceptable bytes header entries) :
    sliceOf bytes headerSize (tableEnd entries.length) = some (arrayBytes entries) := by
  obtain ⟨rest, begins⟩ := acceptable.begins
  rw [begins]
  exact Container.table_slice header entries rest

/-- A payload inside the bytes is the slice between its bounds. -/
theorem RawSectionEntry.payload_slice {entry : RawSectionEntry}
    (inside : entry.stop ≤ bytes.length) :
    sliceOf bytes entry.offset.toNat entry.stop = some (entry.payload bytes) := by
  have span : entry.stop - entry.offset.toNat = entry.length.toNat := Nat.add_sub_cancel_left _ _
  rw [sliceOf, if_pos ⟨Nat.le_add_right _ _, inside⟩, span]
  rfl

/-- Acceptable bytes begin with their header's own. -/
theorem Acceptable.front (acceptable : Acceptable bytes header entries) :
    bytes.take headerSize = asBytes header := by
  obtain ⟨rest, begins⟩ := acceptable.begins
  have headerBytes : (asBytes header).length = headerSize := FixedLayout.length_asBytes header
  rw [begins, List.take_left' headerBytes]

variable {bytes other : Bytes}

/-- Bytes that begin alike begin with the same header. -/
theorem Acceptable.header_unique {header otherHeader : RawHeader}
    {entries otherEntries : List RawSectionEntry} (acceptable : Acceptable bytes header entries)
    (accepts : Acceptable other otherHeader otherEntries)
    (begun : other.take headerSize = bytes.take headerSize) : otherHeader = header := by
  -- The first bytes are the header's own, and reading them gives the header back.
  rw [acceptable.front, accepts.front] at begun
  have read := congrArg (fun bytes => (readFromPrefix (bytes ++ []) : RawHeader)) begun
  simpa only [FixedLayout.read_asBytes] using read

/-- Bytes sealed under the same header have the same table, if the checksum tells tables apart. -/
theorem Sealed.entries_eq {entries otherEntries : List RawSectionEntry}
    (kept : Sealed checksum bytes header entries)
    (others : Sealed checksum other header otherEntries)
    (told : arrayBytes otherEntries ≠ arrayBytes entries →
      checksum 0 (arrayBytes otherEntries) ≠ checksum 0 (arrayBytes entries)) :
    otherEntries = entries := by
  -- Both tables hash to what the one header records, so they cannot differ.
  have equal : arrayBytes otherEntries = arrayBytes entries := by
    by_contra differ
    refine told differ ?_
    rw [kept.table, others.table]
  -- Reading equal bytes gives equal entries.
  have read := congrArg (refFromBytes RawSectionEntry) equal
  rw [refFromBytes_arrayBytes, refFromBytes_arrayBytes] at read
  exact Option.some.inj read

/-- Whatever begins as an intact snapshot and agrees with it where it is covered is intact. -/
theorem Sealed.of_agrees (kept : Sealed checksum bytes header entries)
    (begun : other.take headerSize = bytes.take headerSize)
    (table : sliceOf other headerSize (tableEnd entries.length) = some (arrayBytes entries))
    (payloads : ∀ entry ∈ entries,
      sliceOf other entry.offset.toNat entry.stop = some (entry.payload bytes)) :
    Sealed checksum other header entries := by
  have front : other.take headerSize = asBytes header := begun.trans kept.acceptable.front
  -- A slice that is there lies inside the bytes.
  have inside (entry : RawSectionEntry) (member : entry ∈ entries) :
      entry.stop ≤ other.length ∧ entry.payload other = entry.payload bytes := by
    have slice := payloads entry member
    have within : entry.stop ≤ other.length := by
      unfold sliceOf at slice
      split at slice
      · rename_i bounds
        exact bounds.2
      · cases slice
    rw [RawSectionEntry.payload_slice within] at slice
    exact ⟨within, Option.some.inj slice⟩
  have tail : (other.drop headerSize).take (entries.length * sectionEntrySize) =
      arrayBytes entries := by
    unfold sliceOf at table
    split at table
    · rw [tableEnd, Nat.add_sub_cancel_left] at table
      exact Option.some.inj table
    · cases table
  -- The bytes are the header's, then the table's, then whatever they like.
  have starts : other = asBytes header ++ (arrayBytes entries ++
      (other.drop headerSize).drop (entries.length * sectionEntrySize)) := by
    rw [← front, ← tail, List.take_append_drop, List.take_append_drop]
  have accepts : Acceptable other header entries :=
    { kept.acceptable with
      begins := ⟨_, starts⟩
      inside := fun entry member => (inside entry member).1 }
  exact
    { kept with
      acceptable := accepts
      payloads := fun entry member => by
        rw [(inside entry member).2]
        exact kept.payloads entry member }

/-- The covered ranges of an intact snapshot lie inside its bytes. -/
theorem Intact.covered_inside (intact : Intact checksum bytes snapshot) {range : Nat × Nat}
    (listed : range ∈ snapshot.covered) : range.2 ≤ bytes.length := by
  obtain ⟨header, kept, _⟩ := intact_iff.mp intact
  rcases List.mem_cons.mp listed with rfl | listed
  · -- The table follows the header.
    obtain ⟨rest, begins⟩ := kept.acceptable.begins
    rw [begins, ← List.append_assoc, List.length_append, length_front]
    exact Nat.le_add_right _ _
  · obtain ⟨entry, member, rfl⟩ := List.mem_map.mp listed
    exact kept.acceptable.inside entry member

/-- Under a kept header, an intact reading has the snapshot's own table and payloads. -/
theorem Intact.reread {snapshot reread : Snapshot} (intact : Intact checksum bytes snapshot)
    (rereads : Intact checksum other reread)
    (begun : other.take headerSize = bytes.take headerSize)
    (told : snapshot.Distinguished checksum other) :
    reread.entries = snapshot.entries ∧
      ∀ entry ∈ snapshot.entries, entry.payload other = entry.payload bytes := by
  obtain ⟨header, kept, _⟩ := intact_iff.mp intact
  obtain ⟨otherHeader, others, _⟩ := intact_iff.mp rereads
  obtain rfl := kept.acceptable.header_unique others.acceptable begun
  rw [Snapshot.Distinguished, intact.same] at told
  -- The header counts the entries, so both tables span the same bytes.
  have count : reread.entries.length = snapshot.entries.length := by
    rw [← kept.acceptable.count, ← others.acceptable.count]
  have theirs := others.acceptable.table_slice
  rw [count] at theirs
  have entries : reread.entries = snapshot.entries := by
    refine kept.entries_eq others fun differ => ?_
    have apart := told _ List.mem_cons_self
    rw [theirs, kept.acceptable.table_slice] at apart
    exact fun same => apart (fun equal => differ (Option.some.inj equal)) (congrArg some same)
  rw [entries] at others
  refine ⟨entries, fun entry member => ?_⟩
  -- Both payloads hash to what the one entry records.
  by_contra differ
  have apart := told _ (List.mem_cons_of_mem _ (List.mem_map_of_mem member))
  rw [RawSectionEntry.payload_slice (others.acceptable.inside entry member),
    RawSectionEntry.payload_slice (kept.acceptable.inside entry member)] at apart
  refine apart (fun equal => differ (Option.some.inj equal)) (congrArg some ?_)
  rw [others.payloads entry member, kept.payloads entry member]

/-- Bytes that reread intact under a kept header agree wherever the checksums cover them. -/
theorem Intact.agrees {snapshot reread : Snapshot} (intact : Intact checksum bytes snapshot)
    (rereads : Intact checksum other reread)
    (begun : other.take headerSize = bytes.take headerSize)
    (told : snapshot.Distinguished checksum other) : snapshot.Agrees other := by
  obtain ⟨entries, payloads⟩ := intact.reread rereads begun told
  obtain ⟨_, kept, _⟩ := intact_iff.mp intact
  obtain ⟨_, others, _⟩ := intact_iff.mp rereads
  rw [entries] at others
  rw [Snapshot.Agrees, intact.same]
  intro range listed
  rcases List.mem_cons.mp listed with rfl | listed
  · -- The covered ranges are the table, which is the same, and the payloads.
    rw [others.acceptable.table_slice, kept.acceptable.table_slice]
  · obtain ⟨entry, member, rfl⟩ := List.mem_map.mp listed
    rw [RawSectionEntry.payload_slice (others.acceptable.inside entry member),
      RawSectionEntry.payload_slice (kept.acceptable.inside entry member), payloads entry member]

/-- Bytes that agree under a kept header reread intact. -/
theorem Intact.of_agrees (intact : Intact checksum bytes snapshot)
    (begun : other.take headerSize = bytes.take headerSize) (agrees : snapshot.Agrees other) :
    ∃ reread, Intact checksum other reread := by
  obtain ⟨header, kept, _⟩ := intact_iff.mp intact
  rw [Snapshot.Agrees, intact.same] at agrees
  have table := (agrees _ List.mem_cons_self).trans kept.acceptable.table_slice
  have again := kept.of_agrees begun table fun entry member =>
    (agrees _ (List.mem_cons_of_mem _ (List.mem_map_of_mem member))).trans
      (RawSectionEntry.payload_slice (kept.acceptable.inside entry member))
  obtain ⟨reread, rereads, _⟩ := again.intact
  exact ⟨reread, rereads⟩

/-- An intact reading with the same table and payloads reports the same sections. -/
theorem Intact.sections_eq {snapshot reread : Snapshot} (intact : Intact checksum bytes snapshot)
    (rereads : Intact checksum other reread) (entries : reread.entries = snapshot.entries)
    (payloads : ∀ entry ∈ snapshot.entries, entry.payload other = entry.payload bytes) :
    reread.sections = snapshot.sections := by
  unfold Snapshot.sections
  rw [entries]
  refine List.map_congr_left fun entry member => ?_
  have same := payloads entry member
  unfold RawSectionEntry.payload at same
  unfold Section.fromEntry
  rw [rereads.same, intact.same, same]

/-- An intact reading finds a section of a kind among the sections it reports. -/
theorem Intact.sectionOf_eq (intact : Intact checksum bytes snapshot) (kind : UInt32) :
    snapshot.sectionOf kind = snapshot.sections.find? fun found => found.kind = kind :=
  (soundView_of_open (openChecked_eq_ok.mp intact.opened).1).search kind

/-- Bytes under a kept header that differ anywhere the checksums cover are never read as intact,
and those that do not are read as the bytes an encoder produced. -/
theorem corruption_detected (lawful : Lawful checksum) {bytes : Bytes}
    (produced : Produced checksum bytes) :
    ∃ snapshot, Intact checksum bytes snapshot ∧
      ∀ other : Bytes, other.take headerSize = bytes.take headerSize →
        snapshot.Distinguished checksum other →
        ((∃ reread, Intact checksum other reread) ↔ snapshot.Agrees other) ∧
        ∀ reread, Intact checksum other reread →
          reread.sections = snapshot.sections ∧
          (∀ kind, reread.sectionOf kind = snapshot.sectionOf kind) ∧
          ∀ index, other[index]? ≠ bytes[index]? → headerSize ≤ index ∧
            ∀ range ∈ snapshot.covered, ¬ (range.1 ≤ index ∧ index < range.2) := by
  obtain ⟨snapshot, intact⟩ := produced.intact lawful
  refine ⟨snapshot, intact, fun other begun told => ⟨⟨?_, intact.of_agrees begun⟩, ?_⟩⟩
  · rintro ⟨reread, rereads⟩
    exact intact.agrees rereads begun told
  intro reread rereads
  obtain ⟨entries, payloads⟩ := intact.reread rereads begun told
  have sections := intact.sections_eq rereads entries payloads
  refine ⟨sections, fun kind => ?_, fun index differs => ⟨?_, fun range listed bounds => ?_⟩⟩
  · rw [rereads.sectionOf_eq, intact.sectionOf_eq, sections]
  · -- A difference in the header is excluded, since both begin alike.
    by_contra early
    have at_index := congrArg (fun front : Bytes => front[index]?) begun
    simp only [List.getElem?_take] at at_index
    rw [if_pos (by omega), if_pos (by omega)] at at_index
    exact differs at_index
  · -- A difference in a covered range is excluded, since both agree there.
    have agrees := intact.agrees rereads begun told range listed
    rw [intact.same] at agrees
    exact differs
      (getElem?_of_sliceOf_eq (intact.covered_inside listed) agrees bounds.1 bounds.2)

/-- A byte appended to an encoded payload goes unnoticed, and a byte changed in it does not. -/
theorem corruption_detected_changed : ∃ bytes snapshot,
    Intact castagnoli.crc32cAppend bytes snapshot ∧
    (∃ reread, Intact castagnoli.crc32cAppend (bytes ++ [9]) reread ∧
      reread.sections = snapshot.sections) ∧
    ¬ ∃ reread, Intact castagnoli.crc32cAppend (bytes.set 64 9) reread := by
  let sections : List PendingSection := [⟨1, 1, 0, [1, 2, 3]⟩]
  let bytes := encoded castagnoli.crc32cAppend sections
  have written : SnapshotPlan.writeInto { sections } (List.replicate 67 0)
      castagnoli.crc32cAppend = .ok (67, bytes) := by decide +kernel
  have whole : bytes = bytes.take 67 := by decide +kernel
  have produced : Produced castagnoli.crc32cAppend bytes :=
    .planned sections _ _ bytes 67 67 rfl written (Nat.le_refl _) whole
  obtain ⟨snapshot, intact, detected⟩ := corruption_detected castagnoli_lawfulFold produced
  -- The snapshot is the one the bytes open to, so its ranges can be evaluated.
  have evaluated : (match Snapshot.openChecked bytes castagnoli.crc32cAppend with
      | .ok snapshot => decide
        (snapshot.Distinguished castagnoli.crc32cAppend (bytes ++ [9]) ∧
          snapshot.Agrees (bytes ++ [9]) ∧
          snapshot.Distinguished castagnoli.crc32cAppend (bytes.set 64 9) ∧
          ¬ snapshot.Agrees (bytes.set 64 9))
      | .error _ => false) = true := by decide +kernel
  rw [intact.opened] at evaluated
  obtain ⟨toldLonger, agrees, toldChanged, differs⟩ := of_decide_eq_true evaluated
  have longer := detected (bytes ++ [9]) (by decide +kernel) toldLonger
  have changed := detected (bytes.set 64 9) (by decide +kernel) toldChanged
  obtain ⟨reread, rereads⟩ := longer.1.mpr agrees
  exact ⟨bytes, snapshot, intact, ⟨reread, rereads, (longer.2 reread rereads).1⟩,
    fun found => differs (changed.1.mp found)⟩

end Oxgraph.Container
