import Oxgraph.Db.Database.Open
import Oxgraph.Proofs.Db.Database.Integrity
import Oxgraph.Proofs.Layout.Sections
import Oxgraph.Proofs.Snapshot.Verify

/-! The files of a store beside its log, and those that creating a store writes. -/

namespace Oxgraph

open Container Layout

variable [Crc32c]

/-- The files of a store beside its log: a superblock, and a base for each generation. -/
structure Files where
  superblock : Option Bytes
  base : UInt64 → Option Bytes

/-- Opens a store whose log holds some bytes. -/
def Files.open (files : Files) (log : Bytes) : Except DbError Db :=
  Db.open files.superblock files.base fun _ => some log

/-- A superblock names a base that attaches, and whose records show a sound view. -/
structure Files.Store (files : Files) (superblock : SuperblockRecord) (base : BaseView)
    (records : BaseRecords) : Prop where
  named : readSuperblock files.superblock = .ok superblock
  attached : ∃ bytes, files.base superblock.baseGeneration = some bytes ∧
    attachView bytes = .ok base
  opened : BaseRecords.open base = .ok records
  sound : (LayeredState.mk records base.freshOverlay).Sound

/-- Opening a store recovers its log over the base that its superblock names. -/
theorem Files.Store.open_eq {files : Files} {superblock : SuperblockRecord} {base : BaseView}
    {records : BaseRecords} (stored : files.Store superblock base records) (log : Bytes) :
    files.open log = Db.recover superblock base log := by
  obtain ⟨bytes, found, attaches⟩ := stored.attached
  unfold Files.open Db.open
  rw [stored.named]
  simp only [bind, Except.bind, Except.mapError, found, attaches]
  rfl

-- The superblock.

omit [Crc32c] in
/-- The checksum of a superblock lies behind the bytes it covers. -/
theorem take_asBytes_superblock (record : SuperblockRecord) (crc : UInt32) :
    (asBytes { record with crc32c := crc }).take superblockCrcPrefixLen =
      (asBytes record).take superblockCrcPrefixLen := by
  let front : Bytes := asBytes (record.magic, record.baseGeneration, record.checkpointLsn,
    record.logByteOffset, record.commitSeq, record.transactionId, record.formatVersion,
    record.flags)
  have split (crc : UInt32) : asBytes { record with crc32c := crc } =
      front ++ (asBytes crc ++ asBytes record.pad) := by
    change asBytes (record.magic, record.baseGeneration, record.checkpointLsn,
      record.logByteOffset, record.commitSeq, record.transactionId, record.formatVersion,
      record.flags, crc, record.pad) = _
    simp only [front, FixedLayout.asBytes, List.append_assoc]
  have covered : front.length = superblockCrcPrefixLen := FixedLayout.length_asBytes _
  have own := split record.crc32c
  rw [split crc, List.take_left' covered]
  exact ((congrArg (List.take superblockCrcPrefixLen) own).trans (List.take_left' covered)).symm

/-- A superblock that was written is read back, with its checksum. -/
theorem readSuperblock_write {record : SuperblockRecord} (magic : record.magic = superblockMagic)
    (version : record.formatVersion = oxgdbFormatVersion)
    (reserved : record.flags = 0 ∧ record.pad = 0) :
    readSuperblock (some (writeSuperblock record)) = .ok record.stamped := by
  have read : (readFromPrefix (writeSuperblock record) : SuperblockRecord) = record.stamped := by
    have own := FixedLayout.read_asBytes record.stamped []
    rwa [List.append_nil] at own
  have covered : (writeSuperblock record).take superblockCrcPrefixLen =
      (asBytes { record with crc32c := 0 }).take superblockCrcPrefixLen :=
    (take_asBytes_superblock record _).trans (take_asBytes_superblock record 0).symm
  have length : (writeSuperblock record).length = FixedLayout.size SuperblockRecord :=
    FixedLayout.length_asBytes _
  unfold readSuperblock
  simp only [length, ne_eq, not_true_eq_false, if_false]
  rw [read, covered]
  simp [SuperblockRecord.stamped, magic, version, reserved]

-- The base.

/-- A file that holds a header section alone attaches as a base without a record. -/
theorem attachView_header {bytes : Bytes} {snapshot : Container.Snapshot} {record : DbHeaderRecord}
    (intact : Intact checksumAppend bytes snapshot)
    (only : snapshot.sections.map Section.planned =
      [(wordSection sectionDbHeader oxgdbSectionVersion [record]).pending])
    (version : record.formatVersion = oxgdbFormatVersion) :
    attachView bytes = .ok { BaseView.created with header := .fromRecord record } := by
  obtain ⟨found, listed, planned⟩ := List.map_eq_singleton_iff.mp only
  have kind : found.kind = sectionDbHeader := congrArg PendingSection.kind planned
  have payload : found.payload = arrayBytes [record] :=
    (congrArg PendingSection.payload planned).trans (payload_wordSection _ _ _)
  -- A lookup finds the header under its own kind, and nothing under any other.
  have located : snapshot.sectionOf sectionDbHeader = some found := by
    rw [intact.sectionOf_eq, listed]
    simp [kind]
  have absent {other : UInt32} (foreign : sectionDbHeader ≠ other) :
      snapshot.sectionOf other = none := by
    rw [intact.sectionOf_eq, listed]
    simp [kind, foreign]
  have verified : found.verify checksumAppend = .ok () := by
    have own := forM_eq_ok.mp intact.verified found (by rw [listed]; exact List.mem_singleton_self _)
    unfold Section.verify
    dsimp only at own ⊢
    split at own
    · cases own
    · rename_i same
      exact if_pos (not_not.mp same)
  have headers : typedRecords DbHeaderRecord snapshot sectionDbHeader = .ok [record] := by
    unfold typedRecords
    rw [located]
    simp only [verified, Section.tryAsSlice, payload, refFromBytes_arrayBytes]
    rfl
  have typed {T : Type} [FixedLayout T] {other : UInt32} (foreign : sectionDbHeader ≠ other) :
      typedRecords T snapshot other = .ok [] := by
    unfold typedRecords
    rw [absent foreign]
  have blob {other : UInt32} (foreign : sectionDbHeader ≠ other) :
      rawBlob snapshot other = .ok [] := by
    unfold rawBlob
    rw [absent foreign]
  have postings {T : Type} [FixedLayout T] {other : UInt32} (foreign : sectionDbHeader ≠ other) :
      postingSlices T snapshot other = .ok ([], []) := by
    unfold postingSlices
    rw [absent foreign]
  have catalog : decodeCatalog snapshot [] [] = .ok .empty := by
    unfold decodeCatalog typedRecordsDb
    simp (disch := decide) only [typed]
    rfl
  have index : attachIndex snapshot = .ok BaseView.created.index := by
    unfold attachIndex
    simp (disch := decide) only [blob, postings]
    rfl
  unfold attachView
  refine bind_eq_ok.mpr ⟨snapshot, mapError_eq_ok.mpr intact.opened, ?_⟩
  refine bind_eq_ok.mpr ⟨_, headers, ?_⟩
  rw [List.head?_cons]
  dsimp only
  rw [if_neg (not_not.mpr version)]
  simp (disch := decide) only [typed, blob]
  refine bind_eq_ok.mpr ⟨[], rfl, bind_eq_ok.mpr ⟨[], rfl, ?_⟩⟩
  rw [catalog, index]
  rfl

-- A created store.

/-- The header of a created store's base: nothing is committed, and every allocator is at 1. -/
def DbHeaderRecord.created : DbHeaderRecord :=
  ⟨oxgdbFormatVersion, 0, 0, 0, 0, 1, 1, 1, 1, 1, 1, 1, 1, 1⟩

/-- The files that creating a store writes: a frozen empty view has no section but its header. -/
def Files.created : Files where
  superblock := some (writeSuperblock .created)
  base generation :=
    if generation = 0 then
      (streamSnapshot checksumAppend maxBaseSectionKinds
        [wordSection sectionDbHeader oxgdbSectionVersion [DbHeaderRecord.created]]).toOption
    else none

omit [Crc32c] in
/-- A created store is sound, like the empty one, and nothing has run over it. -/
theorem created_sound : (LayeredState.mk .created BaseView.created.freshOverlay).Sound where
  coherent :=
    have empty := LayeredState.sound_empty.coherent
    ⟨empty.bounded, empty.baseKeyed, empty.keyed, empty.catalog, empty.anchored, empty.indexed⟩
  represents :=
    have empty := LayeredState.sound_empty.represents
    ⟨empty.label, empty.relationType, empty.elementIncidence, empty.relationIncidence,
      empty.equality, empty.range, empty.key⟩
  integrity := LayeredState.sound_empty.integrity
  started := LayeredState.sound_empty.started
  numbered := LayeredState.sound_empty.numbered

/-- The files of a created store name a base without a record. -/
theorem created_store :
    Files.created.Store SuperblockRecord.created.stamped .created .created where
  named := readSuperblock_write rfl rfl ⟨rfl, rfl⟩
  attached := by
    let streams := [wordSection sectionDbHeader oxgdbSectionVersion [DbHeaderRecord.created]]
    have folds : ∀ streamed ∈ streams, streamed.Folds checksumAppend := by
      intro streamed member
      rw [List.mem_singleton.mp member]
      exact folds_wordSection _ _ _ _
    have fits : Fits (tableEnd maxBaseSectionKinds) (streams.map StreamedSection.pending) :=
      ⟨by decide, show _ + _ < usizeBound by rw [payload_wordSection, length_arrayBytes]; decide⟩
    have streamed : streamSnapshot checksumAppend maxBaseSectionKinds streams = .ok _ :=
      (streamSnapshot_eq_ok folds).mpr ⟨by decide, by decide, rfl, fits, rfl⟩
    obtain ⟨writer, started, rest⟩ := bind_eq_ok.mp streamed
    obtain ⟨after, written, finished⟩ := bind_eq_ok.mp rest
    have wrote := (wrote_new started).writeAll folds written
    obtain ⟨snapshot, intact⟩ := wrote.intact finished
    obtain ⟨again, reopened⟩ := wrote.reopen finished
    cases Except.ok.inj (reopened.checked.symm.trans intact.opened)
    have sections := reopened.sections wrote
    have base : Files.created.base SuperblockRecord.created.stamped.baseGeneration =
        (streamSnapshot checksumAppend maxBaseSectionKinds streams).toOption := by
      have generation : SuperblockRecord.created.stamped.baseGeneration = 0 := rfl
      rw [generation]
      unfold Files.created
      dsimp only
      rw [if_pos rfl]
    rw [streamed] at base
    exact ⟨_, base, attachView_header intact sections rfl⟩
  opened := rfl
  sound := created_sound

end Oxgraph
