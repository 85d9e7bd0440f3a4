import Oxgraph.Proofs.Postgres.Artifact
import Oxgraph.Proofs.Snapshot.Open

/-! Attaching keeps the foreign sections and is idempotent, and without an index drops the old. -/

namespace Oxgraph.Postgres

open Layout Container Csr

variable {checksum : Checksum32} {forwardBytes bytes : Bytes} {inboundBytes : Option Bytes}
  {forward snapshot : Container.Snapshot} {index : List StreamedSection}
  {metadata : PostgresMetadata}

-- What the result holds.

/-- The engine's own sections, which an attachment streams after the copies. -/
def ownSections (index : List StreamedSection) (metadata : PostgresMetadata) :
    List StreamedSection :=
  index ++ [rawSection metadataKind PostgresMetadata.formatVersion 0 (asBytes metadata)]

/-- An attachment streams copies of the foreign sections, and then the engine's own. -/
theorem attachedSections_eq (forward : Container.Snapshot) (index : List StreamedSection)
    (metadata : PostgresMetadata) : attachedSections forward index metadata =
      (foreignSections forward).map copyOf ++ ownSections index metadata := rfl

/-- The sections that an attachment streams are planned as the foreign ones and the engine's own. -/
theorem pending_attachedSections (forward : Container.Snapshot) (index : List StreamedSection)
    (metadata : PostgresMetadata) :
    (attachedSections forward index metadata).map StreamedSection.pending =
      (foreignSections forward).map Section.planned ++
        (ownSections index metadata).map StreamedSection.pending := by
  rw [attachedSections_eq, List.map_append, List.map_map]
  congr 1
  exact List.map_congr_left fun found _ => pending_copyOf found

/-- The kinds of the index and of the metadata are the engine's own. -/
theorem owned_ownSections (gives : GivesIndex inboundBytes index) :
    ∀ streamed ∈ ownSections index metadata, isPostgresOwnedKind streamed.kind = true := by
  intro streamed member
  rcases List.mem_append.mp member with indexed | last
  · cases gives with
    | none => cases indexed
    | some =>
      simp only [indexSections, List.mem_cons, List.not_mem_nil, or_false] at indexed
      rcases indexed with rfl | rfl
      · rfl
      · rfl
  · rw [List.mem_singleton.mp last]
    rfl

/-- The result of an attachment opens to exactly the sections that it streamed. -/
theorem opened_attached (opened : Snapshot.openBytes forwardBytes = .ok forward)
    (gives : GivesIndex inboundBytes index)
    (attached : attachPostgresSections checksum forwardBytes inboundBytes metadata = .ok bytes) :
    ∃ after, Snapshot.openBytes bytes = .ok after ∧ after.sections.map Section.planned =
      (attachedSections forward index metadata).map StreamedSection.pending := by
  obtain ⟨forwardAgain, indexAgain, openedAgain, givesAgain, streamed⟩ :=
    attachPostgresSections_eq_ok.mp attached
  cases opened.symm.trans openedAgain
  cases gives.unique givesAgain
  obtain ⟨after, opens, _, listed⟩ :=
    holds_of_stream (folds_attachedSections checksum forward gives metadata) streamed
  exact ⟨after, opens, listed⟩

/-- The foreign sections of a snapshot, as they are planned, are among all of its sections. -/
theorem planned_foreignSections (snapshot : Container.Snapshot) :
    (foreignSections snapshot).map Section.planned =
      (snapshot.sections.map Section.planned).filter fun pending =>
        ¬ isPostgresOwnedKind pending.kind := by
  rw [List.filter_map]
  rfl

/-- The foreign sections of the result are those that were there before. -/
theorem foreign_attached (gives : GivesIndex inboundBytes index)
    (listed : snapshot.sections.map Section.planned =
      (attachedSections forward index metadata).map StreamedSection.pending) :
    (foreignSections snapshot).map Section.planned =
      (foreignSections forward).map Section.planned := by
  have kept : ((foreignSections forward).map Section.planned).filter
      (fun pending => ¬ isPostgresOwnedKind pending.kind) =
        (foreignSections forward).map Section.planned := by
    rw [List.filter_eq_self]
    intro pending member
    obtain ⟨found, inside, rfl⟩ := List.mem_map.mp member
    exact (List.mem_filter.mp inside).2
  have dropped : ((ownSections index metadata).map StreamedSection.pending).filter
      (fun pending => ¬ isPostgresOwnedKind pending.kind) = [] := by
    rw [List.filter_eq_nil_iff]
    intro pending member
    obtain ⟨streamed, inside, rfl⟩ := List.mem_map.mp member
    have owned : isPostgresOwnedKind streamed.pending.kind = true :=
      owned_ownSections gives streamed inside
    simp [owned]
  rw [planned_foreignSections, listed, pending_attachedSections, List.filter_append, kept, dropped,
    List.append_nil]

/-- Copies depend on nothing but how the sections are planned. -/
theorem copies_congr {sections others : List Section}
    (same : sections.map Section.planned = others.map Section.planned) :
    sections.map copyOf = others.map copyOf := by
  have through (found : Section) : copyOf found =
      rawSection found.planned.kind found.planned.version found.planned.alignmentLog2
        found.planned.payload := rfl
  have copies (sections : List Section) : sections.map copyOf =
      (sections.map Section.planned).map fun pending =>
        rawSection pending.kind pending.version pending.alignmentLog2 pending.payload := by
    rw [List.map_map]
    exact List.map_congr_left fun found _ => through found
  rw [copies, copies, same]

/-- Attaching the same again to the result streams the same sections. -/
theorem attached_again (gives : GivesIndex inboundBytes index)
    (opened : Snapshot.openBytes forwardBytes = .ok forward)
    (attached : attachPostgresSections checksum forwardBytes inboundBytes metadata = .ok bytes)
    (opens : Snapshot.openBytes bytes = .ok snapshot)
    (listed : snapshot.sections.map Section.planned =
      (attachedSections forward index metadata).map StreamedSection.pending) :
    attachPostgresSections checksum bytes inboundBytes metadata = .ok bytes := by
  obtain ⟨forwardAgain, indexAgain, openedAgain, givesAgain, streamed⟩ :=
    attachPostgresSections_eq_ok.mp attached
  cases opened.symm.trans openedAgain
  cases gives.unique givesAgain
  have same : attachedSections snapshot index metadata = attachedSections forward index metadata := by
    rw [attachedSections_eq, attachedSections_eq, copies_congr (foreign_attached gives listed)]
  refine attachPostgresSections_eq_ok.mpr ⟨snapshot, index, opens, gives, ?_⟩
  rw [same]
  exact streamed

-- When attaching returns.

/-- Kinds that ascend below a bound are no more than the bound. -/
theorem length_le_of_kinds {kinds : List UInt32} {bound : Nat} (ascending : kinds.Pairwise (· < ·))
    (below : ∀ kind ∈ kinds, kind.toNat < bound) : kinds.length ≤ bound := by
  have distinct : (kinds.map UInt32.toNat).Nodup :=
    List.pairwise_map.mpr (ascending.imp fun before same =>
      absurd (UInt32.lt_iff_toNat_lt.mp before) (by omega))
  have inside : kinds.map UInt32.toNat ⊆ List.range bound := by
    intro kind member
    obtain ⟨word, listed, rfl⟩ := List.mem_map.mp member
    exact List.mem_range.mpr (below word listed)
  have few := (distinct.subperm inside).length_le
  rwa [List.length_map, List.length_range] at few

/-- An opened snapshot declares no alignment above the limit. -/
theorem aligned_of_open (opened : Snapshot.openBytes bytes = .ok snapshot) {found : Section}
    (member : found ∈ snapshot.sections) : found.alignmentLog2 ≤ maxAlignmentLog2 := by
  obtain ⟨⟨header, acceptable⟩, _⟩ := acceptable_of_open opened
  obtain ⟨entry, listed, rfl⟩ := List.mem_map.mp member
  exact acceptable.aligned entry listed

/-- The kinds of an opened snapshot's sections ascend. -/
theorem ascending_of_open (opened : Snapshot.openBytes bytes = .ok snapshot) :
    snapshot.sections.Pairwise fun before after => before.kind < after.kind :=
  List.pairwise_map.mpr (soundView_of_open opened).ascending

/-- The alignments of an attachment are those of sections that were opened, or none. -/
theorem aligned_attached (opened : Snapshot.openBytes forwardBytes = .ok forward)
    (gives : GivesIndex inboundBytes index) :
    ∀ pending ∈ (attachedSections forward index metadata).map StreamedSection.pending,
      pending.alignmentLog2 ≤ maxAlignmentLog2 := by
  rw [pending_attachedSections]
  intro pending member
  rcases List.mem_append.mp member with copied | own
  · obtain ⟨found, inside, rfl⟩ := List.mem_map.mp copied
    exact aligned_of_open opened (List.mem_filter.mp inside).1
  · obtain ⟨streamed, inside, rfl⟩ := List.mem_map.mp own
    rcases List.mem_append.mp inside with indexed | last
    · cases gives with
      | none => cases indexed
      | some opens locatedOffsets locatedTargets =>
        simp only [indexSections, List.mem_cons, List.not_mem_nil, or_false] at indexed
        rcases indexed with rfl | rfl
        · exact aligned_of_open opens (mem_sections_of_sectionOf locatedOffsets)
        · exact aligned_of_open opens (mem_sections_of_sectionOf locatedTargets)
    · rw [List.mem_singleton.mp last]
      show (0 : UInt8) ≤ maxAlignmentLog2
      decide

/-- The engine's own sections are at most three, of ascending kinds from the first of its own. -/
theorem kinds_ownSections (gives : GivesIndex inboundBytes index) :
    (ownSections index metadata).length ≤ 3 ∧
      ((ownSections index metadata).map StreamedSection.kind).Pairwise (· < ·) ∧
        ∀ kind ∈ (ownSections index metadata).map StreamedSection.kind, 0x0200 ≤ kind := by
  cases gives with
  | none =>
    show 1 ≤ 3 ∧ [metadataKind].Pairwise (· < ·) ∧ ∀ kind ∈ [metadataKind], 0x0200 ≤ kind
    simp only [List.pairwise_singleton, List.forall_mem_singleton, true_and]
    decide
  | some =>
    show 3 ≤ 3 ∧ [inboundOffsetsKind, inboundTargetsKind, metadataKind].Pairwise (· < ·) ∧
      ∀ kind ∈ [inboundOffsetsKind, inboundTargetsKind, metadataKind], 0x0200 ≤ kind
    simp only [List.pairwise_cons, List.Pairwise.nil, List.forall_mem_cons, List.not_mem_nil,
      false_implies, implies_true, and_true]
    decide

/-- Below the engine's own kinds, attaching returns exactly when the result can be addressed. -/
theorem attach_returns_iff (opened : Snapshot.openBytes forwardBytes = .ok forward)
    (gives : GivesIndex inboundBytes index)
    (below : ∀ found ∈ foreignSections forward, found.kind < 0x0200) :
    (∃ bytes, attachPostgresSections checksum forwardBytes inboundBytes metadata = .ok bytes) ↔
      Fits (tableEnd (attachedSections forward index metadata).length)
        ((attachedSections forward index metadata).map StreamedSection.pending) := by
  obtain ⟨few, ownAscending, above⟩ := @kinds_ownSections _ _ metadata gives
  have kinds : ((attachedSections forward index metadata).map StreamedSection.pending).map
      PendingSection.kind = (foreignSections forward).map Section.kind ++
        (ownSections index metadata).map StreamedSection.kind := by
    rw [pending_attachedSections, List.map_append, List.map_map, List.map_map]
    rfl
  have foreignAscending : ((foreignSections forward).map Section.kind).Pairwise (· < ·) :=
    List.pairwise_map.mpr ((ascending_of_open opened).filter _)
  have foreignBelow : ∀ kind ∈ (foreignSections forward).map Section.kind, kind < 0x0200 :=
    List.forall_mem_map.mpr below
  -- Distinct kinds below the engine's own leave room for its three sections.
  have count : (attachedSections forward index metadata).length ≤ maxSectionCount := by
    have bounded := @length_le_of_kinds _ 0x0200 foreignAscending
      fun kind member => UInt32.lt_iff_toNat_lt.mp (foreignBelow kind member)
    rw [attachedSections_eq, List.length_append, List.length_map]
    rw [List.length_map] at bounded
    show _ ≤ 1024
    omega
  have ascending : checkPending none
      ((attachedSections forward index metadata).map StreamedSection.pending) = .ok () := by
    refine checkPending_ok (aligned_attached opened gives) (List.Pairwise.isChain ?_)
    rw [kinds, Option.toList_none, List.nil_append]
    refine List.pairwise_append.mpr ⟨foreignAscending, ownAscending, ?_⟩
    intro kind foreign own owned
    exact UInt32.lt_of_lt_of_le (foreignBelow kind foreign) (above own owned)
  have folds := folds_attachedSections checksum forward gives metadata
  constructor
  · rintro ⟨bytes, attached⟩
    obtain ⟨forwardAgain, indexAgain, openedAgain, givesAgain, streamed⟩ :=
      attachPostgresSections_eq_ok.mp attached
    cases opened.symm.trans openedAgain
    cases gives.unique givesAgain
    exact ((streamSnapshot_eq_ok folds).mp streamed).2.2.2.1
  · intro fits
    exact ⟨_, attachPostgresSections_eq_ok.mpr ⟨forward, index, opened, gives,
      (streamSnapshot_eq_ok folds).mpr ⟨count, Nat.le_refl _, ascending, fits, rfl⟩⟩⟩

-- Attaching metadata alone.

/-- A topology that opens has the sections of the index. -/
theorem index_of_viewed {topology : GraphTopology}
    (opened : Snapshot.openBytes bytes = .ok snapshot)
    (viewed : GraphTopology.ofSnapshot snapshot = pure topology) :
    ∃ found ∈ snapshot.sections, found.kind = inboundOffsetsKind := by
  obtain ⟨_, _, _, openedInbound, _⟩ := ofSnapshot_checked viewed
  unfold fromSnapshotWithKinds at openedInbound
  obtain ⟨offsets, read, _⟩ := Fallible.bind_eq_pure.mp openedInbound
  have typed := mapError_eq_ok.mp (Fallible.ofResult_eq_pure.mp read)
  obtain ⟨elements, bound, _⟩ := bind_eq_ok.mp typed
  obtain ⟨found, member, kind, _⟩ := (soundView_of_open opened).typed _ _ _ _ _ _ bound
  exact ⟨found, member, kind⟩

/-- Attaching metadata alone leaves no section of the index. -/
theorem no_index_attached (listed : snapshot.sections.map Section.planned =
      (attachedSections forward [] metadata).map StreamedSection.pending) :
    ∀ found ∈ snapshot.sections, found.kind ≠ inboundOffsetsKind := by
  intro found member same
  have planned : found.planned ∈ snapshot.sections.map Section.planned := List.mem_map_of_mem member
  have owned : isPostgresOwnedKind found.planned.kind = true := by
    show isPostgresOwnedKind found.kind = true
    rw [same]
    rfl
  rw [listed, pending_attachedSections, planned_foreignSections] at planned
  rcases List.mem_append.mp planned with foreign | last
  · -- A foreign section is of no kind of the engine's own.
    have kept := (List.mem_filter.mp foreign).2
    rw [owned] at kept
    cases kept
  · have metadataOnly : found.planned.kind = metadataKind :=
      congrArg PendingSection.kind (List.mem_singleton.mp last)
    have apart : inboundOffsetsKind ≠ metadataKind := by decide
    exact apart (same.symm.trans metadataOnly)

/-- Attaching metadata to an artifact never leaves the other sections as they were. -/
theorem not_replacesMetadata (checksum : Checksum32) {topology : GraphTopology}
    (opened : Snapshot.openBytes bytes = .ok snapshot)
    (viewed : GraphTopology.ofSnapshot snapshot = pure topology) (metadata : PostgresMetadata) :
    ¬ ReplacesMetadata checksum bytes snapshot topology metadata := by
  rintro ⟨out, after, attached, opensAfter, same, _⟩
  obtain ⟨again, opensAgain, listed⟩ := opened_attached opened .none attached
  cases opensAfter.symm.trans opensAgain
  -- The index was among the other sections, and would have to be still.
  obtain ⟨found, member, kind⟩ := index_of_viewed opened viewed
  have apart : inboundOffsetsKind ≠ metadataKind := by decide
  have besides : found ∈ besidesMetadata snapshot :=
    List.mem_filter.mpr ⟨member, by rw [kind]; exact decide_eq_true apart⟩
  have planned := List.mem_map_of_mem (f := Section.planned) besides
  rw [← same] at planned
  obtain ⟨other, inside, equal⟩ := List.mem_map.mp planned
  refine no_index_attached listed other (List.mem_filter.mp inside).1 ?_
  exact (congrArg PendingSection.kind equal).trans kind

end Oxgraph.Postgres
