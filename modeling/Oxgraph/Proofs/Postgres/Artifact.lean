import Oxgraph.Proofs.Csr.Frozen
import Oxgraph.Proofs.Postgres.Rows
import Oxgraph.Spec.Sync

/-! An artifact that was built opens as the frozen rows and as their transpose. -/

namespace Oxgraph.Postgres

open Layout Container Csr
open Fallible (adapt_eq_pure bind_eq_pure pure_eq_pure)

-- The sections of an artifact.

/-- The section that a copy streams. -/
def copyOf (found : Section) : StreamedSection :=
  rawSection found.kind found.version found.alignmentLog2 found.payload

/-- A copy is planned as the section was. -/
theorem pending_copyOf (found : Section) : (copyOf found).pending = found.planned := by
  unfold copyOf rawSection StreamedSection.pending Section.planned
  rw [List.flatten_singleton]

/-- What an artifact streams: copies of the forward sections, the index, and the metadata. -/
def attachedSections (forward : Container.Snapshot) (index : List StreamedSection)
    (metadata : PostgresMetadata) : List StreamedSection :=
  (foreignSections forward).map copyOf ++
    (index ++ [rawSection metadataKind PostgresMetadata.formatVersion 0 (asBytes metadata)])

/-- The index that two sections of an inbound topology make. -/
def indexSections (offsets targets : Section) : List StreamedSection :=
  [rawSection inboundOffsetsKind offsets.version offsets.alignmentLog2 offsets.payload,
    rawSection inboundTargetsKind targets.version targets.alignmentLog2 targets.payload]

/-- An artifact with an index. -/
def artifactSections (forward : Container.Snapshot) (offsets targets : Section)
    (metadata : PostgresMetadata) : List StreamedSection :=
  attachedSections forward (indexSections offsets targets) metadata

/-- The index sections that optional inbound topology bytes give. -/
inductive GivesIndex : Option Bytes → List StreamedSection → Prop
  | none : GivesIndex none []
  | some {inboundBytes : Bytes} {inbound : Container.Snapshot} {offsets targets : Section}
    (opened : Snapshot.openBytes inboundBytes = .ok inbound)
    (locatedOffsets : inbound.sectionOf (offsetsKind UInt32) = some offsets)
    (locatedTargets : inbound.sectionOf (targetsKind UInt32) = some targets) :
    GivesIndex (some inboundBytes) (indexSections offsets targets)

variable {inboundBytes : Option Bytes}

/-- Optional inbound bytes give one index at most. -/
theorem GivesIndex.unique {index other : List StreamedSection}
    (gives : GivesIndex inboundBytes index) (again : GivesIndex inboundBytes other) :
    index = other := by
  cases gives with
  | none =>
    cases again
    rfl
  | some opened locatedOffsets locatedTargets =>
    cases again with
    | some openedAgain offsetsAgain targetsAgain =>
      cases opened.symm.trans openedAgain
      cases locatedOffsets.symm.trans offsetsAgain
      cases locatedTargets.symm.trans targetsAgain
      rfl

variable {snapshot : Container.Snapshot} {checksum : Checksum32}

/-- Copying a section of an inbound topology streams it under the other kind. -/
theorem copyCsrSection_eq_ok {sourceKind destKind : UInt32} {writer after : SnapshotWriter} :
    copyCsrSection checksum snapshot sourceKind destKind writer = .ok after ↔
      ∃ found, snapshot.sectionOf sourceKind = some found ∧
        (rawSection destKind found.version found.alignmentLog2 found.payload).write checksum writer =
          .ok after := by
  unfold copyCsrSection
  cases snapshot.sectionOf sourceKind with
  | none => exact ⟨fun missing => (nomatch missing), fun ⟨_, missing, _⟩ => (nomatch missing)⟩
  | some found =>
    dsimp only
    rw [mapError_eq_ok, sectionBytes_eq]
    exact ⟨fun written => ⟨found, rfl, written⟩, fun ⟨_, same, written⟩ =>
      Option.some.inj same ▸ written⟩

/-- Copies of sections are written one after the other. -/
theorem copySection_eq (checksum : Checksum32) : copySection checksum =
    fun writer found => (copyOf found).write checksum writer :=
  funext fun _ => funext fun _ => sectionBytes_eq _ _ _ _ _ _

variable {metadata : PostgresMetadata}

/-- An assembled artifact is the stream of its sections over exactly their number. -/
theorem attachPostgresSections_eq_ok {forwardBytes bytes : Bytes} :
    attachPostgresSections checksum forwardBytes inboundBytes metadata = .ok bytes ↔
      ∃ forward index, Snapshot.openBytes forwardBytes = .ok forward ∧
        GivesIndex inboundBytes index ∧
        streamSnapshot checksum (attachedSections forward index metadata).length
          (attachedSections forward index metadata) = .ok bytes := by
  have count (forward : Container.Snapshot) (index : List StreamedSection) :
      (attachedSections forward index metadata).length =
        (foreignSections forward).length + index.length + 1 := by
    simp [attachedSections, Nat.add_assoc]
  -- The sections are written by the same writers, in three parts.
  have parts {forward : Container.Snapshot} {index : List StreamedSection}
      {writer last : SnapshotWriter} :
      (attachedSections forward index metadata).foldlM (StreamedSection.write checksum) writer =
          .ok last ↔ ∃ copied indexed,
        (foreignSections forward).foldlM (copySection checksum) writer = .ok copied ∧
          index.foldlM (StreamedSection.write checksum) copied = .ok indexed ∧
          sectionBytes checksum indexed metadataKind PostgresMetadata.formatVersion 0
            (asBytes metadata) = .ok last := by
    unfold attachedSections
    rw [List.foldlM_append, bind_eq_ok, List.foldlM_map, copySection_eq]
    refine exists_congr fun copied => ?_
    rw [List.foldlM_append, bind_eq_ok, exists_and_left]
    simp only [List.foldlM_cons, List.foldlM_nil, bind_pure, sectionBytes_eq]
  unfold attachPostgresSections
  constructor
  · intro attached
    obtain ⟨forward, openedForward, attached⟩ := bind_eq_ok.mp attached
    obtain ⟨opened, ranInbound, attached⟩ := bind_eq_ok.mp attached
    obtain ⟨created, ranNew, attached⟩ := bind_eq_ok.mp attached
    obtain ⟨copied, ranCopies, attached⟩ := bind_eq_ok.mp attached
    -- What is left once the index is written.
    have streams {index : List StreamedSection} {indexed : SnapshotWriter}
        (gives : GivesIndex inboundBytes index)
        (size : (if opened.isSome then 2 else 0) = index.length)
        (wrote : index.foldlM (StreamedSection.write checksum) copied = .ok indexed)
        (attached : (do
          let writer ← (sectionBytes checksum indexed metadataKind PostgresMetadata.formatVersion 0
            (asBytes metadata)).mapError fun error => PostgresGraphError.build (.plan error)
          (writer.finish checksum).mapError fun error => .build (.plan error)) = .ok bytes) :
        ∃ forward index, Snapshot.openBytes forwardBytes = .ok forward ∧
          GivesIndex inboundBytes index ∧
          streamSnapshot checksum (attachedSections forward index metadata).length
            (attachedSections forward index metadata) = .ok bytes := by
      obtain ⟨last, ranMetadata, finished⟩ := bind_eq_ok.mp attached
      refine ⟨forward, index, mapError_eq_ok.mp openedForward, gives,
        bind_eq_ok.mpr ⟨created, ?_, bind_eq_ok.mpr ⟨last, parts.mpr
          ⟨copied, indexed, mapError_eq_ok.mp ranCopies, wrote, mapError_eq_ok.mp ranMetadata⟩,
            mapError_eq_ok.mp finished⟩⟩⟩
      rw [count, ← size]
      exact mapError_eq_ok.mp ranNew
    cases inboundBytes with
    | none =>
      cases Except.ok.inj (mapError_eq_ok.mp ranInbound)
      exact streams .none rfl rfl attached
    | some inboundBytes =>
      obtain ⟨inbound, opens, same⟩ := bind_eq_ok.mp (mapError_eq_ok.mp ranInbound)
      cases Except.ok.inj same
      obtain ⟨offsetsCopied, ranOffsets, attached⟩ := bind_eq_ok.mp attached
      obtain ⟨indexed, ranTargets, attached⟩ := bind_eq_ok.mp attached
      obtain ⟨offsets, locatedOffsets, wroteOffsets⟩ := copyCsrSection_eq_ok.mp ranOffsets
      obtain ⟨targets, locatedTargets, wroteTargets⟩ := copyCsrSection_eq_ok.mp ranTargets
      refine streams (.some opens locatedOffsets locatedTargets) rfl ?_ attached
      unfold indexSections
      rw [List.foldlM_cons, bind_eq_ok]
      refine ⟨offsetsCopied, wroteOffsets, ?_⟩
      rw [List.foldlM_cons, bind_eq_ok]
      exact ⟨indexed, wroteTargets, rfl⟩
  · rintro ⟨forward, index, openedForward, gives, streamed⟩
    obtain ⟨created, ranNew, streamed⟩ := bind_eq_ok.mp streamed
    obtain ⟨last, wrote, finished⟩ := bind_eq_ok.mp streamed
    obtain ⟨copied, indexed, ranCopies, ranIndex, ranMetadata⟩ := parts.mp wrote
    rw [count] at ranNew
    refine bind_eq_ok.mpr ⟨forward, mapError_eq_ok.mpr openedForward, ?_⟩
    cases gives with
    | none =>
      cases Except.ok.inj ranIndex
      refine bind_eq_ok.mpr ⟨none, rfl, ?_⟩
      refine bind_eq_ok.mpr ⟨created, mapError_eq_ok.mpr ranNew, ?_⟩
      refine bind_eq_ok.mpr ⟨copied, mapError_eq_ok.mpr ranCopies, ?_⟩
      refine bind_eq_ok.mpr ⟨copied, rfl, ?_⟩
      exact bind_eq_ok.mpr ⟨last, mapError_eq_ok.mpr ranMetadata, mapError_eq_ok.mpr finished⟩
    | @some inboundBytes inbound offsets targets opens locatedOffsets locatedTargets =>
      unfold indexSections at ranIndex
      rw [List.foldlM_cons, bind_eq_ok] at ranIndex
      obtain ⟨offsetsCopied, wroteOffsets, wroteTargets⟩ := ranIndex
      simp only [List.foldlM_cons, List.foldlM_nil, bind_pure] at wroteTargets
      refine bind_eq_ok.mpr ⟨some inbound, mapError_eq_ok.mpr ?_, ?_⟩
      · exact bind_eq_ok.mpr ⟨inbound, opens, rfl⟩
      refine bind_eq_ok.mpr ⟨created, mapError_eq_ok.mpr ranNew, ?_⟩
      refine bind_eq_ok.mpr ⟨copied, mapError_eq_ok.mpr ranCopies, ?_⟩
      refine bind_eq_ok.mpr ⟨offsetsCopied, ?_, bind_eq_ok.mpr ⟨indexed, ?_, ?_⟩⟩
      · exact copyCsrSection_eq_ok.mpr ⟨offsets, locatedOffsets, wroteOffsets⟩
      · exact copyCsrSection_eq_ok.mpr ⟨targets, locatedTargets, wroteTargets⟩
      exact bind_eq_ok.mpr ⟨last, mapError_eq_ok.mpr ranMetadata, mapError_eq_ok.mpr finished⟩

/-- An assembled artifact with an index is the stream of its sections. -/
theorem attachPostgresSections_streams {forwardBytes inboundBytes : Bytes} {bytes : Bytes}
    (attached : attachPostgresSections checksum forwardBytes (some inboundBytes) metadata =
      .ok bytes) : ∃ forward inbound offsets targets maxSections,
      Snapshot.openBytes forwardBytes = .ok forward ∧
        Snapshot.openBytes inboundBytes = .ok inbound ∧
        inbound.sectionOf (offsetsKind UInt32) = some offsets ∧
        inbound.sectionOf (targetsKind UInt32) = some targets ∧
        streamSnapshot checksum maxSections (artifactSections forward offsets targets metadata) =
          .ok bytes := by
  obtain ⟨forward, index, openedForward, gives, streamed⟩ :=
    attachPostgresSections_eq_ok.mp attached
  cases gives with
  | @some _ inbound offsets targets opens locatedOffsets locatedTargets =>
    exact ⟨forward, inbound, offsets, targets, _, openedForward, opens, locatedOffsets,
      locatedTargets, streamed⟩

/-- Every section of an artifact folds into its own checksum. -/
theorem folds_attachedSections (checksum : Checksum32) (forward : Container.Snapshot)
    {index : List StreamedSection} (gives : GivesIndex inboundBytes index)
    (metadata : PostgresMetadata) :
    ∀ streamed ∈ attachedSections forward index metadata, streamed.Folds checksum := by
  intro streamed member
  have raw : ∃ kind version alignmentLog2 bytes,
      streamed = rawSection kind version alignmentLog2 bytes := by
    unfold attachedSections at member
    rw [List.mem_append, List.mem_append, List.mem_singleton] at member
    rcases member with copied | indexed | rfl
    · obtain ⟨found, _, rfl⟩ := List.mem_map.mp copied
      exact ⟨_, _, _, _, rfl⟩
    · cases gives with
      | none => cases indexed
      | some =>
        simp only [indexSections, List.mem_cons, List.not_mem_nil, or_false] at indexed
        rcases indexed with rfl | rfl
        · exact ⟨_, _, _, _, rfl⟩
        · exact ⟨_, _, _, _, rfl⟩
    · exact ⟨_, _, _, _, rfl⟩
  obtain ⟨kind, version, alignmentLog2, bytes, rfl⟩ := raw
  exact folds_rawSection checksum kind version alignmentLog2 bytes

/-- A section that is found by its kind is one of the sections. -/
theorem mem_sections_of_sectionOf {kind : UInt32} {found : Section}
    (located : snapshot.sectionOf kind = some found) : found ∈ snapshot.sections := by
  unfold Container.Snapshot.sectionOf at located
  split at located
  · cases located
  · obtain ⟨entry, listed, rfl⟩ := Option.map_eq_some_iff.mp located
    exact List.mem_map_of_mem (List.mem_of_getElem? listed)

/-- Sections found by the kinds of an exported topology hold its words. -/
theorem located_exported {topology : FrozenTopology UInt32 UInt32} {bytes : Bytes}
    (exported : exportTopologySnapshot checksum topology = .ok bytes)
    (opened : Snapshot.openBytes bytes = .ok snapshot) :
    ∀ streamed ∈ topologySections topology, ∃ found,
      snapshot.sectionOf streamed.kind = some found ∧ found.planned = streamed.pending := by
  rw [exportTopologySnapshot_eq, mapError_eq_ok] at exported
  obtain ⟨other, same, _, holds⟩ :=
    reopened_of_stream (by simp [topologySections, folds_wordSection]) exported
  cases opened.symm.trans same
  exact holds

/-- An assembled artifact holds the words of both topologies, the second under the index's kinds. -/
theorem attachPostgresSections_holds {forward inbound : FrozenTopology UInt32 UInt32}
    {forwardBytes inboundBytes : Bytes} {bytes : Bytes}
    (exportedForward : exportTopologySnapshot checksum forward = .ok forwardBytes)
    (exportedInbound : exportTopologySnapshot checksum inbound = .ok inboundBytes)
    (attached : attachPostgresSections checksum forwardBytes (some inboundBytes) metadata =
      .ok bytes) (opened : Snapshot.openBytes bytes = .ok snapshot) :
    (∀ streamed ∈ topologySections forward, ∃ found,
      snapshot.sectionOf streamed.kind = some found ∧ found.planned = streamed.pending) ∧
    ∀ streamed ∈ [wordSection inboundOffsetsKind sectionVersion inbound.offsets,
        wordSection inboundTargetsKind sectionVersion inbound.targets], ∃ found,
      snapshot.sectionOf streamed.kind = some found ∧ found.planned = streamed.pending := by
  obtain ⟨forwardSnapshot, inboundSnapshot, offsets, targets, maxSections, openedForward,
    openedInbound, locatedOffsets, locatedTargets, streamed⟩ :=
      attachPostgresSections_streams attached
  obtain ⟨other, same, _, holds⟩ :=
    reopened_of_stream (folds_attachedSections checksum _
      (.some openedInbound locatedOffsets locatedTargets) _) streamed
  cases opened.symm.trans same
  have holdsForward := located_exported exportedForward openedForward
  have holdsInbound := located_exported exportedInbound openedInbound
  constructor
  · intro section_ member
    obtain ⟨found, located, planned⟩ := holdsForward section_ member
    have kind : found.kind = section_.kind := congrArg PendingSection.kind planned
    -- Neither of the forward kinds is the engine's own, so the section has been copied.
    have foreign : isPostgresOwnedKind found.kind = false := by
      rw [kind]
      simp only [topologySections, List.mem_cons, List.not_mem_nil, or_false] at member
      rcases member with rfl | rfl
      · rfl
      · rfl
    have copied : copyOf found ∈
        artifactSections forwardSnapshot offsets targets metadata := by
      refine List.mem_append_left _ (List.mem_map_of_mem (List.mem_filter.mpr ?_))
      exact ⟨mem_sections_of_sectionOf located, by rw [foreign]; rfl⟩
    obtain ⟨again, locatedAgain, plannedAgain⟩ := holds _ copied
    rw [pending_copyOf, planned] at plannedAgain
    refine ⟨again, ?_, plannedAgain⟩
    rw [← kind]
    exact locatedAgain
  · -- The index is the inbound topology's two sections under other kinds.
    have moved {kind destKind : UInt32} {words : List UInt32} {found : Section}
        (member : wordSection kind sectionVersion words ∈ topologySections inbound)
        (located : inboundSnapshot.sectionOf kind = some found)
        (listed : rawSection destKind found.version found.alignmentLog2 found.payload ∈
          artifactSections forwardSnapshot offsets targets metadata) : ∃ again,
        snapshot.sectionOf (wordSection destKind sectionVersion words).kind = some again ∧
          again.planned = (wordSection destKind sectionVersion words).pending := by
      obtain ⟨exact_, locatedExact, planned⟩ := holdsInbound _ member
      cases located.symm.trans locatedExact
      obtain ⟨again, locatedAgain, plannedAgain⟩ := holds _ listed
      refine ⟨again, locatedAgain, plannedAgain.trans ?_⟩
      have fields : found.version = sectionVersion ∧ found.alignmentLog2 = 0 ∧
          found.payload = arrayBytes words := by
        refine ⟨congrArg PendingSection.version planned,
          congrArg PendingSection.alignmentLog2 planned, ?_⟩
        exact (congrArg PendingSection.payload planned).trans (payload_wordSection _ _ _)
      rw [fields.1, fields.2.1, fields.2.2]
      rfl
    simp only [List.forall_mem_cons, List.not_mem_nil, false_implies, implies_true, and_true]
    refine ⟨moved List.mem_cons_self locatedOffsets ?_,
      moved (List.mem_cons_of_mem _ List.mem_cons_self) locatedTargets ?_⟩
    · exact List.mem_append_right _ List.mem_cons_self
    · exact List.mem_append_right _ (List.mem_cons_of_mem _ List.mem_cons_self)

-- Builds.

/-- A builder holds some multigraph. -/
def HoldsGraph (builder : GraphBuilder UInt32 UInt32) : Prop :=
  ∃ graph, Recorded builder.nodeCount builder.sources builder.targets graph

/-- A call that returns leaves a builder that holds a multigraph. -/
theorem HoldsGraph.add {builder next : GraphBuilder UInt32 UInt32}
    {addition : Addition UInt32 Unit Unit} (held : HoldsGraph builder)
    (added : builder.add addition = pure next) : HoldsGraph next := by
  obtain ⟨graph, recorded⟩ := held
  have kept := GraphBuilder.keeps builder graph addition recorded
  rw [added] at kept
  exact ⟨_, kept⟩

namespace DualTopologySnapshot

/-- Added nodes leave a builder that holds a multigraph. -/
theorem holdsGraph_of_addNodes {count : Nat} {builder after : GraphBuilder UInt32 UInt32}
    (held : HoldsGraph builder) (added : addNodes count builder = pure after) :
    HoldsGraph after := by
  induction count generalizing builder with
  | zero =>
    cases pure_eq_pure.mp added
    exact held
  | succ count ih =>
    obtain ⟨⟨id, next⟩, one, others⟩ := bind_eq_pure.mp added
    have ran : builder.add (.node () : Addition UInt32 Unit Unit) = pure next :=
      bind_eq_pure.mpr ⟨_, adapt_eq_pure.mp one, rfl⟩
    exact ih (held.add ran) others

/-- Added edges leave a builder that holds a multigraph. -/
theorem holdsGraph_of_addEdges {builder after : GraphBuilder UInt32 UInt32}
    {edges : List (UInt32 × UInt32)} (held : HoldsGraph builder)
    (added : addEdges builder edges = pure after) : HoldsGraph after := by
  refine Fallible.foldlM_keeps (fun builder edge after held added => ?_) held added
  obtain ⟨⟨id, next⟩, one, same⟩ := bind_eq_pure.mp added
  cases pure_eq_pure.mp same
  have ran : builder.add (.edge edge.1 edge.2 () : Addition UInt32 Unit Unit) = pure after :=
    bind_eq_pure.mpr ⟨_, adapt_eq_pure.mp one, rfl⟩
  exact held.add ran

/-- A new builder holds the empty multigraph. -/
theorem holdsGraph_new : HoldsGraph .new := ⟨.empty, recorded_empty⟩

end DualTopologySnapshot

/-- The two directions of a topology hold the same edges. -/
def Transposed (topology : GraphTopology) : Prop :=
  ∀ source target : UInt32, source.toNat < topology.forward.nodeBound →
    target.toNat < topology.inbound.nodeBound →
      (source ∈ storedRow topology.inbound target ↔ target ∈ storedRow topology.forward source)

/-- An assembled artifact only opens as a topology that is transposed. -/
theorem DualTopologySnapshot.transposed_of_assemble {checksum : Checksum32}
    {builder : GraphBuilder UInt32 UInt32} {nodeCount : Nat} {builtAtUnix : UInt64} {bytes : Bytes}
    {snapshot : Container.Snapshot} {topology : GraphTopology} (held : HoldsGraph builder)
    (assembled : assemble checksum builder nodeCount builtAtUnix = pure bytes)
    (opened : Snapshot.openBytes bytes = .ok snapshot)
    (viewed : GraphTopology.ofSnapshot snapshot = pure topology) : Transposed topology := by
  obtain ⟨graph, recorded⟩ := held
  unfold assemble at assembled
  obtain ⟨frozen, ranFreeze, assembled⟩ := bind_eq_pure.mp assembled
  split at assembled
  · exact absurd assembled Fallible.throw_ne_pure
  split at assembled
  · exact absurd assembled Fallible.throw_ne_pure
  obtain ⟨inboundFrozen, ranTranspose, assembled⟩ := bind_eq_pure.mp assembled
  obtain ⟨forwardBytes, exportedForward, assembled⟩ := bind_eq_pure.mp assembled
  obtain ⟨inboundBytes, exportedInbound, attached⟩ := bind_eq_pure.mp assembled
  -- The frozen topologies group the recorded edges, and their converse.
  obtain ⟨forward, builtForward, same⟩ :=
    bind_eq_pure.mp (adapt_eq_pure.mp ranFreeze)
  cases pure_eq_pure.mp same
  obtain ⟨memory, fits, inMemory, grouped⟩ := recorded.grouped_of_freeze builtForward
  obtain ⟨inbound, builtInbound, same⟩ :=
    bind_eq_pure.mp (adapt_eq_pure.mp ranTranspose)
  cases pure_eq_pure.mp same
  obtain ⟨memoryInbound, fitsInbound, _, groupedInbound⟩ :=
    (grouped.recorded_converse inMemory).grouped_of_freeze builtInbound
  obtain ⟨holdsForward, holdsInbound⟩ := attachPostgresSections_holds
    (mapError_eq_ok.mp (Fallible.ofResult_eq_pure.mp exportedForward))
    (mapError_eq_ok.mp (Fallible.ofResult_eq_pure.mp exportedInbound))
    (Fallible.ofResult_eq_pure.mp attached) opened
  -- The two views of the artifact are those that the frozen topologies lend.
  obtain ⟨_, _, openedForward, openedInbound, _⟩ := ofSnapshot_checked viewed
  have lentForward := (grouped.fromSnapshot_eq_pure memory holdsForward _).mp openedForward
  have lentInbound :=
    (groupedInbound.fromSnapshotWithKinds_eq_pure memoryInbound holdsInbound _).mp openedInbound
  have boundForward : topology.forward.nodeBound = graph.nodeCount :=
    (grouped.asView_eq_ok.mp lentForward).2.1
  have boundInbound : topology.inbound.nodeBound = graph.nodeCount :=
    (groupedInbound.asView_eq_ok.mp lentInbound).2.1
  intro source target knownSource knownTarget
  have rowForward := (accepted_of_snapshot openedForward).elementSuccessors_eq knownSource
  have rowInbound := (accepted_of_snapshot openedInbound).elementSuccessors_eq knownTarget
  rw [boundForward] at knownSource
  rw [boundInbound] at knownTarget
  rw [grouped.mem_successors fits lentForward knownSource rowForward,
    groupedInbound.mem_successors fitsInbound lentInbound knownTarget rowInbound]
  -- An edge of the converse is an edge whose ends have changed places.
  show _ ∈ graph.edges.map Prod.swap ↔ _
  rw [List.mem_map]
  constructor
  · rintro ⟨⟨first, second⟩, listed, ends⟩
    cases ends
    exact listed
  · intro listed
    exact ⟨_, listed, rfl⟩

end Oxgraph.Postgres
