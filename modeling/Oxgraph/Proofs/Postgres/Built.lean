import Oxgraph.Proofs.Csr.Transpose
import Oxgraph.Proofs.Postgres.Attach
import Oxgraph.Proofs.Postgres.Overlay

/-! A built artifact opens to the rows it was built from. -/

namespace Oxgraph.Postgres

open Layout Container Csr
open Fallible (adapt_eq_pure bind_eq_pure bind_of_pure pure_eq_pure throw_ne_pure)
open List (length_map map_map map_nil)

-- Rows of a multigraph.

/-- The targets of a node's edges are those of the pairs with the source, in order. -/
theorem targets_outgoing (graph : Digraph) (node : Nat) :
    (graph.outgoing node).map graph.target =
      (graph.edges.filter fun edge => edge.1 = node).map fun edge => some edge.2 := by
  have positions := map_snd_filter_zipIdx graph.edges fun edge => decide (edge.1 = node)
  have outgoing : graph.outgoing node =
      (graph.edges.zipIdx.filter fun item => decide (item.1.1 = node)).map Prod.snd := by
    rw [positions]
    unfold Digraph.outgoing
    refine List.filter_congr fun edge _ => ?_
    unfold Digraph.source
    cases graph.edges[edge]? <;> simp
  -- The edge at a listed position is the pair that was listed with it.
  have read : ∀ item ∈ graph.edges.zipIdx.filter fun item => decide (item.1.1 = node),
      graph.target item.2 = some item.1.2 := by
    intro item member
    have located := List.mk_mem_zipIdx_iff_getElem?.mp (List.mem_filter.mp member).1
    unfold Digraph.target
    rw [located]
    rfl
  rw [outgoing, map_map]
  refine (List.map_congr_left read).trans ?_
  conv_rhs => rw [← List.zipIdx_map_fst 0 graph.edges, List.filter_map, map_map]
  rfl

/-- The multigraph of rows between the positions of their keys. -/
def positionsOf (edges : List EdgeRow) (keys : List NodeKey) (keysOf : KeysOf edges keys) :
    Digraph where
  nodeCount := keys.length
  edges := edges.map fun edge => (keys.idxOf edge.source, keys.idxOf edge.target)
  known edge member := by
    obtain ⟨row, listed, rfl⟩ := List.mem_map.mp member
    exact ⟨List.idxOf_lt_length_of_mem (keysOf.source_mem listed),
      List.idxOf_lt_length_of_mem (keysOf.target_mem listed)⟩

/-- A row that answers for a position lists the far keys of the edge rows that start there. -/
theorem keys_of_row {edges : List EdgeRow} {keys : List NodeKey} (keysOf : KeysOf edges keys)
    {near far : EdgeRow → NodeKey} (ends : ∀ edge ∈ edges, near edge ∈ keys ∧ far edge ∈ keys)
    {graph : Digraph}
    (pairs : graph.edges = edges.map fun edge => (keys.idxOf (near edge), keys.idxOf (far edge)))
    {id : UInt32} {key : NodeKey} (located : keys[id.toNat]? = some key)
    {row : Option (List UInt32)}
    (answered : row.map (·.map fun next => some next.toNat) =
      some ((graph.outgoing id.toNat).map graph.target)) :
    row.map (·.map fun next => keys[next.toNat]?) =
      some ((edges.filter fun edge => near edge = key).map fun edge => some (far edge)) := by
  obtain ⟨nexts, rfl, same⟩ := Option.map_eq_some_iff.mp answered
  obtain ⟨inside, rfl⟩ := List.getElem?_eq_some_iff.mp located
  -- A key's position is the node exactly when the key is the node's.
  have chosen : ∀ edge ∈ edges,
      decide (keys.idxOf (near edge) = id.toNat) = decide (near edge = keys[id.toNat]) := by
    intro edge member
    refine decide_eq_decide.mpr ⟨fun position => ?_, fun equal => ?_⟩
    · have found := List.getElem?_idxOf (ends edge member).1
      rw [position, located] at found
      exact (Option.some.inj found).symm
    · rw [equal]
      exact keysOf.nodup.idxOf_getElem _ inside
  rw [targets_outgoing, pairs, List.filter_map, map_map] at same
  have filtered : edges.filter ((fun edge => decide (edge.1 = id.toNat)) ∘ fun edge =>
      (keys.idxOf (near edge), keys.idxOf (far edge))) =
        edges.filter fun edge => near edge = keys[id.toNat] := List.filter_congr chosen
  rw [filtered] at same
  -- Each listed position is read back as the key it is the position of.
  have through : nexts.map (fun next => keys[next.toNat]?) =
      (nexts.map fun next => some next.toNat).map fun place => place.bind fun place => keys[place]? := by
    rw [map_map]
    rfl
  rw [Option.map_some, through, same, map_map]
  refine congrArg some (List.map_congr_left fun edge member => ?_)
  exact List.getElem?_idxOf (ends edge (List.mem_filter.mp member).1).2

-- The builder.

namespace DualTopologySnapshot

/-- Nodes are added while their ids last. -/
theorem addNodes_eq {count : Nat} {builder : GraphBuilder UInt32 UInt32}
    (fits : builder.nodeCount + count ≤ u32Bound) :
    addNodes count builder = pure { builder with nodeCount := builder.nodeCount + count } := by
  induction count generalizing builder with
  | zero => rfl
  | succ count ih =>
    have room : builder.nodeCount < u32Bound := by omega
    have next : (nextDenseIndex builder.nodeCount : Except Nat (UInt32 × Nat)) =
        .ok (.ofNat builder.nodeCount, builder.nodeCount + 1) :=
      nextDenseIndex_eq_ok.mpr ⟨LayoutIndex.toNat_ofNat _ room, rfl,
        Nat.lt_of_le_of_lt room (by decide)⟩
    have added : (builder.addNode : Fallible (GraphBuildError UInt32 UInt32) _) =
        pure (.ofNat builder.nodeCount, { builder with nodeCount := builder.nodeCount + 1 }) := by
      unfold GraphBuilder.addNode
      rw [next]
      rfl
    have rest := @ih { builder with nodeCount := builder.nodeCount + 1 } (by dsimp only; omega)
    rw [addNodes]
    refine (bind_of_pure (adapt_eq_pure.mpr added)).trans (rest.trans ?_)
    dsimp only
    rw [Nat.add_assoc, Nat.add_comm 1]

/-- An edge between known nodes is added while its id lasts. -/
theorem addEdge_eq {builder : GraphBuilder UInt32 UInt32} {source target : UInt32}
    (paired : builder.sources.length = builder.targets.length)
    (room : builder.sources.length < u32Bound)
    (known : source.toNat < builder.nodeCount ∧ target.toNat < builder.nodeCount) :
    addEdges builder [(source, target)] =
      pure { builder with sources := builder.sources ++ [source]
                          targets := builder.targets ++ [target] } := by
  have added : builder.addEdge source target = pure (.ofNat builder.sources.length,
      { builder with sources := builder.sources ++ [source]
                     targets := builder.targets ++ [target] }) := by
    have ensured (node : UInt32) (inside : node.toNat < builder.nodeCount) :
        (ensureNode node builder.nodeCount : Except (GraphBuildError UInt32 UInt32) Nat) =
          .ok node.toNat := (ensureNode_eq node _).trans (if_pos inside)
    have numbered : (indexFromUsize builder.sources.length : Except Nat UInt32) =
        .ok (.ofNat builder.sources.length) :=
      indexFromUsize_eq_ok.mpr (LayoutIndex.toNat_ofNat _ room)
    have grown {items : List UInt32} (item : UInt32) (few : items.length < u32Bound) :
        pushOrPanic (LayoutIndex.bytes UInt32) items item = some (items ++ [item]) :=
      pushOrPanic_eq_some.mpr ⟨Nat.lt_trans few (by decide), rfl⟩
    unfold GraphBuilder.addEdge
    rw [ensured source known.1, ensured target known.2, numbered, grown source room,
      grown target (paired ▸ room)]
    rfl
  exact bind_of_pure
    (bind_of_pure (adapt_eq_pure.mpr added))

/-- Rows whose keys are numbered are added in order. -/
theorem addRows_eq {dense : BTreeMap NodeKey UInt32} {keys : List NodeKey}
    (numbers : Numbers dense keys) {edges : List EdgeRow}
    (listed : ∀ edge ∈ edges, edge.source ∈ keys ∧ edge.target ∈ keys)
    {builder : GraphBuilder UInt32 UInt32} (nodes : builder.nodeCount = keys.length)
    (paired : builder.sources.length = builder.targets.length)
    (room : builder.sources.length + edges.length ≤ u32Bound) :
    (edges.foldlM (fun builder edge => do
      let source ← .ofResult (denseId dense edge.source)
      let target ← .ofResult (denseId dense edge.target)
      addEdges builder [(source, target)]) builder : Fallible PostgresGraphError _) =
      pure { builder with
        sources := builder.sources ++ edges.map fun edge => .ofNat (keys.idxOf edge.source)
        targets := builder.targets ++ edges.map fun edge => .ofNat (keys.idxOf edge.target) } := by
  induction edges generalizing builder with
  | nil =>
    simp only [map_nil, List.append_nil]
    rfl
  | cons edge rest ih =>
    obtain ⟨⟨sourceListed, targetListed⟩, others⟩ := List.forall_mem_cons.mp listed
    have resolved {key : NodeKey} (member : key ∈ keys) :
        denseId dense key = .ok (.ofNat (keys.idxOf key)) := by
      unfold denseId
      rw [Std.ExtTreeMap.get?_eq_getElem?, numbers.listed key member]
    have below {key : NodeKey} (member : key ∈ keys) :
        (UInt32.ofNat (keys.idxOf key)).toNat < builder.nodeCount := by
      have position := List.idxOf_lt_length_of_mem member
      have carried : (UInt32.ofNat (keys.idxOf key)).toNat = keys.idxOf key :=
        UInt32.toNat_ofNat_of_lt' (Nat.lt_of_lt_of_le position numbers.fits)
      rw [carried, nodes]
      exact position
    rw [List.length_cons] at room
    have added := addEdge_eq paired (by omega) ⟨below sourceListed, below targetListed⟩
    rw [List.foldlM_cons, resolved sourceListed, resolved targetListed]
    refine (bind_of_pure added).trans ?_
    refine Eq.trans (@ih others ⟨builder.nodeCount, _, _⟩ nodes ?_ ?_) ?_
    · rw [List.length_append, List.length_append, paired]
      rfl
    · rw [List.length_append, List.length_singleton]
      omega
    simp only [List.map_cons, List.append_assoc, List.singleton_append]

end DualTopologySnapshot

-- The assembled artifact.

/-- An exported topology opens to its two sections. -/
theorem opened_exported {checksum : Checksum32} {topology : FrozenTopology UInt32 UInt32}
    {bytes : Bytes} (exported : exportTopologySnapshot checksum topology = .ok bytes) :
    ∃ snapshot, Snapshot.openBytes bytes = .ok snapshot ∧ snapshot.sections.map Section.planned =
      (topologySections topology).map StreamedSection.pending := by
  rw [exportTopologySnapshot_eq, mapError_eq_ok] at exported
  obtain ⟨snapshot, opened, _, listed⟩ :=
    holds_of_stream (by simp [topologySections, folds_wordSection]) exported
  exact ⟨snapshot, opened, listed⟩

/-- The sections of exported topologies are foreign, below the engine's own, and unaligned. -/
theorem foreign_exported {topology : FrozenTopology UInt32 UInt32} {snapshot : Container.Snapshot}
    (listed : snapshot.sections.map Section.planned =
      (topologySections topology).map StreamedSection.pending) :
    (∀ found ∈ foreignSections snapshot, found.kind < 0x0200) ∧
      (foreignSections snapshot).map Section.planned =
        (topologySections topology).map StreamedSection.pending := by
  have kinds : ∀ pending ∈ (topologySections topology).map StreamedSection.pending,
      pending.kind < 0x0200 ∧ isPostgresOwnedKind pending.kind = false := by
    simp only [topologySections, List.map_cons, map_nil, List.forall_mem_cons,
      List.not_mem_nil, false_implies, implies_true, and_true]
    show (offsetsKind UInt32 < 0x0200 ∧ isPostgresOwnedKind (offsetsKind UInt32) = false) ∧
      targetsKind UInt32 < 0x0200 ∧ isPostgresOwnedKind (targetsKind UInt32) = false
    decide
  constructor
  · intro found member
    have planned := List.mem_map_of_mem (f := Section.planned) (List.mem_filter.mp member).1
    rw [listed] at planned
    exact (kinds _ planned).1
  · rw [planned_foreignSections, listed, List.filter_eq_self]
    intro pending member
    simp [(kinds pending member).2]

/-- The metadata that was attached is read back. -/
theorem readMetadata_attached {snapshot : Container.Snapshot} {metadata : PostgresMetadata}
    {found : Section} (located : snapshot.sectionOf metadataKind = some found)
    (planned : found.planned =
      (rawSection metadataKind PostgresMetadata.formatVersion 0 (asBytes metadata)).pending) :
    readMetadata snapshot = .ok metadata := by
  have payload : found.payload = asBytes metadata := by
    rw [pending_rawSection] at planned
    exact congrArg PendingSection.payload planned
  unfold readMetadata
  rw [located]
  dsimp only
  rw [payload, if_pos (FixedLayout.length_asBytes metadata)]
  have read := FixedLayout.read_asBytes metadata []
  rw [List.append_nil] at read
  rw [read]

/-- Two exported topologies of as many nodes and edges as ids are attached to one another. -/
theorem attach_exported (checksum : Checksum32) {forward inbound : FrozenTopology UInt32 UInt32}
    {forwardBytes inboundBytes : Bytes} (metadata : PostgresMetadata)
    (exportedForward : exportTopologySnapshot checksum forward = .ok forwardBytes)
    (exportedInbound : exportTopologySnapshot checksum inbound = .ok inboundBytes)
    (few : ∀ words ∈ [forward.offsets, forward.targets, inbound.offsets, inbound.targets],
      words.length ≤ u32Bound) :
    ∃ bytes snapshot,
      attachPostgresSections checksum forwardBytes (some inboundBytes) metadata = .ok bytes ∧
        Snapshot.openBytes bytes = .ok snapshot ∧ readMetadata snapshot = .ok metadata := by
  obtain ⟨forwardSnapshot, openedForward, listed⟩ := opened_exported exportedForward
  obtain ⟨inboundSnapshot, openedInbound, _⟩ := opened_exported exportedInbound
  have located := located_exported exportedInbound openedInbound
  obtain ⟨offsets, locatedOffsets, plannedOffsets⟩ := located _ List.mem_cons_self
  obtain ⟨targets, locatedTargets, plannedTargets⟩ :=
    located _ (List.mem_cons_of_mem _ List.mem_cons_self)
  have gives : GivesIndex (some inboundBytes) (indexSections offsets targets) :=
    .some openedInbound locatedOffsets locatedTargets
  obtain ⟨below, foreign⟩ := foreign_exported listed
  -- What is streamed: two sections of each topology, and the metadata.
  have pendings : (attachedSections forwardSnapshot (indexSections offsets targets) metadata).map
      StreamedSection.pending = (topologySections forward).map StreamedSection.pending ++
        (ownSections (indexSections offsets targets) metadata).map StreamedSection.pending := by
    rw [pending_attachedSections, foreign]
  have words (kind version : UInt32) (items : List UInt32) :
      (wordSection kind version items).pending.payload.length = 4 * items.length := by
    rw [payload_wordSection, length_arrayBytes, Nat.mul_comm]
    rfl
  have payloads : offsets.payload.length = 4 * inbound.offsets.length ∧
      targets.payload.length = 4 * inbound.targets.length :=
    ⟨(congrArg (fun pending => pending.payload.length) plannedOffsets).trans (words _ _ _),
      (congrArg (fun pending => pending.payload.length) plannedTargets).trans (words _ _ _)⟩
  have unaligned : ∀ pending ∈ (attachedSections forwardSnapshot (indexSections offsets targets)
      metadata).map StreamedSection.pending, pending.alignmentLog2 = 0 := by
    rw [pendings]
    simp only [topologySections, ownSections, indexSections, List.map_cons, map_nil,
      List.cons_append, List.nil_append, List.forall_mem_cons, List.not_mem_nil, false_implies,
      implies_true, and_true]
    refine ⟨rfl, rfl, ?_, ?_, rfl⟩
    · exact congrArg PendingSection.alignmentLog2 plannedOffsets
    · exact congrArg PendingSection.alignmentLog2 plannedTargets
  have fits : Fits
      (tableEnd (attachedSections forwardSnapshot (indexSections offsets targets) metadata).length)
      ((attachedSections forwardSnapshot (indexSections offsets targets) metadata).map
        StreamedSection.pending) := by
    rw [fits_unaligned unaligned, ← length_map StreamedSection.pending, pendings]
    simp only [List.forall_mem_cons, List.not_mem_nil, false_implies, implies_true,
      and_true] at few
    simp only [topologySections, ownSections, indexSections, List.map_cons, map_nil,
      List.cons_append, List.nil_append, List.sum_cons, List.sum_nil, words, pending_rawSection,
      payloads.1, payloads.2, FixedLayout.length_asBytes, List.length_cons, List.length_nil]
    have width : FixedLayout.size PostgresMetadata = 24 := rfl
    have table : tableEnd 5 ≤ 1024 := by decide
    have bound : u32Bound = 2 ^ 32 := rfl
    show tableEnd 5 + _ < 2 ^ 64
    rw [width]
    omega
  obtain ⟨bytes, attached⟩ :=
    (@attach_returns_iff checksum _ _ _ _ metadata openedForward gives below).mpr fits
  obtain ⟨forwardAgain, indexAgain, openedAgain, givesAgain, streamed⟩ :=
    attachPostgresSections_eq_ok.mp attached
  cases openedForward.symm.trans openedAgain
  cases gives.unique givesAgain
  obtain ⟨snapshot, opened, _, holds⟩ :=
    reopened_of_stream (folds_attachedSections checksum _ gives metadata) streamed
  obtain ⟨found, locatedMetadata, planned⟩ :=
    holds _ (List.mem_append_right _ (List.mem_append_right _ List.mem_cons_self))
  exact ⟨bytes, snapshot, attached, opened, readMetadata_attached locatedMetadata planned⟩

namespace DualTopologySnapshot

variable {graph : Digraph}

/-- A builder of as many nodes and edges as ids freezes to what it holds. -/
theorem freeze_groups {builder : GraphBuilder UInt32 UInt32}
    (recorded : Recorded builder.nodeCount builder.sources builder.targets graph)
    (nodes : graph.nodeCount < u32Bound) (edges : graph.edges.length < u32Bound) :
    ∃ frozen : FrozenGraph UInt32 UInt32, builder.freeze = pure frozen ∧ frozen.Groups graph := by
  have memory : graph.nodeCount + 1 ≤ sliceBound usizeBytes := Nat.le_trans nodes (by decide)
  have inMemory : graph.edges.length ≤ sliceBound (LayoutIndex.bytes UInt32) :=
    Nat.le_trans (Nat.le_of_lt edges) (by decide)
  have froze := @Recorded.freezeTopology_eq UInt32 UInt32 _ _ _ _ _ _ recorded
    (recorded.nodes ▸ memory) edges inMemory
  refine ⟨_, ?_, memory, inMemory, edges, inMemory, recorded.groupedBy edges⟩
  unfold GraphBuilder.freeze
  rw [froze]
  rfl

/-- The arrays of a graph of as many nodes and edges as ids are no longer than there are ids. -/
theorem sizes_grouped {frozen : FrozenGraph UInt32 UInt32} (groups : frozen.Groups graph)
    (nodes : graph.nodeCount < u32Bound) :
    frozen.topology.offsets.length ≤ u32Bound ∧ frozen.topology.targets.length ≤ u32Bound := by
  have offsets : frozen.topology.offsets.length = graph.nodeCount + 1 := by
    rw [← @length_map _ _ _ toNat, groups.grouped.edges.length_offsets, Digraph.length_rows]
  rw [offsets, groups.grouped.length_targets]
  exact ⟨nodes, Nat.le_of_lt groups.fits⟩

/-- Arrays that are no longer than there are ids are exported. -/
theorem exports_of_sizes (checksum : Checksum32) {topology : FrozenTopology UInt32 UInt32}
    (few : topology.offsets.length ≤ u32Bound ∧ topology.targets.length ≤ u32Bound) :
    ∃ bytes, exportTopologySnapshot checksum topology = .ok bytes := by
  refine exportTopologySnapshot_ok checksum ?_
  have width : FixedLayout.size UInt32 = 4 := rfl
  have table : tableEnd 2 ≤ 1024 := by decide
  have bound : u32Bound = 2 ^ 32 := rfl
  rw [length_arrayBytes, length_arrayBytes, width]
  show _ < 2 ^ 64
  omega

/-- A snapshot of both directions opens when the metadata has their counts and says so. -/
theorem viewed_of_holds {forward inbound : FrozenGraph UInt32 UInt32}
    {snapshot : Container.Snapshot} {metadata : PostgresMetadata} (groups : forward.Groups graph)
    (inboundGroups : inbound.Groups graph.converse) (nodes : graph.nodeCount < u32Bound)
    (holdsForward : ∀ streamed ∈ topologySections forward.topology, ∃ found,
      snapshot.sectionOf streamed.kind = some found ∧ found.planned = streamed.pending)
    (holdsInbound : ∀ streamed ∈
        [wordSection inboundOffsetsKind sectionVersion inbound.topology.offsets,
          wordSection inboundTargetsKind sectionVersion inbound.topology.targets], ∃ found,
      snapshot.sectionOf streamed.kind = some found ∧ found.planned = streamed.pending)
    (read : readMetadata snapshot = .ok metadata) (index : metadata.hasReverseIndex = true)
    (nodeCount : metadata.nodeCount.toNat = graph.nodeCount)
    (edgeCount : metadata.edgeCount.toNat = graph.edges.length) :
    ∃ topology, GraphTopology.ofSnapshot snapshot = pure topology ∧
      graph.AnsweredBy (forward.topology.edgeIds.map toNat) topology.forward.traits ∧
      graph.converse.AnsweredBy (inbound.topology.edgeIds.map toNat) topology.inbound.traits := by
  -- Both topologies lend a view, and the snapshot's sections open as these.
  obtain ⟨forwardView, lentForward⟩ := groups.grouped.exists_asView.mpr nodes
  obtain ⟨inboundView, lentInbound⟩ := inboundGroups.grouped.exists_asView.mpr nodes
  have openedForward :=
    (groups.grouped.fromSnapshot_eq_pure groups.memory holdsForward _).mpr lentForward
  have openedInbound := (inboundGroups.grouped.fromSnapshotWithKinds_eq_pure inboundGroups.memory
    holdsInbound _).mpr lentInbound
  obtain ⟨_, boundForward, _, targetsForward⟩ := groups.grouped.asView_eq_ok.mp lentForward
  obtain ⟨_, boundInbound, _, targetsInbound⟩ := inboundGroups.grouped.asView_eq_ok.mp lentInbound
  have countForward : forwardView.targets.length = graph.edges.length := by
    rw [targetsForward, groups.grouped.length_targets]
  have countInbound : inboundView.targets.length = graph.edges.length := by
    rw [targetsInbound, inboundGroups.grouped.length_targets, Digraph.length_edges_converse]
  refine ⟨⟨forwardView, inboundView⟩, ?_, groups.grouped.view_answeredBy groups.fits lentForward,
    inboundGroups.grouped.view_answeredBy inboundGroups.fits lentInbound⟩
  -- None of the checks fails: the counts agree with each other and with the metadata.
  unfold GraphTopology.ofSnapshot
  rw [read]
  refine (bind_of_pure rfl).trans ?_
  rw [if_neg (not_not.mpr index)]
  refine (bind_of_pure (adapt_eq_pure.mpr openedForward)).trans ?_
  refine (bind_of_pure (adapt_eq_pure.mpr openedInbound)).trans ?_
  rw [if_neg (not_not.mpr (boundForward.trans boundInbound.symm)),
    if_neg (not_not.mpr (countForward.trans countInbound.symm)), boundForward, countForward,
    if_neg (not_not.mpr (fromUsize_eq_some.mpr nodeCount)),
    if_neg (not_not.mpr (fromUsize_eq_some.mpr edgeCount))]

/-- What a builder holds is assembled and opens to it, and to its converse. -/
theorem assemble_opens (checksum : Checksum32) (builtAtUnix : UInt64)
    {builder : GraphBuilder UInt32 UInt32}
    (recorded : Recorded builder.nodeCount builder.sources builder.targets graph)
    (nodes : graph.nodeCount < u32Bound) (edges : graph.edges.length < u32Bound) :
    ∃ bytes snapshot metadata topology numbering converseNumbering,
      assemble checksum builder graph.nodeCount builtAtUnix = pure bytes ∧
        Snapshot.openBytes bytes = .ok snapshot ∧ readMetadata snapshot = .ok metadata ∧
        GraphTopology.ofSnapshot snapshot = pure topology ∧
        metadata.nodeCount.toNat = graph.nodeCount ∧
        metadata.edgeCount.toNat = graph.edges.length ∧
        graph.AnsweredBy numbering topology.forward.traits ∧
        graph.converse.AnsweredBy converseNumbering topology.inbound.traits := by
  obtain ⟨frozen, ranFreeze, groups⟩ := freeze_groups recorded nodes edges
  obtain ⟨inbound, turned, inboundGroups⟩ := groups.transpose
  have edgeCount : frozen.topology.edgeIds.length = graph.edges.length := by
    have permuted := groups.grouped.permutes.length_eq
    rwa [length_map, List.length_range] at permuted
  have forwardSizes := sizes_grouped groups nodes
  have inboundSizes := sizes_grouped inboundGroups nodes
  obtain ⟨forwardBytes, exportedForward⟩ := exports_of_sizes checksum forwardSizes
  obtain ⟨inboundBytes, exportedInbound⟩ := exports_of_sizes checksum inboundSizes
  obtain ⟨bytes, snapshot, attached, opened, read⟩ :=
    attach_exported checksum ((PostgresMetadata.new (.ofNat graph.nodeCount)
      (.ofNat graph.edges.length) builtAtUnix true).withReverseIndex) exportedForward
        exportedInbound (by
      simp only [List.forall_mem_cons, List.not_mem_nil, false_implies, implies_true, and_true]
      exact ⟨forwardSizes.1, forwardSizes.2, inboundSizes.1, inboundSizes.2⟩)
  have assembled : assemble checksum builder graph.nodeCount builtAtUnix = pure bytes := by
    have exported {frozen : FrozenGraph UInt32 UInt32} {exportedBytes : Bytes}
        (ran : exportTopologySnapshot checksum frozen.topology = .ok exportedBytes) :
        (exportCsrSnapshot checksum frozen).mapError
          (fun error => PostgresGraphError.build (.graph error)) = .ok exportedBytes :=
      mapError_eq_ok.mpr ran
    unfold assemble
    refine (bind_of_pure (adapt_eq_pure.mpr ranFreeze)).trans ?_
    rw [if_neg (Nat.not_le.mpr nodes), edgeCount, if_neg (Nat.not_le.mpr edges)]
    refine (bind_of_pure (adapt_eq_pure.mpr turned)).trans ?_
    rw [exported exportedForward, exported exportedInbound]
    refine (bind_of_pure rfl).trans ((bind_of_pure rfl).trans ?_)
    exact Fallible.ofResult_eq_pure.mpr attached
  -- The exported sections are read back through the attached artifact.
  obtain ⟨holdsForward, holdsInbound⟩ :=
    attachPostgresSections_holds exportedForward exportedInbound attached opened
  have carriedNodes : (UInt32.ofNat graph.nodeCount).toNat = graph.nodeCount :=
    UInt32.toNat_ofNat_of_lt' nodes
  have carriedEdges : (UInt32.ofNat graph.edges.length).toNat = graph.edges.length :=
    UInt32.toNat_ofNat_of_lt' edges
  obtain ⟨topology, viewed, forwardAnswers, inboundAnswers⟩ := viewed_of_holds groups inboundGroups
    nodes holdsForward holdsInbound read
    (by show decide ((1 ||| 2 : UInt32) &&& 2 ≠ 0) = true; decide) carriedNodes carriedEdges
  exact ⟨bytes, snapshot, _, topology, _, _, assembled, opened, read, viewed, carriedNodes,
    carriedEdges, forwardAnswers, inboundAnswers⟩

variable {edges : List EdgeRow}

/-- Rows of as many keys and rows as ids build an artifact that opens to them. -/
theorem fromEdgeRows_opens (checksum : Checksum32) (builtAtUnix : UInt64) {keys : List NodeKey}
    (keysOf : KeysOf edges keys) (nonempty : edges ≠ []) (nodes : keys.length < u32Bound)
    (rows : edges.length < u32Bound) :
    ∃ bytes snapshot metadata topology,
      fromEdgeRows checksum edges builtAtUnix = pure bytes ∧
        Snapshot.openBytes bytes = .ok snapshot ∧ readMetadata snapshot = .ok metadata ∧
        GraphTopology.ofSnapshot snapshot = pure topology ∧
        topology.HoldsRows metadata edges keys := by
  have ends : ∀ edge ∈ edges, edge.source ∈ keys ∧ edge.target ∈ keys :=
    fun edge member => ⟨keysOf.source_mem member, keysOf.target_mem member⟩
  obtain ⟨dense, numbered, numbers⟩ :=
    (denseNodeMapFromKeys_spec (distinctNodeKeys edges)).1 (by
      rw [keysOf.eq_distinct]
      exact Nat.le_of_lt nodes)
  rw [keysOf.eq_distinct] at numbers
  -- The builder that is left holds the rows between the positions of their keys.
  let builder : GraphBuilder UInt32 UInt32 :=
    { nodeCount := keys.length
      sources := edges.map fun edge => .ofNat (keys.idxOf edge.source)
      targets := edges.map fun edge => .ofNat (keys.idxOf edge.target) }
  have added : addNodes keys.length .new = pure { (GraphBuilder.new : GraphBuilder UInt32 UInt32)
      with nodeCount := keys.length } := by
    have all := @addNodes_eq keys.length .new
      (by rw [show (GraphBuilder.new : GraphBuilder UInt32 UInt32).nodeCount = 0 from rfl]; omega)
    rwa [show (GraphBuilder.new : GraphBuilder UInt32 UInt32).nodeCount = 0 from rfl,
      Nat.zero_add] at all
  have filled := @addRows_eq dense keys numbers edges ends
    { (GraphBuilder.new : GraphBuilder UInt32 UInt32) with nodeCount := keys.length } rfl rfl
    (by simp [GraphBuilder.new]; omega)
  have recorded : Recorded builder.nodeCount builder.sources builder.targets
      (positionsOf edges keys keysOf) := by
    refine ⟨rfl, ?_, ?_, ?_⟩
    · show ((edges.map _).zip (edges.map _)).map _ = edges.map _
      rw [List.zip_map', map_map]
      refine List.map_congr_left fun edge member => ?_
      have carried {key : NodeKey} (listed : key ∈ keys) :
          (UInt32.ofNat (keys.idxOf key)).toNat = keys.idxOf key :=
        UInt32.toNat_ofNat_of_lt' (Nat.lt_trans (List.idxOf_lt_length_of_mem listed) nodes)
      exact Prod.ext (carried (ends edge member).1) (carried (ends edge member).2)
    · show (edges.map _).length = (edges.map _).length
      rw [length_map, length_map]
    · show (edges.map _).length ≤ _
      rw [length_map]
      exact Nat.le_trans (Nat.le_of_lt rows) (by decide)
  obtain ⟨bytes, snapshot, metadata, topology, _, _, assembled, opened, read, viewed, nodeCount,
    edgeCount, forward, inbound⟩ := assemble_opens checksum builtAtUnix recorded nodes
      (by show (edges.map _).length < _; rwa [length_map])
  have built : fromEdgeRows checksum edges builtAtUnix = pure bytes := by
    unfold fromEdgeRows
    rw [if_neg (by simpa using nonempty), numbered]
    refine (bind_of_pure rfl).trans ?_
    rw [numbers.size]
    refine (bind_of_pure added).trans ?_
    exact (bind_of_pure filled).trans assembled
  refine ⟨bytes, snapshot, metadata, topology, built, opened, read, viewed, ?_⟩
  have inside {id : UInt32} {key : NodeKey} (located : keys[id.toNat]? = some key) :
      id.toNat < keys.length := (List.getElem?_eq_some_iff.mp located).1
  refine ⟨⟨forward.elementBound, inbound.elementBound⟩, nodeCount, ?_, ?_, ?_⟩
  · rw [edgeCount]
    exact length_map _
  · intro id key located
    exact keys_of_row keysOf ends rfl located (forward.elementSuccessors id (inside located))
  · intro id key located
    refine keys_of_row keysOf (fun edge member => (ends edge member).symm) ?_ located
      (inbound.elementSuccessors id (inside located))
    show (edges.map _).map _ = _
    rw [map_map]
    rfl

/-- Every edge that is added lengthens the builder's arrays by one. -/
theorem addEdge_length {builder after : GraphBuilder UInt32 UInt32} {source target : UInt32}
    (added : addEdges builder [(source, target)] = pure after) :
    after.sources.length = builder.sources.length + 1 := by
  obtain ⟨next, one, same⟩ := bind_eq_pure.mp added
  cases pure_eq_pure.mp same
  obtain ⟨⟨id, grown⟩, ran, same⟩ := bind_eq_pure.mp one
  cases pure_eq_pure.mp same
  unfold GraphBuilder.addEdge at ran
  obtain ⟨_, _, ran⟩ := bind_eq_pure.mp (adapt_eq_pure.mp ran)
  obtain ⟨_, _, ran⟩ := bind_eq_pure.mp ran
  obtain ⟨_, _, ran⟩ := bind_eq_pure.mp ran
  obtain ⟨sources, pushed, ran⟩ := bind_eq_pure.mp ran
  obtain ⟨_, _, ran⟩ := bind_eq_pure.mp ran
  cases pure_eq_pure.mp ran
  obtain ⟨_, rfl⟩ := pushOrPanic_eq_some.mp (Fallible.orPanic_eq_pure.mp pushed)
  exact List.length_append

/-- Rows that are added lengthen the builder's arrays by their number. -/
theorem addRows_length {dense : BTreeMap NodeKey UInt32}
    {builder after : GraphBuilder UInt32 UInt32} (added : (edges.foldlM (fun builder edge => do
      let source ← .ofResult (denseId dense edge.source)
      let target ← .ofResult (denseId dense edge.target)
      addEdges builder [(source, target)]) builder : Fallible PostgresGraphError _) = pure after)
    (held : HoldsGraph builder) :
    after.sources.length = builder.sources.length + edges.length ∧ HoldsGraph after := by
  induction edges generalizing builder with
  | nil =>
    cases pure_eq_pure.mp added
    exact ⟨rfl, held⟩
  | cons edge rest ih =>
    obtain ⟨next, one, others⟩ := bind_eq_pure.mp added
    obtain ⟨source, _, one⟩ := bind_eq_pure.mp one
    obtain ⟨target, _, one⟩ := bind_eq_pure.mp one
    obtain ⟨length, heldAfter⟩ := ih others (holdsGraph_of_addEdges held one)
    refine ⟨?_, heldAfter⟩
    rw [length, addEdge_length one, List.length_cons]
    omega

/-- Rows that were built were there, and their keys and they are fewer than the ids. -/
theorem fromEdgeRows_counts {checksum : Checksum32} {builtAtUnix : UInt64} {keys : List NodeKey}
    {bytes : Bytes} (keysOf : KeysOf edges keys)
    (built : fromEdgeRows checksum edges builtAtUnix = pure bytes) :
    edges ≠ [] ∧ keys.length < u32Bound ∧ edges.length < u32Bound := by
  unfold fromEdgeRows at built
  split at built
  · exact absurd built throw_ne_pure
  rename_i nonempty
  obtain ⟨dense, numbered, built⟩ := bind_eq_pure.mp built
  -- The keys were numbered, so their ranks are ids.
  have returned := mapError_eq_ok.mp (Fallible.ofResult_eq_pure.mp numbered)
  obtain ⟨numbers, overflows⟩ := denseNodeMapFromKeys_spec (distinctNodeKeys edges)
  rw [keysOf.eq_distinct] at numbers overflows
  have fits : keys.length ≤ u32Bound := by
    by_contra beyond
    rw [overflows (Nat.lt_of_not_le beyond)] at returned
    cases returned
  obtain ⟨other, same, isNumbered⟩ := numbers fits
  cases returned.symm.trans same
  rw [isNumbered.size] at built
  obtain ⟨builder, ranNodes, built⟩ := bind_eq_pure.mp built
  obtain ⟨filled, ranRows, assembled⟩ := bind_eq_pure.mp built
  obtain ⟨length, held⟩ := addRows_length ranRows (holdsGraph_of_addNodes holdsGraph_new ranNodes)
  have start : builder.sources.length = 0 := by
    have added := @addNodes_eq keys.length .new (by
      rw [show (GraphBuilder.new : GraphBuilder UInt32 UInt32).nodeCount = 0 from rfl]
      omega)
    rw [← pure_eq_pure.mp (added.symm.trans ranNodes)]
    rfl
  -- What was assembled passed both checks on its counts.
  unfold assemble at assembled
  obtain ⟨frozen, ranFreeze, assembled⟩ := bind_eq_pure.mp assembled
  split at assembled
  · exact absurd assembled throw_ne_pure
  rename_i fewNodes
  split at assembled
  · exact absurd assembled throw_ne_pure
  rename_i fewEdges
  obtain ⟨graph, recorded⟩ := held
  obtain ⟨topology, froze, equal⟩ :=
    bind_eq_pure.mp (adapt_eq_pure.mp ranFreeze)
  cases pure_eq_pure.mp equal
  have permuted := (recorded.grouped_of_freeze froze).2.2.2.permutes.length_eq
  rw [length_map, List.length_range, recorded.length_edges, length, start] at permuted
  rw [permuted] at fewEdges
  exact ⟨by simpa using nonempty, Nat.lt_of_not_le fewNodes, by omega⟩

end DualTopologySnapshot

/-- Built artifacts open to their rows; attaching keeps foreign sections, and again is the same. -/
theorem built_artifact_opens (checksum : Checksum32) :
    (∀ (edges : List EdgeRow) (builtAtUnix : UInt64), ∃ keys, KeysOf edges keys ∧
      (edges ≠ [] → keys.length < u32Bound → edges.length < u32Bound →
        ∃ bytes snapshot metadata topology,
          DualTopologySnapshot.fromEdgeRows checksum edges builtAtUnix = pure bytes ∧
            Snapshot.openBytes bytes = .ok snapshot ∧ readMetadata snapshot = .ok metadata ∧
            GraphTopology.ofSnapshot snapshot = pure topology ∧
            topology.HoldsRows metadata edges keys)) ∧
    ∀ (forwardBytes inboundBytes : Bytes) (forward inbound : Container.Snapshot)
      (offsets targets : Section) (metadata : PostgresMetadata),
      Snapshot.openBytes forwardBytes = .ok forward →
      (∀ found ∈ foreignSections forward, found.kind < 0x0200) →
      Snapshot.openBytes inboundBytes = .ok inbound →
      inbound.sectionOf (offsetsKind UInt32) = some offsets →
      inbound.sectionOf (targetsKind UInt32) = some targets →
      -- It returns whenever the result can be addressed.
      ((∃ out, attachPostgresSections checksum forwardBytes (some inboundBytes) metadata =
          .ok out) ↔
        Fits (tableEnd (artifactSections forward offsets targets metadata).length)
          ((artifactSections forward offsets targets metadata).map StreamedSection.pending)) ∧
      ∀ out, attachPostgresSections checksum forwardBytes (some inboundBytes) metadata = .ok out →
        ∃ after, Snapshot.openBytes out = .ok after ∧
          (foreignSections after).map Section.planned =
            (foreignSections forward).map Section.planned ∧
          attachPostgresSections checksum out (some inboundBytes) metadata = .ok out := by
  constructor
  · intro edges builtAtUnix
    have keysOf := keysOf_distinctNodeKeys edges
    exact ⟨_, keysOf, DualTopologySnapshot.fromEdgeRows_opens checksum builtAtUnix keysOf⟩
  · intro forwardBytes inboundBytes forward inbound offsets targets metadata opened below
      openedInbound locatedOffsets locatedTargets
    have gives : GivesIndex (some inboundBytes) (indexSections offsets targets) :=
      .some openedInbound locatedOffsets locatedTargets
    refine ⟨attach_returns_iff opened gives below, fun out attached => ?_⟩
    obtain ⟨after, opens, listed⟩ := opened_attached opened gives attached
    exact ⟨after, opens, foreign_attached gives listed,
      attached_again gives opened attached opens listed⟩

/-- Rows of three keys open by their ranks, and a loose node is attached to itself twice. -/
theorem built_artifact_opens_example :
    (∃ bytes snapshot metadata topology,
      DualTopologySnapshot.fromEdgeRows (fun _ _ => 0) [⟨7, 3⟩, ⟨7, 9⟩] 0 = pure bytes ∧
        Snapshot.openBytes bytes = .ok snapshot ∧ readMetadata snapshot = .ok metadata ∧
        GraphTopology.ofSnapshot snapshot = pure topology ∧
        topology.HoldsRows metadata [⟨7, 3⟩, ⟨7, 9⟩] [3, 7, 9]) ∧
    ∃ looseBytes out, exportTopologySnapshot (fun _ _ => 0)
        (⟨1, [0, 0], [], [], [], []⟩ : FrozenTopology UInt32 UInt32) = .ok looseBytes ∧
      attachPostgresSections (fun _ _ => 0) looseBytes (some looseBytes) ⟨1, 3, 0, 1, 0⟩ =
        .ok out ∧
      attachPostgresSections (fun _ _ => 0) out (some looseBytes) ⟨1, 3, 0, 1, 0⟩ = .ok out := by
  obtain ⟨rows, attaches⟩ := built_artifact_opens fun _ _ => 0
  constructor
  · obtain ⟨keys, keysOf, opens⟩ := rows [⟨7, 3⟩, ⟨7, 9⟩] 0
    have listed : KeysOf [⟨7, 3⟩, ⟨7, 9⟩] [3, 7, 9] :=
      ⟨by decide, fun key => by simp; grind⟩
    obtain rfl := keysOf.eq_distinct.symm.trans listed.eq_distinct
    have few : 3 < u32Bound ∧ 2 < u32Bound := by decide +kernel
    exact opens (List.cons_ne_nil _ _) few.1 few.2
  · obtain ⟨looseBytes, exported⟩ := @DualTopologySnapshot.exports_of_sizes (fun _ _ => 0)
      ⟨1, [0, 0], [], [], [], []⟩ (by decide +kernel)
    obtain ⟨loose, opened, listed⟩ := opened_exported exported
    have located := located_exported exported opened
    obtain ⟨offsets, locatedOffsets, _⟩ := located _ List.mem_cons_self
    obtain ⟨targets, locatedTargets, _⟩ := located _ (List.mem_cons_of_mem _ List.mem_cons_self)
    obtain ⟨out, _, attached, _⟩ := attach_exported (fun _ _ => 0) ⟨1, 3, 0, 1, 0⟩ exported exported
      (by decide +kernel)
    obtain ⟨_, _, _, again⟩ := (attaches _ _ loose loose offsets targets _ opened
      (foreign_exported listed).1 opened locatedOffsets locatedTargets).2 out attached
    exact ⟨looseBytes, out, exported, attached, again⟩

/-- Attaching metadata alone never only replaces it: an artifact loses its index with it. -/
theorem attach_metadata_drops_index (checksum : Checksum32) {bytes : Bytes}
    {snapshot : Container.Snapshot} {topology : GraphTopology}
    (opened : Snapshot.openBytes bytes = .ok snapshot)
    (viewed : GraphTopology.ofSnapshot snapshot = pure topology) (metadata : PostgresMetadata) :
    ¬ ReplacesMetadata checksum bytes snapshot topology metadata ∧
      ∀ out, attachMetadata checksum bytes metadata = .ok out →
        ∃ after, Snapshot.openBytes out = .ok after ∧
          after.sections.map Section.planned = (foreignSections snapshot).map Section.planned ++
            [⟨metadataKind, PostgresMetadata.formatVersion, 0, asBytes metadata⟩] ∧
          ∀ other, GraphTopology.ofSnapshot after ≠ pure other := by
  refine ⟨not_replacesMetadata checksum opened viewed metadata, fun out attached => ?_⟩
  obtain ⟨after, opens, listed⟩ := opened_attached opened .none attached
  refine ⟨after, opens, ?_, fun other viewedAfter => ?_⟩
  · rw [listed, pending_attachedSections]
    show _ ++ [(rawSection _ _ _ _).pending] = _
    rw [pending_rawSection]
  · obtain ⟨found, member, kind⟩ := index_of_viewed opens viewedAfter
    exact no_index_attached listed found member kind

/-- The artifact of one row loses its index to its own metadata. -/
theorem attach_metadata_drops_index_one_row : ∃ bytes snapshot topology before,
    DualTopologySnapshot.fromEdgeRows (fun _ _ => 0) [⟨1, 2⟩] 0 = pure bytes ∧
      Snapshot.openBytes bytes = .ok snapshot ∧ readMetadata snapshot = .ok before ∧
      GraphTopology.ofSnapshot snapshot = pure topology ∧
      ¬ ReplacesMetadata (fun _ _ => 0) bytes snapshot topology before := by
  obtain ⟨bytes, snapshot, before, topology, built, opened, read, viewed, _⟩ :=
    DualTopologySnapshot.fromEdgeRows_opens (fun _ _ => 0) 0 (keysOf_distinctNodeKeys [⟨1, 2⟩])
      (by decide) (by decide +kernel) (by decide)
  exact ⟨bytes, snapshot, topology, before, built, opened, read, viewed,
    (attach_metadata_drops_index _ opened viewed before).1⟩

/-- Not every artifact has its metadata replaced: that of one row does not. -/
theorem attach_metadata_not_replaces : ¬ ∀ (bytes : Bytes) (snapshot : Container.Snapshot)
    (topology : GraphTopology) (metadata : PostgresMetadata),
      Snapshot.openBytes bytes = .ok snapshot → GraphTopology.ofSnapshot snapshot = pure topology →
        ReplacesMetadata (fun _ _ => 0) bytes snapshot topology metadata := by
  intro replaces
  obtain ⟨bytes, snapshot, before, topology, _, opened, _, viewed, _⟩ :=
    DualTopologySnapshot.fromEdgeRows_opens (fun _ _ => 0) 0 (keysOf_distinctNodeKeys [⟨1, 2⟩])
      (by decide) (by decide +kernel) (by decide)
  exact not_replacesMetadata _ opened viewed before (replaces _ _ _ before opened viewed)

end Oxgraph.Postgres
