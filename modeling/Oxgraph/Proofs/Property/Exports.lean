import Oxgraph.Proofs.Bcsr.Frozen
import Oxgraph.Proofs.Csr.Transpose
import Oxgraph.Proofs.Property.Sections

/-! Exported graphs and hypergraphs keep their property layers aligned with what they number. -/

namespace Oxgraph.Csr

open Container Layout Property

section

variable {N E Id T U : Type} [PropertyIndex N] [PropertyIndex E] [DecidableEq T] [LayerId Id E]
  {ipc : ArrowIpc T U} {arrow : ArrowSelect T U}

/-- The modes of a topology. -/
def modes (topology : FrozenTopology N E) : List IdentityModeSummary :=
  [⟨.element, .localEqualsCanonical, topology.nodeCount⟩,
    ⟨.relation, .explicitMap, topology.edgeIds.length⟩]

/-- The sections of a topology with properties, in the order they are streamed. -/
def allSections (topology : FrozenTopology N E) (encoded : EncodedPropertySnapshot) :
    List StreamedSection :=
  topologySections topology ++
    propertyStreams (modes topology) (identityMapKind E .relation) topology.edgeIds E encoded

variable {topology : FrozenTopology N E}

/-- Exporting streams the six sections over exactly their reservation. -/
theorem exportTopologyPropertySnapshot_eq_ok {checksum : Checksum32}
    (nodes : topology.nodeCount < LayoutIndex.bound E)
    (edges : topology.edgeIds.length < LayoutIndex.bound E) {encoded : EncodedPropertySnapshot}
    {bytes : Bytes}
    (streamed : streamSnapshot checksum 6 (allSections topology encoded) = .ok bytes) :
    exportTopologyPropertySnapshot checksum topology encoded = .ok bytes := by
  have appended (writer : SnapshotWriter) :=
    @appendSections_eq E _ E _ checksum writer (modes topology) (identityMapKind E .relation)
      topology.edgeIds encoded
  unfold streamSnapshot allSections topologySections at streamed
  simp only [List.foldlM_append, List.foldlM_cons, List.foldlM_nil, bind_assoc, pure_bind,
    ← appended, ← sectionWidths_eq] at streamed
  refine bind_eq_ok.mpr ⟨_, mapError_eq_ok.mpr (identityRecord_eq_ok _ _ nodes), ?_⟩
  refine bind_eq_ok.mpr ⟨_, mapError_eq_ok.mpr (identityRecord_eq_ok _ _ edges), ?_⟩
  exact mapError_eq_ok.mpr streamed

/-- Layers that a graph can be exported with are encoded, those of the edges in their new order. -/
theorem encodeGraphProperties_eq_ok (inverse : ipc.Inverse) (selects : arrow.Positional)
    {layers : GraphPropertyLayers Id N E T U} (suits : ExportsWith ipc arrow topology layers)
    (edges : topology.edgeIds.length < LayoutIndex.bound E)
    (sources : topology.sources.length = topology.edgeIds.length)
    (permutes : (topology.edgeIds.map Layout.toNat).Perm (List.range topology.edgeIds.length)) :
    ∃ stored, encodeGraphProperties ipc arrow topology layers = pure (encodedLayers E ipc stored) ∧
      List.Forall₂ StoredAs stored (placedLayers topology layers) ∧
      Representable E ipc (otherLen topology) stored := by
  obtain ⟨wholeElements, wholeRelations⟩ := List.forall_mem_append.mp suits.exportable.len
  rw [List.forall_mem_map] at wholeElements wholeRelations
  have elements : ∀ layer ∈ layers.element, layer.len = topology.nodeCount :=
    fun layer member => (wholeElements layer member).trans List.length_range
  have relations : ∀ layer ∈ layers.relation, layer.len = topology.edgeIds.length :=
    fun layer member => (wholeRelations layer member).trans (List.length_map _)
  obtain ⟨relation, rekeyed, storedRelations⟩ :=
    storedAs_order selects edges permutes .relation relations suits.invertible
  have stored : List.Forall₂ StoredAs
      (layers.element.map PropertyLayer.any ++ relation.map PropertyLayer.any)
      (placedLayers topology layers) :=
    List.rel_append (storedAs_range .element elements) storedRelations
  have representable := suits.representable relation rekeyed
  refine ⟨_, ?_, stored, representable⟩
  have checkedElements : validatePropertyLengths topology layers.element .element = .ok () :=
    mapError_eq_ok.mpr (validateLayerLengths_eq_ok elements)
  have checkedRelations : validatePropertyLengths topology layers.relation .relation = .ok () :=
    mapError_eq_ok.mpr (validateLayerLengths_eq_ok fun layer member =>
      (relations layer member).trans sources.symm)
  refine Fallible.seq_eq_pure.mpr ⟨Fallible.ofResult_eq_pure.mpr checkedElements, ?_⟩
  refine Fallible.seq_eq_pure.mpr ⟨Fallible.ofResult_eq_pure.mpr checkedRelations, ?_⟩
  -- The edges are rekeyed one layer after the other, and then all layers are encoded.
  refine (Fallible.bind_of_pure (Fallible.mapM_adapt rekeyed)).trans ?_
  refine Fallible.ofResult_eq_pure.mpr (mapError_eq_ok.mpr ?_)
  rw [encodeGraphPropertySnapshot_eq]
  exact suits.exportable.encodes inverse stored representable

/-- The kinds of the six sections ascend. -/
theorem kinds_ascending (topology : FrozenTopology N E) (encoded : EncodedPropertySnapshot) :
    ((allSections topology encoded).map StreamedSection.kind).IsChain (· < ·) := by
  -- Each kind base is at least one step of four above the one before.
  simp only [allSections, topologySections, propertyStreams, List.map_cons, List.map_nil,
    List.cons_append, List.nil_append, wordSection, rawSection, offsetsKind,
    targetsKind, propertyDescriptorsKind, propertyDataKind, identityModesKind, identityMapKind,
    List.isChain_cons_cons, List.isChain_singleton, and_true]
  refine ⟨kind_lt ?_, kind_lt ?_, kind_lt ?_, kind_lt ?_, kind_lt ?_⟩
  all_goals decide

/-- A grouped topology is exported with its layers, and reopens with them aligned. -/
theorem Digraph.GroupedBy.exportsAligned {graph : Digraph} (grouped : graph.GroupedBy topology)
    (memory : graph.nodeCount + 1 ≤ sliceBound usizeBytes)
    (fits : graph.edges.length < LayoutIndex.bound E) (inverse : ipc.Inverse)
    (selects : arrow.Positional) {layers : GraphPropertyLayers Id N E T U}
    (suits : ExportsWith ipc arrow topology layers) (checksum : Checksum32) :
    ∃ encoded, encodeGraphProperties ipc arrow topology layers = pure encoded ∧
      ExportsAligned checksum ipc topology layers
        (.ofResult (exportTopologyPropertySnapshot checksum topology encoded)) := by
  have permutes := grouped.permutes
  have length : topology.edgeIds.length = graph.edges.length := by
    have same := permutes.length_eq
    rwa [List.length_map, List.length_range] at same
  have edges : topology.edgeIds.length < LayoutIndex.bound E := length ▸ fits
  obtain ⟨stored, encodes, sources, representable⟩ := encodeGraphProperties_eq_ok inverse selects
    suits edges (grouped.length_sources.trans length.symm) (length ▸ permutes)
  refine ⟨_, encodes, ?_⟩
  have small := representable.addressed
  rw [← length_encodedLayers] at small
  unfold otherLen at small
  obtain ⟨bytes, snapshot, streamed, opened, checked, topologyHeld, propertiesHeld⟩ :=
    @reopened_properties E _ checksum (topologySections topology) (modes topology)
      (identityMapKind E .relation) topology.edgeIds (encodedLayers E ipc stored)
      (by simp [topologySections, folds_wordSection]) (by simp [topologySections, wordSection])
      (kinds_ascending topology _) (by show 6 ≤ maxSectionCount; decide)
      (by
        show tableEnd 6 + _ + 2 * _ + _ + _ < _
        simp only [topologySections, List.map_cons, List.map_nil, payload_wordSection, List.sum_cons,
          List.sum_nil]
        omega)
  have families : ((modes topology).map IdentityModeSummary.idFamily).Nodup := by
    simp [modes]
  have counts : ∀ mode ∈ modes topology, mode.localLen < LayoutIndex.bound E := by
    simp [modes, suits.nodes, edges]
  have mapped : ∀ mode ∈ modes topology, mode.mode = .explicitMap →
      identityMapKind E .relation = identityMapKind E mode.idFamily ∧
        topology.edgeIds.length = mode.localLen := by
    simp [modes]
  obtain ⟨edgeIds, keeps⟩ := suits.exportable.keepsLayers inverse sources representable families
    counts mapped propertiesHeld
  -- The topology reopens as it does without properties.
  have opens := grouped.fromSnapshot_eq_pure memory topologyHeld
  have exported := exportTopologyPropertySnapshot_eq_ok suits.nodes edges streamed
  refine ⟨bytes, snapshot, graph, Fallible.ofResult_eq_pure.mpr exported, opened, checked,
    grouped.answeredBy fits, ?_, fun view reopened => ?_, edgeIds, keeps⟩
  · rw [grouped.nodes, ← grouped.exists_asView]
    exact exists_congr opens
  · exact grouped.view_answeredBy fits ((opens view).mp reopened)

end

end Oxgraph.Csr

-- Exported hypergraphs keep their property layers in canonical order.

namespace Oxgraph.Bcsr

open Container Layout Property

section

variable {V R O Id T U : Type} [PropertyIndex V] [PropertyIndex R] [PropertyIndex O] [DecidableEq T]
  [LayerId Id O] {ipc : ArrowIpc T U} {arrow : ArrowSelect T U} {topology : FrozenTopology V R O}

/-- The modes of a topology. -/
def modes (topology : FrozenTopology V R O) : List IdentityModeSummary :=
  [⟨.element, .localEqualsCanonical, topology.vertexCount⟩,
    ⟨.relation, .localEqualsCanonical, topology.relationCount⟩,
    ⟨.incidence, .explicitMap, topology.totalParticipants⟩]

/-- The sections of a topology with properties, in the order they are streamed. -/
def allSections (topology : FrozenTopology V R O) (encoded : EncodedPropertySnapshot) :
    List StreamedSection :=
  topologySections topology ++
    propertyStreams (modes topology) (identityMapKind O .incidence) (incidences topology) O encoded

section

variable (total : topology.totalParticipants < LayoutIndex.bound O)
include total

omit [PropertyIndex V] [PropertyIndex R] in
/-- Each incidence is numbered by itself. -/
theorem map_incidences :
    (incidences topology).map Layout.toNat = List.range topology.totalParticipants :=
  map_toNat_map_ofNat fun _ member => Nat.lt_trans (List.mem_range.mp member) total

omit [PropertyIndex V] [PropertyIndex R] in
/-- The local map of the incidences is there when the width can number them. -/
theorem incidenceMap_eq_ok :
    (bcsrLocalIncidenceToCanonical topology : Except (HyperBuildError V R) (List O)) =
      .ok (incidences topology) :=
  mapM_mapError_eq_ok.mpr (mapM_indexFromUsize_eq_ok.mpr (map_incidences total))

end

omit [PropertyIndex V] [PropertyIndex R] in
theorem length_incidences (topology : FrozenTopology V R O) :
    (incidences topology).length = topology.totalParticipants := by
  rw [incidences, List.length_map, List.length_range]

variable {layers : HyperPropertyLayers Id V R O T U}

/-- Exporting streams the twelve sections over exactly their reservation. -/
theorem exportTopologyPropertySnapshot_eq_ok {checksum : Checksum32}
    (suits : ExportsWith ipc arrow topology layers) {encoded : EncodedPropertySnapshot}
    {bytes : Bytes}
    (streamed : streamSnapshot checksum 12 (allSections topology encoded) = .ok bytes) :
    exportTopologyPropertySnapshot checksum topology encoded = .ok bytes := by
  have appended (writer : SnapshotWriter) :=
    @appendSections_eq O _ O _ checksum writer (modes topology) (identityMapKind O .incidence)
      (incidences topology) encoded
  have topologyStreamed (writer : SnapshotWriter) : addTopologySections checksum writer topology =
      (topologySections topology).foldlM (StreamedSection.write checksum) writer := by
    unfold addTopologySections topologySections
    simp only [sectionWidths_eq, List.foldlM_cons, List.foldlM_nil, bind_pure]
  unfold streamSnapshot allSections at streamed
  simp only [List.foldlM_append, bind_assoc, ← appended, ← topologyStreamed] at streamed
  refine bind_eq_ok.mpr ⟨_, incidenceMap_eq_ok suits.incidences, ?_⟩
  refine bind_eq_ok.mpr ⟨_, mapError_eq_ok.mpr (identityRecord_eq_ok _ _ suits.vertices), ?_⟩
  refine bind_eq_ok.mpr ⟨_, mapError_eq_ok.mpr (identityRecord_eq_ok _ _ suits.relations), ?_⟩
  refine bind_eq_ok.mpr ⟨IdentityModeSummary.record O ⟨.incidence, .explicitMap,
    topology.totalParticipants⟩, mapError_eq_ok.mpr ?_, mapError_eq_ok.mpr streamed⟩
  rw [length_incidences]
  exact identityRecord_eq_ok _ _ suits.incidences

/-- Layers that a hypergraph can be exported with are encoded in canonical order. -/
theorem encodeHyperProperties_eq_ok (inverse : ipc.Inverse) (selects : arrow.Positional)
    (suits : ExportsWith ipc arrow topology layers) :
    ∃ stored, encodeHyperProperties ipc arrow topology layers = pure (encodedLayers O ipc stored) ∧
      List.Forall₂ StoredAs stored (placedLayers topology layers) ∧
      Representable O ipc (otherLen topology) stored := by
  obtain ⟨wholeOthers, wholeIncidences⟩ := List.forall_mem_append.mp suits.exportable.len
  obtain ⟨wholeElements, wholeRelations⟩ := List.forall_mem_append.mp wholeOthers
  rw [List.forall_mem_map] at wholeElements wholeRelations wholeIncidences
  have elements : ∀ layer ∈ layers.element, layer.len = topology.vertexCount :=
    fun layer member => (wholeElements layer member).trans List.length_range
  have relations : ∀ layer ∈ layers.relation, layer.len = topology.relationCount :=
    fun layer member => (wholeRelations layer member).trans List.length_range
  have participants : ∀ layer ∈ layers.incidence, layer.len = topology.totalParticipants :=
    fun layer member => (wholeIncidences layer member).trans List.length_range
  have numbered := map_incidences suits.incidences
  have length := length_incidences topology
  obtain ⟨incidence, rekeyed, storedIncidences⟩ :=
    @storedAs_order Id T U _ O _ arrow selects (incidences topology) (length ▸ suits.incidences)
      (by rw [numbered, length]) .incidence layers.incidence
      (fun layer member => (participants layer member).trans length.symm) suits.invertible
  rw [numbered] at storedIncidences
  have stored : List.Forall₂ StoredAs
      (layers.element.map PropertyLayer.any ++ layers.relation.map PropertyLayer.any ++
        incidence.map PropertyLayer.any) (placedLayers topology layers) :=
    List.rel_append (List.rel_append (storedAs_range .element elements)
      (storedAs_range .relation relations)) storedIncidences
  have representable := suits.representable incidence rekeyed
  refine ⟨_, ?_, stored, representable⟩
  have checked {I : Type} [PropertyIndex I] {own : List (PropertyLayer Id I T U)}
      {idFamily : Property.IdFamily} (whole : validateLayerLengths own idFamily _ = .ok ()) :
      (.ofResult (validatePropertyLengths topology own idFamily) :
        Fallible (HyperBuildError V R) Unit) = pure () :=
    Fallible.ofResult_eq_pure.mpr (mapError_eq_ok.mpr whole)
  refine Fallible.seq_eq_pure.mpr ⟨checked (validateLayerLengths_eq_ok elements), ?_⟩
  refine Fallible.seq_eq_pure.mpr ⟨checked (validateLayerLengths_eq_ok relations), ?_⟩
  refine Fallible.seq_eq_pure.mpr ⟨checked (validateLayerLengths_eq_ok participants), ?_⟩
  -- The incidences are rekeyed one layer after the other, and then all layers are encoded.
  refine (Fallible.bind_of_pure
    (Fallible.ofResult_eq_pure.mpr (incidenceMap_eq_ok suits.incidences))).trans ?_
  refine (Fallible.bind_of_pure (Fallible.mapM_adapt rekeyed)).trans ?_
  refine Fallible.ofResult_eq_pure.mpr (mapError_eq_ok.mpr ?_)
  rw [encodeHyperPropertySnapshot_eq]
  exact suits.exportable.encodes inverse stored representable

/-- The kinds of the twelve sections ascend. -/
theorem kinds_ascending (topology : FrozenTopology V R O) (encoded : EncodedPropertySnapshot) :
    ((allSections topology encoded).map StreamedSection.kind).IsChain (· < ·) := by
  -- Each kind base is at least one step of four above the one before.
  simp only [allSections, topologySections, propertyStreams, List.map_cons, List.map_nil,
    List.cons_append, List.nil_append, wordSection, rawSection, sectionKind,
    propertyDescriptorsKind, propertyDataKind, identityModesKind, identityMapKind,
    List.isChain_cons_cons, List.isChain_singleton, and_true]
  refine ⟨kind_lt ?_, kind_lt ?_, kind_lt ?_, kind_lt ?_, kind_lt ?_, kind_lt ?_, kind_lt ?_,
    kind_lt ?_, kind_lt ?_, kind_lt ?_, kind_lt ?_⟩
  all_goals decide

/-- A frozen hypergraph is exported with its layers, and reopens with them in canonical order. -/
theorem Frozen.exportsAligned (frozen : Frozen topology) (inverse : ipc.Inverse)
    (selects : arrow.Positional) (suits : ExportsWith ipc arrow topology layers)
    (checksum : Checksum32) :
    ∃ encoded, encodeHyperProperties ipc arrow topology layers = pure encoded ∧
      ExportsAligned checksum ipc topology layers
        (.ofResult (exportTopologyPropertySnapshot checksum topology encoded)) := by
  obtain ⟨stored, encodes, sources, representable⟩ :=
    encodeHyperProperties_eq_ok inverse selects suits
  refine ⟨_, encodes, ?_⟩
  have small := representable.addressed
  rw [← length_encodedLayers] at small
  unfold otherLen topologyLen at small
  obtain ⟨bytes, snapshot, streamed, opened, checked, topologyHeld, propertiesHeld⟩ :=
    @reopened_properties O _ checksum (topologySections topology) (modes topology)
      (identityMapKind O .incidence) (incidences topology) (encodedLayers O ipc stored)
      (by simp [topologySections, folds_wordSection]) (by simp [topologySections, wordSection])
      (kinds_ascending topology _) (by show 12 ≤ maxSectionCount; decide)
      (by
        show tableEnd 12 + _ + 3 * _ + _ + _ < _
        simp only [topologySections, List.map_cons, List.map_nil, payload_wordSection, List.sum_cons,
          List.sum_nil]
        omega)
  have families : ((modes topology).map IdentityModeSummary.idFamily).Nodup := by
    simp [modes]
  have counts : ∀ mode ∈ modes topology, mode.localLen < LayoutIndex.bound O := by
    simp [modes, suits.vertices, suits.relations, suits.incidences]
  have mapped : ∀ mode ∈ modes topology, mode.mode = .explicitMap →
      identityMapKind O .incidence = identityMapKind O mode.idFamily ∧
        (incidences topology).length = mode.localLen := by
    simp [modes, length_incidences]
  obtain ⟨map, keeps⟩ := suits.exportable.keepsLayers inverse sources representable families
    counts mapped propertiesHeld
  obtain ⟨counts, accepted⟩ := frozen.accepted
  obtain ⟨heads, tails, outgoing, incoming, laid, mirrored⟩ := validateSections_eq_pure.mp accepted
  have exported := exportTopologyPropertySnapshot_eq_ok suits streamed
  refine ⟨bytes, snapshot, Fallible.ofResult_eq_pure.mpr exported, opened, checked,
    fun level => ?_, traits_eq laid frozen.vertices, ?_, keeps⟩
  · -- What is accepted at the strict level is accepted at every level.
    refine Fallible.bind_eq_pure.mpr ⟨topology.sections, ?_, ?_⟩
    · rw [loadSections_eq_ok topologyHeld]
      rfl
    · rw [Fallible.adapt_eq_pure, asView_eq laid.counted]
      exact Fallible.bind_eq_pure.mpr ⟨counts, validateSections_eq_pure.mpr
        ⟨heads, tails, outgoing, incoming, laid, fun _ => mirrored rfl⟩, rfl⟩
  · rw [map]
    exact congrArg Except.ok (map_incidences suits.incidences)

end

end Oxgraph.Bcsr
