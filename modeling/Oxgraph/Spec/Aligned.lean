import Oxgraph.Bcsr.Build
import Oxgraph.Csr.Build
import Oxgraph.Spec.Digraph
import Oxgraph.Spec.LayerValue
import Oxgraph.Spec.Property

/-! Property layers that are exported with a topology, and what the snapshot must hold of them. -/

namespace Oxgraph.Property

open Layout

variable {Id T U : Type} [DecidableEq T]

/-- A layer among those of a family, with the canonical ID at each local position of the family. -/
structure Placed (Id T U : Type) [DecidableEq T] where
  idFamily : IdFamily
  numbering : List Nat
  source : AnyLayer Id T U

/-- The logical lengths of layers that are stored together. -/
def totalLogicalLen (placed : List (Placed Id T U)) : Nat :=
  (placed.map fun one => one.numbering.length).sum

/-- Layers of different IDs, and of different names in each family, as long as their families. -/
structure Exportable (W : Type) [LayoutIndex W] [LayerId Id W] (placed : List (Placed Id T U)) :
    Prop where
  ids : (placed.map fun one => one.source.id W).Nodup
  names : (placed.map fun one => one.source.named).Nodup
  family : ∀ one ∈ placed, one.source.layer.descriptor.idFamily = one.idFamily
  len : ∀ one ∈ placed, one.source.layer.len = one.numbering.length

/-- The bytes of the two sections that store layers. -/
def sectionsLen (W : Type) [PropertyIndex W] (ipc : ArrowIpc T U)
    (stored : List (AnyLayer Id T U)) : Nat :=
  FixedLayout.size PropertySnapshotHeader +
    stored.length * FixedLayout.size (PropertySnapshotRecord W) +
    (stored.map fun any => (utf8Bytes any.layer.descriptor.name.value).length).sum +
    (stored.map fun any =>
      (any.valueStream ipc).length + ((any.defaultStream ipc).getD []).length).sum

/-- A width can hold what stored layers need, and a file with their sections can be addressed. -/
structure Representable (W : Type) [PropertyIndex W] [LayerId Id W] (ipc : ArrowIpc T U)
    (others : Nat) (stored : List (AnyLayer Id T U)) : Prop where
  fits : FitFrom W ipc 0 0 stored
  addressed : others + sectionsLen W ipc stored < usizeBound

namespace DecodedPropertyLayer

/-- The value that a decoded layer stands for at a local position; null is none. -/
def value (layer : DecodedPropertyLayer T U) (position : Nat) : Option (Cell U) :=
  match layer.data with
  | .dense values => denseValue values position
  | .sparse indices values default =>
    sparseValue (indices.indexes.getD []) values default position

/-- A decoded layer holds at each local position what its source holds at the canonical ID there. -/
structure Aligned (W : Type) [LayoutIndex W] [LayerId Id W] (layer : DecodedPropertyLayer T U)
    (one : Placed Id T U) : Prop where
  layerId : layer.layerId = one.source.id W
  name : layer.name = one.source.layer.descriptor.name.value
  idFamily : layer.idFamily = one.idFamily
  role : layer.role = one.source.layer.descriptor.role
  storage : layer.storage = one.source.layer.descriptor.storage
  logicalLen : layer.logicalLen = one.numbering.length
  value : ∀ position canonical, one.numbering[position]? = some canonical →
    layer.value position = one.source.layer.value canonical

end DecodedPropertyLayer

/-- A snapshot has identity modes, and the layers when their logical lengths can be counted. -/
structure KeepsLayers (W : Type) [PropertyIndex W] [LayerId Id W] (ipc : ArrowIpc T U)
    (snapshot : Container.Snapshot) (modes : List IdentityModeSummary)
    (placed : List (Placed Id T U)) : Prop where
  identity : validateIdentitySnapshot W snapshot = .ok ⟨modes⟩
  accepts : (∃ summary, validatePropertySnapshot W snapshot ipc = pure summary) ↔
    totalLogicalLen placed < usizeBound
  aligned : totalLogicalLen placed < usizeBound → ∃ decoded,
    DecodedPropertyLayer.decodeAll W snapshot ipc = pure decoded ∧
      List.Forall₂ (DecodedPropertyLayer.Aligned W) decoded placed

end Oxgraph.Property

namespace Oxgraph.Csr

open Container Layout Property

variable {N E Id T U : Type} [PropertyIndex N] [PropertyIndex E] [DecidableEq T]

/-- The layers of a graph, those of the edges over the order the topology stores its edges in. -/
def placedLayers (topology : FrozenTopology N E) (layers : GraphPropertyLayers Id N E T U) :
    List (Placed Id T U) :=
  (layers.element.map fun layer => ⟨.element, List.range topology.nodeCount, layer.any⟩) ++
    layers.relation.map fun layer => ⟨.relation, topology.edgeIds.map Layout.toNat, layer.any⟩

/-- The bytes of an exported file beside its property sections. -/
def otherLen (topology : FrozenTopology N E) : Nat :=
  tableEnd 6 + (arrayBytes topology.offsets).length + (arrayBytes topology.targets).length +
    2 * FixedLayout.size (IdentityModeRecord E) + (arrayBytes topology.edgeIds).length

/-- Layers that a graph can be exported with, all of which the edge width holds as stored. -/
structure ExportsWith [LayerId Id E] (ipc : ArrowIpc T U) (arrow : ArrowSelect T U)
    (topology : FrozenTopology N E) (layers : GraphPropertyLayers Id N E T U) : Prop where
  exportable : Exportable E (placedLayers topology layers)
  nodes : topology.nodeCount < LayoutIndex.bound E
  -- A width below that of `usize` has fewer edges than memory has room for.
  invertible : ∀ layer ∈ layers.relation, layer.Invertible
  representable : ∀ relation : List (PropertyLayer Id E T U),
    (layers.relation.mapM fun layer => rekeyLayerToLocal arrow layer topology.edgeIds) =
      pure relation → Representable E ipc (otherLen topology)
        (layers.element.map PropertyLayer.any ++ relation.map PropertyLayer.any)

/-- A snapshot holds a multigraph, its edge IDs, and layers that are aligned with them. -/
structure HoldsGraph [LayerId Id E] (ipc : ArrowIpc T U) (snapshot : Container.Snapshot)
    (graph : Digraph) (topology : FrozenTopology N E) (layers : GraphPropertyLayers Id N E T U) :
    Prop where
  opens : (∃ view : CsrGraph N E, fromSnapshot snapshot = pure view) ↔
    topology.nodeCount < LayoutIndex.bound N
  answers : ∀ view : CsrGraph N E, fromSnapshot snapshot = pure view →
    graph.AnsweredBy (topology.edgeIds.map Layout.toNat) view.traits
  edgeIds : typedWords E snapshot (identityMapKind E .relation) snapshotPropertyVersion =
    .ok topology.edgeIds
  keeps : KeepsLayers E ipc snapshot
    [⟨.element, .localEqualsCanonical, topology.nodeCount⟩,
      ⟨.relation, .explicitMap, topology.edgeIds.length⟩] (placedLayers topology layers)

/-- An export succeeds with a file that holds the graph and its layers. -/
def ExportsAligned [LayerId Id E] (checksum : Checksum32) (ipc : ArrowIpc T U)
    (topology : FrozenTopology N E) (layers : GraphPropertyLayers Id N E T U)
    (exported : Fallible (GraphBuildError N E) Bytes) : Prop :=
  ∃ bytes snapshot graph, exported = pure bytes ∧
    Container.Snapshot.openBytes bytes = .ok snapshot ∧
    Container.Snapshot.openChecked bytes checksum = .ok snapshot ∧
    Digraph.AnsweredBy graph (List.range graph.edges.length) topology.traits ∧
    HoldsGraph ipc snapshot graph topology layers

end Oxgraph.Csr

namespace Oxgraph.Bcsr

open Container Layout Property

variable {V R O Id T U : Type} [PropertyIndex V] [PropertyIndex R] [PropertyIndex O] [DecidableEq T]

/-- The layers of a hypergraph, each over the canonical order of its family. -/
def placedLayers (topology : FrozenTopology V R O) (layers : HyperPropertyLayers Id V R O T U) :
    List (Placed Id T U) :=
  (layers.element.map fun layer => ⟨.element, List.range topology.vertexCount, layer.any⟩) ++
    (layers.relation.map fun layer =>
      ⟨.relation, List.range topology.relationCount, layer.any⟩) ++
    layers.incidence.map fun layer =>
      ⟨.incidence, List.range topology.totalParticipants, layer.any⟩

/-- The incidences in canonical order. -/
def incidences (topology : FrozenTopology V R O) : List O :=
  (List.range topology.totalParticipants).map LayoutIndex.ofNat

/-- The bytes of the eight topology sections. -/
def topologyLen (topology : FrozenTopology V R O) : Nat :=
  (arrayBytes topology.headOffsets).length + (arrayBytes topology.headParticipants).length +
    (arrayBytes topology.tailOffsets).length + (arrayBytes topology.tailParticipants).length +
    (arrayBytes topology.vertexOutgoingOffsets).length +
    (arrayBytes topology.vertexOutgoingHyperedges).length +
    (arrayBytes topology.vertexIncomingOffsets).length +
    (arrayBytes topology.vertexIncomingHyperedges).length

/-- The bytes of an exported file beside its property sections. -/
def otherLen (topology : FrozenTopology V R O) : Nat :=
  tableEnd 12 + topologyLen topology + 3 * FixedLayout.size (IdentityModeRecord O) +
    (arrayBytes (incidences topology)).length

/-- Layers that a hypergraph can be exported with, all of which the incidence width holds. -/
structure ExportsWith [LayerId Id O] (ipc : ArrowIpc T U) (arrow : ArrowSelect T U)
    (topology : FrozenTopology V R O) (layers : HyperPropertyLayers Id V R O T U) : Prop where
  exportable : Exportable O (placedLayers topology layers)
  vertices : topology.vertexCount < LayoutIndex.bound O
  relations : topology.relationCount < LayoutIndex.bound O
  incidences : topology.totalParticipants < LayoutIndex.bound O
  invertible : ∀ layer ∈ layers.incidence, layer.Invertible
  representable : ∀ incidence : List (PropertyLayer Id O T U),
    (layers.incidence.mapM fun layer => rekeyLayerToLocal arrow layer (Bcsr.incidences topology)) =
      pure incidence → Representable O ipc (otherLen topology)
        (layers.element.map PropertyLayer.any ++ layers.relation.map PropertyLayer.any ++
          incidence.map PropertyLayer.any)

/-- A snapshot holds a frozen hypergraph, its incidences, and layers that are aligned with them. -/
structure HoldsHypergraph [LayerId Id O] (ipc : ArrowIpc T U) (snapshot : Container.Snapshot)
    (topology : FrozenTopology V R O) (layers : HyperPropertyLayers Id V R O T U) : Prop where
  opens : ∀ level, fromSnapshotWith snapshot level = pure topology.asView
  answers : topology.traits = topology.asView.traits.mapRole BcsrRole.participantRole
  incidences : (typedWords O snapshot (identityMapKind O .incidence) snapshotPropertyVersion).map
    (fun map => map.map Layout.toNat) = .ok (List.range topology.totalParticipants)
  keeps : KeepsLayers O ipc snapshot
    [⟨.element, .localEqualsCanonical, topology.vertexCount⟩,
      ⟨.relation, .localEqualsCanonical, topology.relationCount⟩,
      ⟨.incidence, .explicitMap, topology.totalParticipants⟩] (placedLayers topology layers)

/-- An export succeeds with a file that holds the hypergraph and its layers. -/
def ExportsAligned [LayerId Id O] (checksum : Checksum32) (ipc : ArrowIpc T U)
    (topology : FrozenTopology V R O) (layers : HyperPropertyLayers Id V R O T U)
    (exported : Fallible (HyperBuildError V R) Bytes) : Prop :=
  ∃ bytes snapshot, exported = pure bytes ∧
    Container.Snapshot.openBytes bytes = .ok snapshot ∧
    Container.Snapshot.openChecked bytes checksum = .ok snapshot ∧
    HoldsHypergraph ipc snapshot topology layers

end Oxgraph.Bcsr
