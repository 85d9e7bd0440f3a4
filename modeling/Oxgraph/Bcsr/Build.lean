import Oxgraph.Bcsr.Traversal
import Oxgraph.Property.Export

/-! The hypergraph builders, the frozen hypergraphs they make, and their snapshots. -/

namespace Oxgraph.Bcsr

open Layout Container

/-- Which side of a hyperedge a builder participant is on. -/
inductive HyperParticipantRole where
  | source
  | target
  deriving DecidableEq

/-- Errors of building, freezing, or exporting a hypergraph. -/
inductive HyperBuildError (V R : Type) where
  | invalidVertex (vertex : V)
  | invalidHyperedge (hyperedge : R)
  | participantPositionOutOfBounds (hyperedge : R) (position : Nat)
  | duplicateParticipant (vertex : V) (role : HyperParticipantRole)
  | idOverflow (value : Nat)
  | invalidTopology (source : BcsrError)
  | propertyLayerTooShort (idFamily : Property.IdFamily) (required actual : Nat)
  | property (source : Property.PropertyError)
  | snapshotPlan (source : PlanError)
  deriving DecidableEq

/-- A view's side of an incidence, as the builder names it. -/
def BcsrRole.participantRole : BcsrRole → HyperParticipantRole
  | .head => .source
  | .tail => .target

/-- A hyperedge as it was added to the unweighted builder. -/
structure HyperedgeRecord (V : Type) where
  sources : List V
  targets : List V

/-- A hyperedge whose participants carry weights. -/
structure NormalizedHyperedgeRecord (V W : Type) where
  sources : List (V × W)
  targets : List (V × W)

/-- The bytes of either record, which is two vectors. -/
def hyperedgeRecordBytes : Nat := 2 * vecBytes

/-- The participants of a hyperedge in a role. -/
def NormalizedHyperedgeRecord.participants {V W : Type} (record : NormalizedHyperedgeRecord V W) :
    HyperParticipantRole → List (V × W)
  | .source => record.sources
  | .target => record.targets

/-- The same hyperedge with other participants in a role. -/
def NormalizedHyperedgeRecord.withParticipants {V W : Type}
    (record : NormalizedHyperedgeRecord V W) (participants : List (V × W)) :
    HyperParticipantRole → NormalizedHyperedgeRecord V W
  | .source => { record with sources := participants }
  | .target => { record with targets := participants }

/-- Accumulates vertices and hyperedges. -/
structure HypergraphBuilder (V R O : Type) where
  vertexCount : Nat
  hyperedges : List (HyperedgeRecord V)

/-- Accumulates weighted vertices, hyperedges and participants. -/
structure WeightedHypergraphBuilder (V R O EW RW IW : Type) where
  vertexCount : Nat
  elementWeights : List EW
  hyperedges : List (NormalizedHyperedgeRecord V IW)
  relationWeights : List RW

/-- The eight sections of a frozen hypergraph, and its vertex count. -/
structure FrozenTopology (V R O : Type) extends BcsrSections V R O where
  vertexCount : Nat

/-- Immutable hypergraph. -/
structure FrozenHypergraph (V R O : Type) where
  topology : FrozenTopology V R O

/-- Immutable hypergraph with weights. -/
structure FrozenWeightedHypergraph (V R O EW RW IW : Type) where
  topology : FrozenTopology V R O
  elementWeights : List EW
  relationWeights : List RW
  -- In the order of incidence IDs.
  incidenceWeights : List IW

section

variable {V R O EW RW IW : Type} [LayoutIndex V] [LayoutIndex R] [LayoutIndex O]

-- Adding.

/-- The slot of a vertex below a count. -/
def vertexIndexChecked (vertexCount : Nat) (vertex : V) : Except (HyperBuildError V R) Nat :=
  (idToSlot vertex vertexCount).mapError fun _ => .invalidVertex vertex

/-- The slot of a hyperedge below a count. -/
def hyperedgeIndexChecked (hyperedgeCount : Nat) (hyperedge : R) :
    Except (HyperBuildError V R) Nat :=
  (idToSlot hyperedge hyperedgeCount).mapError fun _ => .invalidHyperedge hyperedge

/-- Fails on a vertex that is not below the count. -/
def ensureVertices (vertexCount : Nat) (participants : List V) :
    Except (HyperBuildError V R) Unit :=
  participants.forM fun vertex => do
    let _ ← vertexIndexChecked vertexCount vertex

/-- Fails on a vertex that takes part twice. -/
def ensureUniqueParticipants (participants : List V) (role : HyperParticipantRole) :
    Except (HyperBuildError V R) Unit :=
  let sorted := participants.mergeSort fun left right => toNat left ≤ toNat right
  (sorted.zip sorted.tail).forM fun pair =>
    if toNat pair.1 = toNat pair.2 then .error (.duplicateParticipant pair.1 role) else .ok ()

/-- Checks the vertices of a new hyperedge, and allocates its ID. -/
def checkHyperedge (vertexCount hyperedgeCount : Nat) (sources targets : List V) :
    Except (HyperBuildError V R) R := do
  ensureVertices vertexCount sources
  ensureVertices vertexCount targets
  ensureUniqueParticipants sources .source
  ensureUniqueParticipants targets .target
  (indexFromUsize hyperedgeCount).mapError .idOverflow

/-- Allocates the next vertex ID. -/
def nextVertex (vertexCount : Nat) : Except (HyperBuildError V R) (V × Nat) := do
  let id ← (indexFromUsize vertexCount).mapError .idOverflow
  match checkedAdd vertexCount 1 with
  | none => .error (.idOverflow (usizeBound - 1))
  | some advanced => .ok (id, advanced)

namespace HypergraphBuilder

/-- Creates an empty builder. -/
def new : HypergraphBuilder V R O := { vertexCount := 0, hyperedges := [] }

/-- Adds a vertex. -/
def addVertex (builder : HypergraphBuilder V R O) :
    Fallible (HyperBuildError V R) (V × HypergraphBuilder V R O) := do
  let (id, vertexCount) ← .ofResult (nextVertex builder.vertexCount)
  return (id, { builder with vertexCount })

/-- Adds a hyperedge from sources to targets. -/
def addHyperedge (builder : HypergraphBuilder V R O) (sources targets : List V) :
    Fallible (HyperBuildError V R) (R × HypergraphBuilder V R O) := do
  let hyperedge ← .ofResult
    (checkHyperedge builder.vertexCount builder.hyperedges.length sources targets)
  let hyperedges ←
    .orPanic (pushOrPanic hyperedgeRecordBytes builder.hyperedges { sources, targets })
  return (hyperedge, { builder with hyperedges })

/-- The hyperedges with their participants in ascending order. -/
def normalizedHyperedges (builder : HypergraphBuilder V R O) :
    List (NormalizedHyperedgeRecord V Unit) :=
  builder.hyperedges.map fun record =>
    let sources := record.sources.map fun vertex => (vertex, ())
    let targets := record.targets.map fun vertex => (vertex, ())
    { sources := sources.mergeSort fun left right => toNat left.1 ≤ toNat right.1
      targets := targets.mergeSort fun left right => toNat left.1 ≤ toNat right.1 }

end HypergraphBuilder

namespace WeightedHypergraphBuilder

/-- Creates an empty builder. -/
def new : WeightedHypergraphBuilder V R O EW RW IW :=
  { vertexCount := 0, elementWeights := [], hyperedges := [], relationWeights := [] }

variable (builder : WeightedHypergraphBuilder V R O EW RW IW)

/-- Adds a vertex with a weight. -/
def addVertex (weight : EW) :
    Fallible (HyperBuildError V R) (V × WeightedHypergraphBuilder V R O EW RW IW) := do
  let (id, vertexCount) ← .ofResult (nextVertex builder.vertexCount)
  return (id, { builder with vertexCount, elementWeights := builder.elementWeights ++ [weight] })

/-- Adds a hyperedge with a weight, from weighted sources to weighted targets. -/
def addHyperedge
    (sources targets : List (V × IW)) (relationWeight : RW) :
    Fallible (HyperBuildError V R) (R × WeightedHypergraphBuilder V R O EW RW IW) := do
  let hyperedge ← .ofResult (checkHyperedge builder.vertexCount builder.hyperedges.length
    (sources.map Prod.fst) (targets.map Prod.fst))
  let hyperedges ←
    .orPanic (pushOrPanic hyperedgeRecordBytes builder.hyperedges { sources, targets })
  return (hyperedge,
    { builder with hyperedges, relationWeights := builder.relationWeights ++ [relationWeight] })

/-- Updates the weight of a vertex. -/
def setElementWeight (vertex : V)
    (weight : EW) : Fallible (HyperBuildError V R) (WeightedHypergraphBuilder V R O EW RW IW) := do
  let index ← .ofResult (vertexIndexChecked builder.vertexCount vertex)
  let _ ← .orPanic builder.elementWeights[index]?
  return { builder with elementWeights := builder.elementWeights.set index weight }

/-- Updates the weight of a hyperedge. -/
def setRelationWeight (hyperedge : R)
    (weight : RW) : Fallible (HyperBuildError V R) (WeightedHypergraphBuilder V R O EW RW IW) := do
  let index ← .ofResult (hyperedgeIndexChecked builder.hyperedges.length hyperedge)
  let _ ← .orPanic builder.relationWeights[index]?
  return { builder with relationWeights := builder.relationWeights.set index weight }

/-- Updates the weight of a participant, by its position on a side of its hyperedge. -/
def setIncidenceWeight (role : HyperParticipantRole)
    (builder : WeightedHypergraphBuilder V R O EW RW IW) (hyperedge : R) (position : Nat)
    (weight : IW) : Fallible (HyperBuildError V R) (WeightedHypergraphBuilder V R O EW RW IW) := do
  let index ← .ofResult (hyperedgeIndexChecked builder.hyperedges.length hyperedge)
  let record ← .orPanic builder.hyperedges[index]?
  match (record.participants role)[position]? with
  | none => throw (.participantPositionOutOfBounds hyperedge position)
  | some (vertex, _) =>
    let participants := (record.participants role).set position (vertex, weight)
    let record := record.withParticipants participants role
    return { builder with hyperedges := builder.hyperedges.set index record }

/-- Updates the weight of a source. -/
def setSourceIncidenceWeight : WeightedHypergraphBuilder V R O EW RW IW → R → Nat → IW →
    Fallible (HyperBuildError V R) (WeightedHypergraphBuilder V R O EW RW IW) :=
  setIncidenceWeight .source

/-- Updates the weight of a target. -/
def setTargetIncidenceWeight : WeightedHypergraphBuilder V R O EW RW IW → R → Nat → IW →
    Fallible (HyperBuildError V R) (WeightedHypergraphBuilder V R O EW RW IW) :=
  setIncidenceWeight .target

/-- The hyperedges with their participants in ascending order, weights along. -/
def normalizedHyperedges :
    List (NormalizedHyperedgeRecord V IW) :=
  builder.hyperedges.map fun record =>
    { sources := record.sources.mergeSort fun left right => toNat left.1 ≤ toNat right.1
      targets := record.targets.mergeSort fun left right => toNat left.1 ≤ toNat right.1 }

end WeightedHypergraphBuilder

-- Freezing.

/-- Appends each hyperedge's participants and weights, and the offset where they end. -/
def appendParticipants : List (List (V × IW)) → List O × List V × List IW →
    Except Nat (List O × List V × List IW)
  | [], built => .ok built
  | participants :: rest, (offsets, vertices, weights) => do
    let vertices := vertices ++ participants.map Prod.fst
    let weights := weights ++ participants.map Prod.snd
    let offset ← indexFromUsize vertices.length
    appendParticipants rest (offsets ++ [offset], vertices, weights)

/-- Pushes a hyperedge into the bucket of each of its participants. -/
def pushRelation (relation : R) :
    List (V × IW) → List (List R) → Fallible (HyperBuildError V R) (List (List R))
  | [], buckets => return buckets
  | (vertex, _) :: rest, buckets =>
    match toUsize vertex with
    | none => throw (.idOverflow (usizeBound - 1))
    | some slot => do
      let bucket ← .orPanic buckets[slot]?
      pushRelation relation rest (buckets.set slot (bucket ++ [relation]))

/-- Pushes hyperedges, numbered from a first, into the buckets of their participants. -/
def pushRelations : Nat → List (List (V × IW)) → List (List R) →
    Fallible (HyperBuildError V R) (List (List R))
  | _, [], buckets => return buckets
  | relation, participants :: rest, buckets => do
    let relationId ← .ofResult ((indexFromUsize relation).mapError .idOverflow)
    let buckets ← pushRelation relationId participants buckets
    pushRelations (relation + 1) rest buckets

/-- Indexes the hyperedges of each vertex in a role. -/
def buildVertexRelationIndex (vertexCount : Nat) (records : List (NormalizedHyperedgeRecord V IW))
    (role : HyperParticipantRole) : Fallible (HyperBuildError V R) (List O × List R) := do
  let buckets ← .orPanic (repeatOrPanic vecBytes vertexCount [])
  let buckets ← pushRelations 0 (records.map fun record => record.participants role) buckets
  .ofResult ((buildOffsetIndex buckets).mapError .idOverflow)

/-- Lays out the sections of a hypergraph, and the weights of its incidences. -/
def buildTopology (vertexCount : Nat) (records : List (NormalizedHyperedgeRecord V IW)) :
    Fallible (HyperBuildError V R) (FrozenTopology V R O × List IW) := do
  let headStart ← .ofResult ((indexFromUsize 0).mapError .idOverflow)
  let tailStart ← .ofResult ((indexFromUsize 0).mapError .idOverflow)
  let (headOffsets, headParticipants, incidenceWeights) ← .ofResult
    ((appendParticipants (records.map (·.sources)) ([headStart], [], [])).mapError .idOverflow)
  let (tailOffsets, tailParticipants, incidenceWeights) ← .ofResult
    ((appendParticipants (records.map (·.targets))
      ([tailStart], [], incidenceWeights)).mapError .idOverflow)
  let (vertexOutgoingOffsets, vertexOutgoingHyperedges) ←
    buildVertexRelationIndex vertexCount records .source
  let (vertexIncomingOffsets, vertexIncomingHyperedges) ←
    buildVertexRelationIndex vertexCount records .target
  return (
    { vertexCount, headOffsets, headParticipants, tailOffsets, tailParticipants,
      vertexOutgoingOffsets, vertexOutgoingHyperedges, vertexIncomingOffsets,
      vertexIncomingHyperedges }, incidenceWeights)

namespace FrozenTopology

variable (topology : FrozenTopology V R O)

/-- The number of hyperedges. -/
def relationCount : Nat := topology.headOffsets.length - 1

/-- The number of participants of both sides. -/
def totalParticipants : Nat :=
  min (topology.headParticipants.length + topology.tailParticipants.length) (usizeBound - 1)

/-- The sections as validation and views borrow them. -/
def sections : BcsrSections V R O := topology.toBcsrSections

/-- A view over the sections, which freezing validated. -/
def asView : BcsrHypergraph V R O := .fromValidatedSections topology.sections

/-- The trait methods of the frozen hypergraph; most are the view's. -/
def traits : HyperTraits V R O HyperParticipantRole where
  elementCount := topology.vertexCount
  relationCount := topology.relationCount
  incidenceCount := topology.totalParticipants
  elementBound := topology.vertexCount
  relationBound := topology.relationCount
  incidenceBound := topology.totalParticipants
  elementIndex element := some (slotOrMax element)
  relationIndex relation := some (slotOrMax relation)
  incidenceIndex incidence := some (slotOrMax incidence)
  containsElement element := some ((toUsize element).any fun slot => slot < topology.vertexCount)
  containsRelation relation :=
    some ((toUsize relation).any fun slot => slot < topology.relationCount)
  containsIncidence incidence :=
    some ((toUsize incidence).any fun slot => slot < topology.totalParticipants)
  incidenceElement := topology.asView.incidenceElement
  incidenceRelation := topology.asView.incidenceRelation
  incidenceRole incidence :=
    (topology.asView.incidenceRole incidence).map BcsrRole.participantRole
  sourceIncidences := topology.asView.sourceIncidences
  targetIncidences := topology.asView.targetIncidences
  relationIncidences := topology.asView.relationIncidences
  relationIncidenceCount := topology.asView.relationIncidenceCount
  elementIncidences := topology.asView.elementIncidences
  elementIncidenceCount := topology.asView.elementIncidenceCount
  sourceParticipants := topology.asView.sourceParticipants
  targetParticipants := topology.asView.targetParticipants
  hyperedgeParticipants := topology.asView.hyperedgeParticipants
  outgoingHyperedges := topology.asView.outgoingHyperedges
  incomingHyperedges := topology.asView.incomingHyperedges
  incidentHyperedges := topology.asView.incidentHyperedges
  elementSuccessors := topology.asView.elementSuccessors
  elementPredecessors := topology.asView.elementPredecessors

end FrozenTopology

namespace FrozenWeightedHypergraph

variable (graph : FrozenWeightedHypergraph V R O EW RW IW)

/-- The weight of a vertex. -/
def elementWeight (element : V) : Option EW := graph.elementWeights[slotOrMax element]?

/-- The weight of a hyperedge. -/
def relationWeight (relation : R) : Option RW := graph.relationWeights[slotOrMax relation]?

/-- The weight of an incidence. -/
def incidenceWeight (incidence : O) : Option IW := graph.incidenceWeights[slotOrMax incidence]?

end FrozenWeightedHypergraph

/-- Validates a frozen topology at the strict level. -/
def validateFrozenTopology (topology : FrozenTopology V R O) :
    Fallible (HyperBuildError V R) Unit := do
  let _ ← (BcsrHypergraph.openWith topology.sections .strict).adapt .invalidTopology

/-- Freezes the builder into an immutable hypergraph. -/
def HypergraphBuilder.freeze (builder : HypergraphBuilder V R O) :
    Fallible (HyperBuildError V R) (FrozenHypergraph V R O) := do
  let (topology, _) ← buildTopology builder.vertexCount builder.normalizedHyperedges
  validateFrozenTopology topology
  return { topology }

/-- Freezes the builder into an immutable weighted hypergraph. -/
def WeightedHypergraphBuilder.freeze (builder : WeightedHypergraphBuilder V R O EW RW IW) :
    Fallible (HyperBuildError V R) (FrozenWeightedHypergraph V R O EW RW IW) := do
  let (topology, incidenceWeights) ← buildTopology builder.vertexCount builder.normalizedHyperedges
  validateFrozenTopology topology
  return {
    topology
    elementWeights := builder.elementWeights
    relationWeights := builder.relationWeights
    incidenceWeights }

end

-- Snapshots.

/-- Errors of opening a hypergraph from a snapshot. -/
inductive BcsrSnapshotError where
  | missingSection (section_ : BcsrSection) (kind : UInt32)
  | versionMismatch (section_ : BcsrSection) (kind expected actual : UInt32)
  | sectionView (section_ : BcsrSection) (error : SectionViewError)
  | bcsr (error : BcsrError)

/-- The kind base of a section; the width code of its words goes into the low two bits. -/
def BcsrSection.kindBase : BcsrSection → UInt32
  | .headOffsets => 0x20
  | .headParticipants => 0x24
  | .tailOffsets => 0x28
  | .tailParticipants => 0x2C
  | .vertexOutgoingOffsets => 0x30
  | .vertexOutgoingHyperedges => 0x34
  | .vertexIncomingOffsets => 0x38
  | .vertexIncomingHyperedges => 0x3C

/-- The kind of a section at a width. -/
def sectionKind (W : Type) [SnapshotWidth W] (name : BcsrSection) : UInt32 :=
  name.kindBase ||| SnapshotWidth.widthCode W

/-- The version of every hypergraph section. -/
def sectionVersion : UInt32 := 1

section

variable {V R O : Type} [SnapshotWidth V] [SnapshotWidth R] [SnapshotWidth O]

/-- Streams the eight sections of a frozen topology. -/
def addTopologySections (checksum : Checksum32) (writer : SnapshotWriter)
    (topology : FrozenTopology V R O) : Except PlanError SnapshotWriter := do
  let writer ← sectionWidths writer checksum (sectionKind O .headOffsets) sectionVersion
    topology.headOffsets
  let writer ← sectionWidths writer checksum (sectionKind V .headParticipants) sectionVersion
    topology.headParticipants
  let writer ← sectionWidths writer checksum (sectionKind O .tailOffsets) sectionVersion
    topology.tailOffsets
  let writer ← sectionWidths writer checksum (sectionKind V .tailParticipants) sectionVersion
    topology.tailParticipants
  let writer ← sectionWidths writer checksum (sectionKind O .vertexOutgoingOffsets) sectionVersion
    topology.vertexOutgoingOffsets
  let writer ← sectionWidths writer checksum (sectionKind R .vertexOutgoingHyperedges)
    sectionVersion topology.vertexOutgoingHyperedges
  let writer ← sectionWidths writer checksum (sectionKind O .vertexIncomingOffsets) sectionVersion
    topology.vertexIncomingOffsets
  sectionWidths writer checksum (sectionKind R .vertexIncomingHyperedges) sectionVersion
    topology.vertexIncomingHyperedges

/-- Exports a frozen topology as snapshot bytes. -/
def exportTopologySnapshot (checksum : Checksum32) (topology : FrozenTopology V R O) :
    Except (HyperBuildError V R) Bytes :=
  Except.mapError .snapshotPlan do
    let writer ← SnapshotWriter.new 8
    let writer ← addTopologySections checksum writer topology
    writer.finish checksum

/-- Exports a frozen hypergraph as snapshot bytes. -/
def exportBcsrSnapshot (checksum : Checksum32) (graph : FrozenHypergraph V R O) :
    Except (HyperBuildError V R) Bytes :=
  exportTopologySnapshot checksum graph.topology

/-- Exports a frozen weighted hypergraph as snapshot bytes, without its weights. -/
def exportWeightedBcsrSnapshot {EW RW IW : Type} (checksum : Checksum32)
    (graph : FrozenWeightedHypergraph V R O EW RW IW) : Except (HyperBuildError V R) Bytes :=
  exportTopologySnapshot checksum graph.topology

/-- Names the section a bind error is about. -/
def mapSectionBind (name : BcsrSection) : SectionBindError → BcsrSnapshotError
  | .missing kind => .missingSection name kind
  | .versionMismatch kind expected actual => .versionMismatch name kind expected actual
  | .view _ error => .sectionView name error

/-- Loads one section of index words. -/
def loadSection (W : Type) [SnapshotWidth W] (snapshot : Container.Snapshot) (name : BcsrSection) :
    Except BcsrSnapshotError (List W) :=
  (typedWords W snapshot (sectionKind W name) sectionVersion).mapError (mapSectionBind name)

/-- Loads the eight sections of a snapshot. -/
def loadSections (snapshot : Container.Snapshot) :
    Except BcsrSnapshotError (BcsrSections V R O) := do
  let headOffsets ← loadSection O snapshot .headOffsets
  let headParticipants ← loadSection V snapshot .headParticipants
  let tailOffsets ← loadSection O snapshot .tailOffsets
  let tailParticipants ← loadSection V snapshot .tailParticipants
  let vertexOutgoingOffsets ← loadSection O snapshot .vertexOutgoingOffsets
  let vertexOutgoingHyperedges ← loadSection R snapshot .vertexOutgoingHyperedges
  let vertexIncomingOffsets ← loadSection O snapshot .vertexIncomingOffsets
  let vertexIncomingHyperedges ← loadSection R snapshot .vertexIncomingHyperedges
  return {
    headOffsets, headParticipants, tailOffsets, tailParticipants, vertexOutgoingOffsets,
    vertexOutgoingHyperedges, vertexIncomingOffsets, vertexIncomingHyperedges }

/-- Opens a view over a snapshot's sections at a level. -/
def fromSnapshotWith (snapshot : Container.Snapshot) (level : BcsrValidation) :
    Fallible BcsrSnapshotError (BcsrHypergraph V R O) := do
  let sections ← .ofResult (loadSections snapshot)
  (BcsrHypergraph.openWith sections level).adapt .bcsr

end

-- Snapshots with properties.

section

open Property

variable {V R O Id T U : Type} [PropertyIndex V] [PropertyIndex R] [PropertyIndex O] [DecidableEq T]

/-- Checks the lengths of the layers of a family against the topology. -/
def validatePropertyLengths {I : Type} [PropertyIndex I] (topology : FrozenTopology V R O)
    (layers : List (PropertyLayer Id I T U)) (idFamily : Property.IdFamily) :
    Except (HyperBuildError V R) Unit :=
  let required :=
    match idFamily with
    | .element => topology.vertexCount
    | .relation => topology.relationCount
    | .incidence => topology.totalParticipants
  (validateLayerLengths layers idFamily required).mapError fun error =>
    .propertyLayerTooShort error.idFamily error.required error.actual

/-- The canonical incidence of each local one, which is the incidence itself. -/
def bcsrLocalIncidenceToCanonical (topology : FrozenTopology V R O) :
    Except (HyperBuildError V R) (List O) :=
  (List.range topology.totalParticipants).mapM fun incidence =>
    (indexFromUsize incidence).mapError HyperBuildError.idOverflow

/-- Encodes the layers, those of the incidences through the local map. -/
def encodeHyperProperties [LayerId Id O] (ipc : ArrowIpc T U) (arrow : ArrowSelect T U)
    (topology : FrozenTopology V R O) (layers : HyperPropertyLayers Id V R O T U) :
    Fallible (HyperBuildError V R) EncodedPropertySnapshot := do
  .ofResult (validatePropertyLengths topology layers.element .element)
  .ofResult (validatePropertyLengths topology layers.relation .relation)
  .ofResult (validatePropertyLengths topology layers.incidence .incidence)
  let incidenceMap ← .ofResult (bcsrLocalIncidenceToCanonical topology)
  let incidence ← layers.incidence.mapM fun layer =>
    ExceptT.adapt HyperBuildError.property (rekeyLayerToLocal arrow layer incidenceMap)
  .ofResult ((@encodeHyperPropertySnapshot O Id T U _ _ _ ipc V R O _ _ _ layers.element
    layers.relation incidence).mapError .property)

/-- Exports a topology with its identity modes, its incidence map, and encoded layers. -/
def exportTopologyPropertySnapshot (checksum : Checksum32) (topology : FrozenTopology V R O)
    (encoded : EncodedPropertySnapshot) : Except (HyperBuildError V R) Bytes := do
  let incidenceMap ← bcsrLocalIncidenceToCanonical topology
  let element : IdentityModeRecord O ←
    (IdentityModeRecord.localEqualsCanonical .element topology.vertexCount).mapError .property
  let relation : IdentityModeRecord O ←
    (IdentityModeRecord.localEqualsCanonical .relation topology.relationCount).mapError .property
  let incidence : IdentityModeRecord O ←
    (IdentityModeRecord.explicitMap .incidence incidenceMap.length).mapError .property
  Except.mapError .snapshotPlan do
    let writer ← SnapshotWriter.new 12
    let writer ← addTopologySections checksum writer topology
    let writer ← appendIdentityAndPropertySections checksum writer [element, relation, incidence]
      (identityMapKind O .incidence) incidenceMap encoded
    writer.finish checksum

variable [LayerId Id O] (checksum : Checksum32) (ipc : ArrowIpc T U) (arrow : ArrowSelect T U)

/-- Exports a frozen hypergraph with property layers. -/
def exportBcsrSnapshotWithProperties (graph : FrozenHypergraph V R O)
    (layers : HyperPropertyLayers Id V R O T U) : Fallible (HyperBuildError V R) Bytes := do
  let encoded ← encodeHyperProperties ipc arrow graph.topology layers
  .ofResult (exportTopologyPropertySnapshot checksum graph.topology encoded)

/-- Exports a frozen weighted hypergraph with property layers, without its weights. -/
def exportWeightedBcsrSnapshotWithProperties {EW RW IW : Type}
    (graph : FrozenWeightedHypergraph V R O EW RW IW) (layers : HyperPropertyLayers Id V R O T U) :
    Fallible (HyperBuildError V R) Bytes := do
  let encoded ← encodeHyperProperties ipc arrow graph.topology layers
  .ofResult (exportTopologyPropertySnapshot checksum graph.topology encoded)

end

end Oxgraph.Bcsr
