import Oxgraph.Csr.Graph
import Oxgraph.Property.Export

/-! The graph builders, the frozen graphs they make, and their snapshots. -/

namespace Oxgraph.Csr

open Layout Container

/-- Errors of building, freezing, or exporting a graph. -/
inductive GraphBuildError (N E : Type) where
  | invalidNode (node : N)
  | invalidEdge (edge : E)
  | idOverflow (value : Nat)
  | propertyLayerTooShort (idFamily : Property.IdFamily) (required actual : Nat)
  | property (source : Property.PropertyError)
  | snapshotPlan (source : PlanError)
  deriving DecidableEq

/-- Accumulates nodes and edges. -/
structure GraphBuilder (N E : Type) where
  nodeCount : Nat
  -- The source and the target of each edge.
  sources : List N
  targets : List N

/-- Accumulates weighted nodes and edges. -/
structure WeightedGraphBuilder (N E EW RW : Type) where
  nodeCount : Nat
  elementWeights : List EW
  sources : List N
  targets : List N
  relationWeights : List RW

/-- Frozen graph topology. -/
structure FrozenTopology (N E : Type) where
  nodeCount : Nat
  offsets : List E
  -- Edges and their targets, grouped by source node.
  edgeIds : List E
  targets : List N
  -- Sources and targets by edge.
  sources : List N
  edgeTargets : List N
  deriving DecidableEq

/-- Immutable graph. -/
structure FrozenGraph (N E : Type) where
  topology : FrozenTopology N E

/-- Immutable graph with weights. -/
structure FrozenWeightedGraph (N E EW RW : Type) where
  topology : FrozenTopology N E
  elementWeights : List EW
  relationWeights : List RW

section

variable {N E EW RW : Type} [LayoutIndex N] [LayoutIndex E]

-- Adding.

/-- The slot of a node below a count. -/
def ensureNode (node : N) (nodeCount : Nat) : Except (GraphBuildError N E) Nat :=
  (idToSlot node nodeCount).mapError fun _ => .invalidNode node

namespace GraphBuilder

/-- Creates an empty builder. -/
def new : GraphBuilder N E := { nodeCount := 0, sources := [], targets := [] }

/-- Adds a node. -/
def addNode (builder : GraphBuilder N E) :
    Fallible (GraphBuildError N E) (N × GraphBuilder N E) := do
  let (id, nodeCount) ← .ofResult ((nextDenseIndex builder.nodeCount).mapError .idOverflow)
  return (id, { builder with nodeCount })

/-- Adds an edge between two nodes. -/
def addEdge (builder : GraphBuilder N E) (source target : N) :
    Fallible (GraphBuildError N E) (E × GraphBuilder N E) := do
  let _ ← .ofResult (ensureNode source builder.nodeCount)
  let _ ← .ofResult (ensureNode target builder.nodeCount)
  let edge ← .ofResult ((indexFromUsize builder.sources.length).mapError .idOverflow)
  let sources ← .orPanic (pushOrPanic (LayoutIndex.bytes N) builder.sources source)
  let targets ← .orPanic (pushOrPanic (LayoutIndex.bytes N) builder.targets target)
  return (edge, { builder with sources, targets })

end GraphBuilder

namespace WeightedGraphBuilder

/-- Creates an empty builder. -/
def new : WeightedGraphBuilder N E EW RW :=
  { nodeCount := 0, elementWeights := [], sources := [], targets := [], relationWeights := [] }

/-- Adds a node with a weight. -/
def addNode (builder : WeightedGraphBuilder N E EW RW) (weight : EW) :
    Fallible (GraphBuildError N E) (N × WeightedGraphBuilder N E EW RW) := do
  let (id, nodeCount) ← .ofResult ((nextDenseIndex builder.nodeCount).mapError .idOverflow)
  return (id, { builder with nodeCount, elementWeights := builder.elementWeights ++ [weight] })

/-- Adds an edge with a weight between two nodes. -/
def addEdge (builder : WeightedGraphBuilder N E EW RW) (source target : N) (weight : RW) :
    Fallible (GraphBuildError N E) (E × WeightedGraphBuilder N E EW RW) := do
  let _ ← .ofResult (ensureNode source builder.nodeCount)
  let _ ← .ofResult (ensureNode target builder.nodeCount)
  let edge ← .ofResult ((indexFromUsize builder.sources.length).mapError .idOverflow)
  let sources ← .orPanic (pushOrPanic (LayoutIndex.bytes N) builder.sources source)
  let targets ← .orPanic (pushOrPanic (LayoutIndex.bytes N) builder.targets target)
  return (edge,
    { builder with sources, targets, relationWeights := builder.relationWeights ++ [weight] })

end WeightedGraphBuilder

-- Freezing.

/-- Counts the edges of each source, one slot up. -/
def countSources : List N → List Nat → Fallible (GraphBuildError N E) (List Nat)
  | [], counts => return counts
  | source :: rest, counts =>
    match toUsize source with
    | none => throw (.idOverflow (usizeBound - 1))
    | some slot => do
      let count ← .orPanic counts[slot + 1]?
      match checkedAdd count 1 with
      | none => throw (.idOverflow (usizeBound - 1))
      | some advanced => countSources rest (counts.set (slot + 1) advanced)

/-- Adds to each count the sum up to the one before. -/
def accumulateFrom (previous : Nat) : List Nat → Except (GraphBuildError N E) (List Nat)
  | [] => .ok []
  | count :: rest =>
    match checkedAdd count previous with
    | none => .error (.idOverflow (usizeBound - 1))
    | some total => do
      let sums ← accumulateFrom total rest
      return total :: sums

/-- Adds up the counts from the second on. -/
def accumulate : List Nat → Except (GraphBuildError N E) (List Nat)
  | [] => .ok []
  | first :: rest => do
    let sums ← accumulateFrom first rest
    return first :: sums

/-- Places edges, numbered from a first, at the next free position of their source each. -/
def placeEdges : Nat → List (N × N) → List Nat → List E → List N →
    Fallible (GraphBuildError N E) (List E × List N)
  | _, [], _, edgeIds, groupedTargets => return (edgeIds, groupedTargets)
  | edgeIndex, (source, target) :: rest, cursor, edgeIds, groupedTargets =>
    match toUsize source with
    | none => throw (.idOverflow (usizeBound - 1))
    | some sourceSlot => do
      let position ← .orPanic cursor[sourceSlot]?
      match checkedAdd position 1 with
      | none => throw (.idOverflow (usizeBound - 1))
      | some advanced => do
        let edgeId ← .ofResult ((indexFromUsize edgeIndex).mapError .idOverflow)
        let edgeIds ← .orPanic (setOrPanic edgeIds position edgeId)
        let groupedTargets ← .orPanic (setOrPanic groupedTargets position target)
        placeEdges (edgeIndex + 1) rest (cursor.set sourceSlot advanced) edgeIds groupedTargets

/-- Groups edges by their sources. -/
def freezeTopology (nodeCount : Nat) (sources targets : List N) :
    Fallible (GraphBuildError N E) (FrozenTopology N E) := do
  let counts ← .orPanic (repeatOrPanic usizeBytes (nodeCount + 1) 0)
  let counts ← countSources sources counts
  let counts ← .ofResult (accumulate counts)
  let offsets ← .ofResult ((counts.mapM indexFromUsize).mapError .idOverflow)
  let edgeZero ← .ofResult ((indexFromUsize 0).mapError .idOverflow)
  let edgeIds ← .orPanic (repeatOrPanic (LayoutIndex.bytes E) sources.length edgeZero)
  let nodeZero ← .ofResult ((indexFromUsize 0).mapError .idOverflow)
  let groupedTargets ← .orPanic (repeatOrPanic (LayoutIndex.bytes N) targets.length nodeZero)
  let (edgeIds, groupedTargets) ←
    placeEdges 0 (sources.zip targets) counts edgeIds groupedTargets
  return { nodeCount, offsets, edgeIds, targets := groupedTargets, sources, edgeTargets := targets }

/-- Freezes the builder into an immutable graph. -/
def GraphBuilder.freeze (builder : GraphBuilder N E) :
    Fallible (GraphBuildError N E) (FrozenGraph N E) := do
  let topology ← freezeTopology builder.nodeCount builder.sources builder.targets
  return { topology }

/-- Freezes the builder into an immutable weighted graph. -/
def WeightedGraphBuilder.freeze (builder : WeightedGraphBuilder N E EW RW) :
    Fallible (GraphBuildError N E) (FrozenWeightedGraph N E EW RW) := do
  let topology ← freezeTopology builder.nodeCount builder.sources builder.targets
  return {
    topology
    elementWeights := builder.elementWeights
    relationWeights := builder.relationWeights }

namespace FrozenTopology

variable (topology : FrozenTopology N E)

/-- A view over the frozen arrays, if its width can count the nodes. -/
def asView : Except (GraphBuildError N E) (CsrGraph N E) := do
  let nodeCount ← (indexFromUsize topology.nodeCount).mapError .idOverflow
  return .fromValidatedParts nodeCount topology.nodeCount topology.offsets topology.targets

/-- The source of an edge. -/
def source (edge : E) : Option N := topology.sources[slotOrMax edge]?

/-- The target of an edge. -/
def target (edge : E) : Option N := topology.edgeTargets[slotOrMax edge]?

/-- The first position of a node's edges, and one past the last. -/
def outgoingRange (node : N) : Option (Nat × Nat) := do
  let slot := slotOrMax node
  let first ← topology.offsets[slot]?
  let last ← topology.offsets[slot + 1]?
  return ((toUsize first).getD topology.edgeIds.length,
    (toUsize last).getD topology.edgeIds.length)

/-- The outgoing edges of a node. -/
def outgoingEdges (node : N) : Option (List E) := do
  let (start, stop) ← topology.outgoingRange node
  sliceOf topology.edgeIds start stop

/-- The number of outgoing edges of a node. -/
def outDegree (node : N) : Option Nat := do
  let (start, stop) ← topology.outgoingRange node
  return stop - start

/-- The targets of a node's outgoing edges. -/
def elementSuccessors (node : N) : Option (List N) := do
  let (start, stop) ← topology.outgoingRange node
  let edges ← sliceOf topology.edgeIds start stop
  edges.mapM fun edge => topology.edgeTargets[slotOrMax edge]?

/-- The trait methods of the frozen graph. -/
def traits : GraphTraits N E where
  elementCount := topology.nodeCount
  relationCount := topology.sources.length
  elementBound := topology.nodeCount
  relationBound := topology.sources.length
  elementIndex element := some (slotOrMax element)
  relationIndex relation := some (slotOrMax relation)
  containsElement element := (toUsize element).any fun slot => slot < topology.nodeCount
  containsRelation relation := (toUsize relation).any fun slot => slot < topology.sources.length
  target := topology.target
  outgoingEdges := topology.outgoingEdges
  outDegree := topology.outDegree
  elementSuccessors := topology.elementSuccessors

end FrozenTopology

/-- Builds the graph of the reversed edges. -/
def FrozenGraph.transpose (graph : FrozenGraph N E) :
    Fallible (GraphBuildError N E) (FrozenGraph N E) := do
  let topology ← freezeTopology graph.topology.nodeCount graph.topology.edgeTargets
    graph.topology.sources
  return { topology }

end

-- Snapshots.

section

variable {N E : Type} [SnapshotWidth N] [SnapshotWidth E]

/-- Exports a frozen topology as snapshot bytes. -/
def exportTopologySnapshot (checksum : Checksum32) (topology : FrozenTopology N E) :
    Except (GraphBuildError N E) Bytes :=
  Except.mapError .snapshotPlan do
    let writer ← SnapshotWriter.new 2
    let writer ← sectionWidths writer checksum (offsetsKind E) sectionVersion topology.offsets
    let writer ← sectionWidths writer checksum (targetsKind N) sectionVersion topology.targets
    writer.finish checksum

/-- Exports a frozen graph as snapshot bytes. -/
def exportCsrSnapshot (checksum : Checksum32) (graph : FrozenGraph N E) :
    Except (GraphBuildError N E) Bytes :=
  exportTopologySnapshot checksum graph.topology

/-- Exports a frozen weighted graph as snapshot bytes, without its weights. -/
def exportWeightedCsrSnapshot {EW RW : Type} (checksum : Checksum32)
    (graph : FrozenWeightedGraph N E EW RW) : Except (GraphBuildError N E) Bytes :=
  exportTopologySnapshot checksum graph.topology

end

-- Snapshots with properties.

section

open Property

variable {N E Id T V : Type} [PropertyIndex N] [PropertyIndex E] [DecidableEq T]

/-- Checks the lengths of the layers of a family against the topology. -/
def validatePropertyLengths {I : Type} [PropertyIndex I] (topology : FrozenTopology N E)
    (layers : List (PropertyLayer Id I T V)) (idFamily : Property.IdFamily) :
    Except (GraphBuildError N E) Unit :=
  let required :=
    match idFamily with
    | .element => topology.nodeCount
    | .relation => topology.sources.length
    | .incidence => 0
  (validateLayerLengths layers idFamily required).mapError fun error =>
    .propertyLayerTooShort error.idFamily error.required error.actual

/-- Encodes the layers, those of the edges in the order that the topology stores its edges. -/
def encodeGraphProperties [LayerId Id E] (ipc : ArrowIpc T V) (arrow : ArrowSelect T V)
    (topology : FrozenTopology N E) (layers : GraphPropertyLayers Id N E T V) :
    Fallible (GraphBuildError N E) EncodedPropertySnapshot := do
  .ofResult (validatePropertyLengths topology layers.element .element)
  .ofResult (validatePropertyLengths topology layers.relation .relation)
  let relation ← layers.relation.mapM fun layer =>
    ExceptT.adapt GraphBuildError.property (rekeyLayerToLocal arrow layer topology.edgeIds)
  .ofResult ((@encodeGraphPropertySnapshot E Id T V _ _ _ ipc N E _ _ layers.element
    relation).mapError .property)

/-- Exports a topology with its identity modes, its edge IDs, and encoded layers. -/
def exportTopologyPropertySnapshot (checksum : Checksum32) (topology : FrozenTopology N E)
    (encoded : EncodedPropertySnapshot) : Except (GraphBuildError N E) Bytes := do
  let element : IdentityModeRecord E ←
    (IdentityModeRecord.localEqualsCanonical .element topology.nodeCount).mapError .property
  let relation : IdentityModeRecord E ←
    (IdentityModeRecord.explicitMap .relation topology.edgeIds.length).mapError .property
  Except.mapError .snapshotPlan do
    let writer ← SnapshotWriter.new 6
    let writer ← sectionWidths writer checksum (offsetsKind E) sectionVersion topology.offsets
    let writer ← sectionWidths writer checksum (targetsKind N) sectionVersion topology.targets
    let writer ← appendIdentityAndPropertySections checksum writer [element, relation]
      (identityMapKind E .relation) topology.edgeIds encoded
    writer.finish checksum

variable [LayerId Id E] (checksum : Checksum32) (ipc : ArrowIpc T V) (arrow : ArrowSelect T V)

/-- Exports a frozen graph with property layers. -/
def exportCsrSnapshotWithProperties (graph : FrozenGraph N E)
    (layers : GraphPropertyLayers Id N E T V) : Fallible (GraphBuildError N E) Bytes := do
  let encoded ← encodeGraphProperties ipc arrow graph.topology layers
  .ofResult (exportTopologyPropertySnapshot checksum graph.topology encoded)

/-- Exports a frozen weighted graph with property layers, without its weights. -/
def exportWeightedCsrSnapshotWithProperties {EW RW : Type} (graph : FrozenWeightedGraph N E EW RW)
    (layers : GraphPropertyLayers Id N E T V) : Fallible (GraphBuildError N E) Bytes := do
  let encoded ← encodeGraphProperties ipc arrow graph.topology layers
  .ofResult (exportTopologyPropertySnapshot checksum graph.topology encoded)

end

end Oxgraph.Csr
