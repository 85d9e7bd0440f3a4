import Oxgraph.Algo.Topology
import Oxgraph.Postgres.Artifact
import Oxgraph.Postgres.Overlay

/-! The two topology views of an engine, their node-unique rows, and the overlay views over them. -/

namespace Oxgraph.Postgres

open Layout Container Csr

/-- Traversal direction of a query. -/
inductive TraversalDirection where
  | out
  | «in»
  deriving DecidableEq, Repr

/-- Forward rows, and inbound rows stored as the rows of the reversed edges. -/
structure GraphTopology where
  forward : CsrGraph UInt32 UInt32
  inbound : CsrGraph UInt32 UInt32

/-- Opens both views and checks their counts against each other and the metadata. -/
def GraphTopology.ofSnapshot (snapshot : Container.Snapshot) :
    Fallible PostgresGraphError GraphTopology := do
  let metadata ← .ofResult (readMetadata snapshot)
  if ¬ metadata.hasReverseIndex then throw (.build .missingReverseIndex)
  else
    let forward ← (fromSnapshot snapshot).adapt .forwardSnapshot
    let inbound ← (fromSnapshotWithKinds snapshot inboundOffsetsKind inboundTargetsKind
      sectionVersion).adapt .inboundSnapshot
    if forward.nodeBound ≠ inbound.nodeBound then throw (.build .topologyNodeCountMismatch)
    else if forward.targets.length ≠ inbound.targets.length then
      throw (.build .topologyEdgeCountMismatch)
    else if fromUsize forward.nodeBound ≠ some metadata.nodeCount then
      throw (.build .metadataNodeCountMismatch)
    else if fromUsize forward.targets.length ≠ some metadata.edgeCount then
      throw (.build .metadataEdgeCountMismatch)
    else return { forward, inbound }

/-- Whether a node of one of the views is visible. -/
def nodeVisibleIn (view : CsrGraph UInt32 UInt32) (node : UInt32) (overlay : OverlayState) : Bool :=
  node.toNat < view.nodeBound ∧ (¬ overlay.hasNodeTombstones ∨ overlay.nodeVisible node)

-- Node-unique rows.

/-- Sorted distinct rows of both directions, flattened. -/
structure UniqueAdjacency where
  outgoingOffsets : List Nat
  outgoingTargets : List UInt32
  incomingOffsets : List Nat
  incomingSources : List UInt32

namespace UniqueAdjacency

/-- No rows. -/
def default : UniqueAdjacency :=
  { outgoingOffsets := [], outgoingTargets := [], incomingOffsets := [], incomingSources := [] }

/-- Sorts a row and drops repeats. -/
def uniqueRow (row : List UInt32) : List UInt32 :=
  (row.mergeSort fun left right => decide (left ≤ right)).destutter (· ≠ ·)

/-- Appends the unique row of each of so many nodes, from a first one. -/
def buildUniqueRowsFrom (neighbors : UInt32 → Option (List UInt32)) :
    Nat → Nat → List Nat → List UInt32 → Option (List Nat × List UInt32)
  | _, 0, offsets, targets => some (offsets, targets)
  | node, count + 1, offsets, targets => do
    let row ← neighbors (.ofNat node)
    let targets := targets ++ uniqueRow row
    buildUniqueRowsFrom neighbors (node + 1) count (offsets ++ [targets.length]) targets

/-- Builds the unique rows of every node; a count that is no node id has none. -/
def buildUniqueRows (nodeCount : Nat) (neighbors : UInt32 → Option (List UInt32)) :
    Option (List Nat × List UInt32) :=
  if u32Bound ≤ nodeCount then some ([0], [])
  else buildUniqueRowsFrom neighbors 0 nodeCount [0] []

/-- Builds the unique rows of both directions. -/
def fromTopology (forward inbound : CsrGraph UInt32 UInt32) : Option UniqueAdjacency := do
  let nodeCount := forward.nodeBound
  let (outgoingOffsets, outgoingTargets) ← buildUniqueRows nodeCount forward.elementSuccessors
  let (incomingOffsets, incomingSources) ← buildUniqueRows nodeCount inbound.elementSuccessors
  return { outgoingOffsets, outgoingTargets, incomingOffsets, incomingSources }

/-- A row of flattened rows; an offset that is not there means no row. -/
def row (offsets : List Nat) (targets : List UInt32) (node : UInt32) : Option (List UInt32) :=
  match offsets[node.toNat]?, offsets[node.toNat + 1]? with
  | some start, some stop => sliceOf targets start stop
  | _, _ => some []

/-- The unique outgoing row of a node. -/
def outgoing (unique : UniqueAdjacency) (source : UInt32) : Option (List UInt32) :=
  row unique.outgoingOffsets unique.outgoingTargets source

/-- The unique incoming row of a node. -/
def incoming (unique : UniqueAdjacency) (target : UInt32) : Option (List UInt32) :=
  row unique.incomingOffsets unique.incomingSources target

end UniqueAdjacency

-- The overlay views.

/-- What a view consults, resolved once for each query. -/
structure OverlayViewFlags where
  -- Whether base rows are the node-unique ones.
  useUnique : Bool
  -- Whether overlay rows follow base rows.
  mergeOverlay : Bool
  -- Whether node tombstones are consulted.
  checkNodes : Bool
  deriving DecidableEq, Repr

/-- A view over base rows, overlay rows, and tombstones, of one direction. -/
structure OverlayView where
  topology : GraphTopology
  overlay : OverlayState
  unique : UniqueAdjacency
  flags : OverlayViewFlags
  nodeCount : Nat

/-- Whether any edge from a source to a target is not tombstoned. -/
def hasVisibleForwardEdge (forward : CsrGraph UInt32 UInt32) (overlay : OverlayState)
    (source target : UInt32) : Option Bool := do
  let edges ← forward.outgoingEdges source
  let visible ← edges.mapM fun edge => do
    let edgeTarget ← forward.target edge
    return decide (edgeTarget = target ∧ overlay.edgeVisible edge)
  return visible.any id

namespace OverlayView

variable (view : OverlayView)

/-- Whether the view yields a node. -/
def admits (node : UInt32) : Bool :=
  node.toNat < view.nodeCount ∧ (¬ view.flags.checkNodes ∨ view.overlay.nodeVisible node)

/-- The base row of a node along outgoing edges, by position. -/
def outParallel (element : UInt32) : Option (List UInt32) := do
  let edges ← view.topology.forward.outgoingEdges element
  let edges := edges.filter fun edge =>
    ¬ (view.overlay.hasEdgeTombstones ∧ ¬ view.overlay.edgeVisible edge)
  edges.mapM view.topology.forward.target

/-- The base row of a node along incoming edges: predecessors that still have an edge to it. -/
def inParallel (element : UInt32) : Option (List UInt32) := do
  let preds ← view.topology.inbound.elementSuccessors element
  let kept ← preds.mapM fun pred => do
    if view.overlay.hasEdgeTombstones then do
      let visible ← hasVisibleForwardEdge view.topology.forward view.overlay pred element
      return if visible then [pred] else []
    else return [pred]
  return kept.flatten

/-- The base row of a node in a direction. -/
def baseRow (direction : TraversalDirection) (element : UInt32) : Option (List UInt32) :=
  match direction, view.flags.useUnique with
  | .out, true => view.unique.outgoing element
  | .out, false => view.outParallel element
  | .in, true => view.unique.incoming element
  | .in, false => view.inParallel element

/-- The overlay row of a node in a direction. -/
def overlayRow (direction : TraversalDirection) (element : UInt32) : List UInt32 :=
  if view.flags.mergeOverlay then
    match direction with
    | .out => view.overlay.overlayTargets element
    | .in => view.overlay.overlaySources element
  else []

/-- The row of a node in a direction: its admitted base row, then its admitted overlay row. -/
def row (direction : TraversalDirection) (element : UInt32) : Option (List UInt32) := do
  let base ← view.baseRow direction element
  return base.filter view.admits ++ (view.overlayRow direction element).filter view.admits

/--
The capabilities of the view in a direction.

Every row is read ahead here, so that a row whose read panics is not lost.
-/
def topologyView (direction : TraversalDirection) : Option (TopologyView UInt32) := do
  let rows ← (List.range view.nodeCount).mapM fun node => view.row direction (.ofNat node)
  let element (node : UInt32) := rows.getD node.toNat []
  return {
    elementBound := view.nodeCount
    elementIndex := UInt32.toNat
    containsElement := view.admits
    elementSuccessors := match direction with
      | .out => element
      | .in => fun _ => []
    elementPredecessors := match direction with
      | .out => fun _ => []
      | .in => element }

end OverlayView

end Oxgraph.Postgres
