import Oxgraph.Lib.Mutation
import Oxgraph.Lib.TreeMap
import Oxgraph.Postgres.Error

/-! Overlay buffers and tombstones over an immutable base, and the replay of sync rows into them. -/

namespace Oxgraph.Postgres

/-- One inserted edge stored outside the base snapshot. -/
structure OverlayEdge where
  source : UInt32
  target : UInt32
  deriving DecidableEq, Repr

/-- Mutable overlay over a base topology snapshot. -/
structure OverlayState where
  -- Inserted edges not yet compacted, in insertion order.
  addedEdges : List OverlayEdge
  -- Overlay targets by source, and overlay sources by target.
  bySource : BTreeMap UInt32 (List UInt32)
  byTarget : BTreeMap UInt32 (List UInt32)
  -- Removed base edges, by position, and removed nodes.
  tombstonedEdges : BTreeSet UInt32
  tombstonedNodes : BTreeSet UInt32

/-- Appends a value to the list of a key. -/
def pushUnder (index : BTreeMap UInt32 (List UInt32)) (key value : UInt32) :
    BTreeMap UInt32 (List UInt32) :=
  index.insert key (index.getD key [] ++ [value])

namespace OverlayState

/-- An overlay without any change. -/
def default : OverlayState :=
  { addedEdges := [], bySource := ∅, byTarget := ∅, tombstonedEdges := ∅, tombstonedNodes := ∅ }

variable (overlay : OverlayState)

/-- The number of inserted edges. -/
def overlayEdgeCount : Nat := overlay.addedEdges.length

/-- Marks a base edge as deleted. -/
def tombstoneEdge (edgeId : UInt32) : OverlayState :=
  { overlay with tombstonedEdges := overlay.tombstonedEdges.insert edgeId }

/-- Marks a node as deleted. -/
def tombstoneNode (nodeId : UInt32) : OverlayState :=
  { overlay with tombstonedNodes := overlay.tombstonedNodes.insert nodeId }

/-- Clears every buffer and tombstone. -/
def clear (_ : OverlayState) : OverlayState := default

/-- Whether any base edge is tombstoned. -/
def hasEdgeTombstones : Bool := ¬ overlay.tombstonedEdges.isEmpty

/-- Whether any node is tombstoned. -/
def hasNodeTombstones : Bool := ¬ overlay.tombstonedNodes.isEmpty

/-- Whether a base edge is not tombstoned. -/
def edgeVisible (edgeId : UInt32) : Bool :=
  ¬ overlay.tombstonedEdges.contains edgeId

/-- Whether a node is not tombstoned. -/
def nodeVisible (nodeId : UInt32) : Bool :=
  ¬ overlay.tombstonedNodes.contains nodeId

/-- Adds an edge to both indexes. -/
def index (bySource byTarget : BTreeMap UInt32 (List UInt32)) (edge : OverlayEdge) :
    BTreeMap UInt32 (List UInt32) × BTreeMap UInt32 (List UInt32) :=
  (pushUnder bySource edge.source edge.target, pushUnder byTarget edge.target edge.source)

/-- Pushes an overlay edge and updates the indexes. -/
def pushEdge (edge : OverlayEdge) : OverlayState :=
  let (bySource, byTarget) := index overlay.bySource overlay.byTarget edge
  { overlay with addedEdges := overlay.addedEdges ++ [edge], bySource, byTarget }

/-- Rebuilds the indexes from the inserted edges. -/
def rebuildIndexes : OverlayState :=
  let (bySource, byTarget) := overlay.addedEdges.foldl
    (fun (bySource, byTarget) edge => index bySource byTarget edge) (∅, ∅)
  { overlay with bySource, byTarget }

/-- Removes the overlay edges of a source and a target. -/
def removeEdge (source target : UInt32) : OverlayState :=
  rebuildIndexes { overlay with
    addedEdges := overlay.addedEdges.filter fun edge =>
      edge.source ≠ source ∨ edge.target ≠ target }

/-- The overlay targets of a source, in insertion order. -/
def overlayTargets (source : UInt32) : List UInt32 :=
  overlay.bySource.getD source []

/-- The overlay sources of a target, in insertion order. -/
def overlaySources (target : UInt32) : List UInt32 :=
  overlay.byTarget.getD target []

end OverlayState

/-- One replayed sync action. -/
inductive SyncAction where
  | insertEdge (source target : UInt32)
  | removeOverlayEdge (source target : UInt32)
  | deleteEdge (edgeId : UInt32)
  | deleteNode (nodeId : UInt32)
  | truncateOverlays
  deriving DecidableEq, Repr

/-- Applies an action to an overlay. -/
def SyncAction.applyTo (overlay : OverlayState) : SyncAction → OverlayState
  | .insertEdge source target => overlay.pushEdge { source, target }
  | .removeOverlayEdge source target => overlay.removeEdge source target
  | .deleteEdge edgeId => overlay.tombstoneEdge edgeId
  | .deleteNode nodeId => overlay.tombstoneNode nodeId
  | .truncateOverlays => overlay.clear

/-- One row of the sync log. -/
structure SyncRow where
  sequence : UInt64
  action : SyncAction

/-- Replays rows past a last sequence number, each to the overlay, counting them. -/
def SyncRow.applyFrom (lastSequence : Option UInt64) (applied : Nat) :
    List SyncRow → Mutation SyncError OverlayState Nat
  | [] => return applied
  | row :: rest => do
    match lastSequence.filter fun previous => row.sequence ≤ previous with
    | some previous => .fail (.nonMonotonicSequence row.sequence previous)
    | none =>
      .modify fun overlay => row.action.applyTo overlay
      applyFrom (some row.sequence) (applied + 1) rest

/-- Applies rows in order; a row out of sequence stops the replay where it stands. -/
def SyncRow.applyInOrder (rows : List SyncRow) : Mutation SyncError OverlayState Nat :=
  applyFrom none 0 rows

end Oxgraph.Postgres
