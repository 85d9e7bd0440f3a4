import Oxgraph.Lib.BreadthFirst
import Oxgraph.Postgres.Engine

/-! What an engine's traversal must return, read off the stored arrays, and an engine's history. -/

namespace Oxgraph.Postgres

open Csr

-- The stored arrays.

/-- The positions of a node's edges. -/
def edgePositions (view : CsrGraph UInt32 UInt32) (node : UInt32) : List UInt32 :=
  let start := (view.offsets.getD node.toNat 0).toNat
  let stop := (view.offsets.getD (node.toNat + 1) 0).toNat
  (List.range' start (stop - start)).map UInt32.ofNat

/-- The node stored at the position of an edge. -/
def edgeTarget (view : CsrGraph UInt32 UInt32) (edge : UInt32) : UInt32 :=
  view.targets.getD edge.toNat 0

/-- The stored neighbours of a node, in position order. -/
def storedRow (view : CsrGraph UInt32 UInt32) (node : UInt32) : List UInt32 :=
  (edgePositions view node).map (edgeTarget view)

/-- Whether a node has an edge to another that is not tombstoned. -/
def stillJoins (forward : CsrGraph UInt32 UInt32) (overlay : OverlayState) (source target : UInt32) :
    Bool :=
  (edgePositions forward source).any fun edge =>
    overlay.edgeVisible edge && decide (edgeTarget forward edge = target)

-- The reference rows.

/-- The stored view of a direction. -/
def GraphTopology.along (topology : GraphTopology) :
    TraversalDirection → CsrGraph UInt32 UInt32
  | .out => topology.forward
  | .in => topology.inbound

/-- The base neighbours of a node that edge tombstones leave, in position order. -/
def remainingRow (topology : GraphTopology) (overlay : OverlayState)
    (direction : TraversalDirection) (node : UInt32) : List UInt32 :=
  match direction with
  | .out =>
    ((edgePositions topology.forward node).filter overlay.edgeVisible).map
      (edgeTarget topology.forward)
  -- While no edge is tombstoned, predecessors are not looked up among the forward edges.
  | .in =>
    if overlay.hasEdgeTombstones then
      (storedRow topology.inbound node).filter fun pred =>
        stillJoins topology.forward overlay pred node
    else storedRow topology.inbound node

/-- The inserted neighbours of a node, in insertion order. -/
def insertedRow (inserted : List OverlayEdge) (direction : TraversalDirection) (node : UInt32) :
    List UInt32 :=
  match direction with
  | .out => (inserted.filter fun edge => edge.source = node).map OverlayEdge.target
  | .in => (inserted.filter fun edge => edge.target = node).map OverlayEdge.source

/-- Whether a node is in range and not tombstoned. -/
def visibleNode (nodeCount : UInt32) (overlay : OverlayState) (node : UInt32) : Bool :=
  decide (node < nodeCount) && overlay.nodeVisible node

/-- The row of a node under a freshness, before tombstoned nodes are left out. -/
def freshRow (topology : GraphTopology) (overlay : OverlayState) (freshness : QueryFreshness)
    (direction : TraversalDirection) (node : UInt32) : List UInt32 :=
  match freshness with
  | .baseOnly =>
    if overlay.hasEdgeTombstones then remainingRow topology overlay direction node
    else (storedRow (topology.along direction) node).dedup.mergeSort fun left right =>
      decide (left ≤ right)
  | .overlayAware =>
    remainingRow topology overlay direction node ++ insertedRow overlay.addedEdges direction node

namespace Engine

/-- The visible neighbours of a node in a direction. -/
def referenceRow (engine : Engine) (direction : TraversalDirection) (node : UInt32) :
    List UInt32 :=
  (freshRow engine.topology engine.overlay engine.config.queryFreshness direction node).filter
    (visibleNode engine.metadata.nodeCount engine.overlay)

/-- The visible neighbours when predecessors are always looked up among the forward edges. -/
def joinedRow (engine : Engine) (direction : TraversalDirection) (node : UInt32) : List UInt32 :=
  match direction, engine.config.queryFreshness with
  | .in, .overlayAware =>
    let joined := (storedRow engine.topology.inbound node).filter fun pred =>
      stillJoins engine.topology.forward engine.overlay pred node
    (joined ++ insertedRow engine.overlay.addedEdges .in node).filter
      (visibleNode engine.metadata.nodeCount engine.overlay)
  | _, _ => engine.referenceRow direction node

/-- The plain breadth-first discovery list over rows, from the visible seeds. -/
def discovery (engine : Engine) (row : UInt32 → List UInt32) (seeds : List UInt32)
    (maxDepth : Option UInt32) : List UInt32 :=
  (listing row (maxDepth.map UInt32.toNat)
    (seeds.filter (visibleNode engine.metadata.nodeCount engine.overlay))
    engine.metadata.nodeCount.toNat).map Prod.fst

/-- As much of a discovery list as the limits admit. -/
def expected (engine : Engine) (row : UInt32 → List UInt32) (seeds : List UInt32)
    (limits : TraverseLimits) : List UInt32 :=
  (engine.discovery row seeds limits.maxDepth).take
    (min limits.resultLimit engine.config.traverseLimit.toNat)

end Engine

-- Histories.

/-- One change of an overlay through its public methods. -/
inductive OverlayEdit where
  | pushEdge (edge : OverlayEdge)
  | removeEdge (source target : UInt32)
  | tombstoneEdge (edgeId : UInt32)
  | tombstoneNode (nodeId : UInt32)
  | clear

/-- The overlay after a change of it. -/
def OverlayEdit.apply (overlay : OverlayState) : OverlayEdit → OverlayState
  | .pushEdge edge => overlay.pushEdge edge
  | .removeEdge source target => overlay.removeEdge source target
  | .tombstoneEdge edgeId => overlay.tombstoneEdge edgeId
  | .tombstoneNode nodeId => overlay.tombstoneNode nodeId
  | .clear => overlay.clear

/-- The overlay after changes of a new one. -/
def OverlayEdit.all (edits : List OverlayEdit) : OverlayState :=
  edits.foldl OverlayEdit.apply .default

/-- One call of an engine's methods. -/
inductive EngineOp where
  | setConfig (config : Config)
  | applySyncRows (rows : List SyncRow)
  | editOverlay (edits : List OverlayEdit)
  | replaceSnapshotBytes (bytes : Bytes)
  | rebuildFromCatalog (checksum : Container.Checksum32) (catalog : Catalog) (edges : List EdgeRow)
    (builtAtUnix : UInt64)
  | traverse (seed : UInt32) (limits : TraverseLimits) (direction : TraversalDirection)
  | traverseFromSeeds (seeds : List UInt32) (limits : TraverseLimits)
    (direction : TraversalDirection)
  | visitedCount (seed : UInt32) (limits : TraverseLimits) (direction : TraversalDirection)

/-- The engine after a call, whether that succeeded, failed or panicked. -/
def EngineOp.run (engine : Engine) : EngineOp → Engine
  | .setConfig config => (Engine.setConfig config engine).2
  | .applySyncRows rows => (Engine.applySyncRows rows engine).2
  | .editOverlay edits => { engine with overlay := edits.foldl OverlayEdit.apply engine.overlay }
  | .replaceSnapshotBytes bytes => (Engine.replaceSnapshotBytes bytes engine).2
  | .rebuildFromCatalog checksum catalog edges builtAtUnix =>
    (Engine.rebuildFromCatalog checksum catalog edges builtAtUnix engine).2
  | .traverse seed limits direction => (Engine.traverse seed limits direction engine).2
  | .traverseFromSeeds seeds limits direction =>
    (Engine.traverseFromSeeds seeds limits direction engine).2
  | .visitedCount seed limits direction => (Engine.visitedCount seed limits direction engine).2

end Oxgraph.Postgres
