import Oxgraph.Algo.Bounded
import Oxgraph.Db.Projection

/-! Bounded walks over a graph projection with the subgraphs they report, and the neighbour lookup. -/

namespace Oxgraph

open Layout

/-- Direction a graph navigation expands along. -/
inductive Direction where
  -- The element plays the source role.
  | outgoing
  -- The element plays the target role.
  | incoming
  -- Outgoing edges first, then incoming edges.
  | both
  deriving DecidableEq, Repr

/-- Bounds for a bounded graph projection walk. -/
structure Walk where
  -- Maximum hop depth to expand from any seed.
  maxDepth : Nat
  direction : Direction
  -- Maximum number of nodes to emit.
  limit : Nat
  -- Whether depth-0 seed elements are included in the result nodes.
  includeStart : Bool
  deriving DecidableEq, Repr

/-- An outgoing depth-1 walk with an unbounded node limit, excluding the start. -/
def Walk.default : Walk :=
  { maxDepth := 1, direction := .outgoing, limit := usizeBound - 1, includeStart := false }

/-- Node discovered by a walk, paired with its shortest hop depth. -/
structure TraversedNode where
  element : ElementId
  depth : Nat
  deriving DecidableEq, Repr

/-- Internal edge connecting two discovered nodes of a walk. -/
structure TraversedEdge where
  relation : RelationId
  source : ElementId
  target : ElementId
  deriving DecidableEq, Repr

/-- Edges compare by their fields in the order they are declared. -/
instance : Ord TraversedEdge where
  compare left right :=
    compare (left.relation, left.source, left.target) (right.relation, right.source, right.target)

/-- Nodes and internal edges discovered by a bounded graph projection walk. -/
structure Subgraph where
  nodes : List TraversedNode
  edges : List TraversedEdge
  deriving DecidableEq, Repr

/-- What the visitor of a walk has been shown. -/
structure Discovery where
  nodes : List TraversedNode
  discovered : BTreeMap ElementId ProjectionElementId

namespace GraphProjection

variable (projection : GraphProjection)

/--
The capabilities of the projection that a search binds on.

A search asks only for the rows of elements it has checked, so the empty rows are never read.
-/
def topologyView : TopologyView ProjectionElementId where
  elementBound := projection.elementBound
  elementIndex := localIndex
  containsElement := projection.containsElement
  elementSuccessors element := (projection.elementSuccessors element).getD []
  elementPredecessors element := (projection.elementPredecessors element).getD []

/-- Collects one discovered element; a canonical lookup that panics leaves nothing. -/
def observe : BfsVisitor ProjectionElementId (Option Discovery) := fun sink element depth =>
  match sink, projection.canonicalElementId element with
  | some discovery, some canonical =>
    (.continue, some {
      nodes := discovery.nodes ++ [{ element := canonical, depth := depth.toNat }]
      discovered := discovery.discovered.insert canonical element })
  | _, _ => (.break, none)

/-- The bounded search of a direction. -/
def searchAlong (direction : Direction) (seeds : List ProjectionElementId) (bounds : BfsBounds)
    (scratch : BfsEpochScratch ProjectionElementId) (sink : Option Discovery) :
    Except BfsHalt Unit × BfsEpochScratch ProjectionElementId × Option Discovery :=
  match direction with
  | .outgoing =>
    breadthFirstSearchBounded projection.topologyView seeds bounds projection.observe scratch sink
  | .incoming =>
    reverseBreadthFirstSearchBounded projection.topologyView seeds bounds projection.observe
      scratch sink
  | .both =>
    breadthFirstSearchBoundedBoth projection.topologyView seeds bounds projection.observe scratch
      sink

/-- An edge with its canonical relation, source and target. -/
def traversedEdge (edge : ProjectionRelationId) : Option TraversedEdge := do
  let source ← projection.canonicalElementId (← projection.source edge)
  let target ← projection.canonicalElementId (← projection.target edge)
  let relation ← projection.canonicalRelationId edge
  return { relation, source, target }

/-- Adds an edge whose target is discovered and whose relation is new. -/
def collectEdge (discovered : BTreeMap ElementId ProjectionElementId)
    (state : BTreeSet RelationId × List TraversedEdge) (edge : ProjectionRelationId) :
    Option (BTreeSet RelationId × List TraversedEdge) := do
  let (seen, edges) := state
  let found ← projection.traversedEdge edge
  if !discovered.contains found.target then return (seen, edges)
  else if seen.contains found.relation then return (seen, edges)
  else return (seen.insert found.relation, edges ++ [found])

/-- Collects every edge that connects two discovered nodes, once each, and sorts them. -/
def collectInternalEdges (discovered : BTreeMap ElementId ProjectionElementId) :
    Option (List TraversedEdge) := do
  let (_, edges) ← discovered.toList.foldlM (fun state entry => do
    let outgoing ← projection.outgoingEdges entry.2
    outgoing.foldlM (projection.collectEdge discovered) state) (∅, [])
  return edges.mergeSort fun left right => (compare left right).isLE

/-- Walks a graph projection outward from seed elements and collects the discovered subgraph. -/
def walkGraphProjection (seeds : List ElementId) (walk : Walk) : Fallible DbError Subgraph :=
  if seeds.isEmpty ∨ walk.limit = 0 then return { nodes := [], edges := [] }
  else do
    let localSeeds ← seeds.mapM fun seed =>
      match projection.localElementId seed with
      | some element => (return element : Fallible DbError ProjectionElementId)
      | none => throw (.unknown .element seed)
    let bounds : BfsBounds :=
      { maxDepth := some ((fromUsize walk.maxDepth).getD 0xFFFFFFFF)
        resultLimit := walk.limit
        includeSeeds := walk.includeStart }
    let bound := projection.elementBound
    let scratch : BfsEpochScratch ProjectionElementId :=
      .new (List.replicate bound 0) (List.replicate bound 0)
    -- Seeds are discovered whether or not they are emitted.
    let seeded ← localSeeds.mapM fun element =>
      Fallible.orPanic ((projection.canonicalElementId element).map fun canonical =>
        (canonical, element))
    let start : Discovery :=
      { nodes := []
        discovered := seeded.foldl (fun map entry => map.insert entry.1 entry.2) ∅ }
    let (outcome, _, sink) := projection.searchAlong walk.direction localSeeds bounds scratch
      (some start)
    let discovery ← .orPanic sink
    match outcome with
    | .error .panic => .orPanic none
    | .error _ => throw (.traversal "bounded traversal failed")
    | .ok () =>
      let edges ← .orPanic (projection.collectInternalEdges discovery.discovered)
      return { nodes := discovery.nodes, edges }

end GraphProjection

end Oxgraph

-- Read transactions over a pinned snapshot: the neighbour lookup.

namespace Oxgraph

/-- Read transaction over a pinned snapshot. -/
structure Reader where
  snapshot : Snapshot

/--
Whether a neighbour lookup follows the edge from one incidence to another under a direction.

The incidence with the lower id is taken as the source.
-/
def followDirection (direction : Direction) (start stop : IncidenceId) : Bool :=
  match direction with
  | .outgoing => start < stop
  | .incoming => start > stop
  | .both => true

namespace Reader

variable (reader : Reader)

/-- The elements one step from an element along relations of a type, in ascending order. -/
def neighbors (element : ElementId) (relationType : RelationTypeId) (direction : Direction) :
    List ElementId :=
  let view := reader.snapshot.view
  ((view.elementIncidences element).foldl (fun neighbors incidence =>
    let matchesType := match view.relation incidence.relation with
      | some record => decide (record.relationType = some relationType)
      | none => false
    if !matchesType then neighbors
    else extendSet neighbors ((((view.relationIncidences incidence.relation).filter fun other =>
      decide (other.element ≠ element)).filter fun other =>
        followDirection direction incidence.id other.id).map IncidenceRecord.element))
    (∅ : BTreeSet ElementId)).toList

end Reader

end Oxgraph
