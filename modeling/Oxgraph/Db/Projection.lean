import Oxgraph.Csr.Build
import Oxgraph.Db.Overlay.Merge

/-! Materialized graph projections: selected relations as directed edges over dense local IDs. -/

namespace Oxgraph

open Layout

-- Dense projection-local element identifier.
abbrev ProjectionElementId := UInt32
-- Dense projection-local relation identifier.
abbrev ProjectionRelationId := UInt32

/-- Materialized graph projection view. -/
structure GraphProjection where
  definition : GraphProjectionDefinition
  -- Canonical elements by local element ID, and back.
  elements : List ElementId
  elementIndex : BTreeMap ElementId ProjectionElementId
  -- Canonical relations by local relation ID, and back.
  relations : List RelationId
  relationIndex : BTreeMap RelationId ProjectionRelationId
  -- Source and target by local relation ID.
  endpoints : List (ProjectionElementId × ProjectionElementId)
  -- Outgoing and incoming local relation IDs by local element ID.
  outEdges : List (List ProjectionRelationId)
  inEdges : List (List ProjectionRelationId)
  -- Outgoing and incoming local element IDs by local element ID.
  successors : List (List ProjectionElementId)
  predecessors : List (List ProjectionElementId)

/-- Accumulates the selected relations of a graph projection. -/
structure GraphProjectionBuilder where
  definition : GraphProjectionDefinition
  elements : List ElementId
  elementIndex : BTreeMap ElementId ProjectionElementId
  relations : List RelationId
  relationIndex : BTreeMap RelationId ProjectionRelationId
  endpoints : List (ProjectionElementId × ProjectionElementId)

/-- Converts a local element count into an ID. -/
def projectionElementId (index : Nat) : Except DbError ProjectionElementId :=
  match fromUsize index with
  | some id => .ok id
  | none => .error (.idOverflow .element)

/-- Converts a local relation count into an ID. -/
def projectionRelationId (index : Nat) : Except DbError ProjectionRelationId :=
  match fromUsize index with
  | some id => .ok id
  -- The error names the element family here too.
  | none => .error (.idOverflow .element)

/-- The local index of an ID, which every `usize` can hold. -/
def localIndex (id : UInt32) : Nat := (toUsize id).getD (usizeBound - 1)

/-- Whether a projection over some relation types, or over all of them, selects a relation. -/
def relationSelected (record : RelationRecord) (selected : BTreeSet RelationTypeId) : Bool :=
  match record.relationType with
  | none => selected.isEmpty
  | some relationType => selected.isEmpty || selected.contains relationType

/-- Fills an endpoint from an incidence with its role, unless it is filled already. -/
def updateEndpoint (slot : Option ElementId) (incidence : IncidenceRecord) (role : RoleId)
    (name : String) : Except DbError (Option ElementId) :=
  if incidence.role ≠ role then .ok slot
  else if slot.isSome then
    .error (.invalidProjection s!"selected graph relation has duplicate {name} endpoint")
  else .ok (some incidence.element)

/-- The source and the target of a relation. -/
def graphEndpoints (view : LayeredState) (relation : RelationId)
    (sourceRole targetRole : RoleId) : Except DbError (ElementId × ElementId) := do
  let (source, target) ← (view.relationIncidences relation).foldlM
    (fun (slots : Option ElementId × Option ElementId) incidence => do
      let source ← updateEndpoint slots.1 incidence sourceRole "source"
      let target ← updateEndpoint slots.2 incidence targetRole "target"
      return (source, target)) (none, none)
  match source, target with
  | some source, some target => return (source, target)
  | _, _ =>
    .error (.invalidProjection "selected graph relation lacks source or target endpoint")

/-- Cuts flat values into one row for each node, between consecutive offsets. -/
def grouped (offsets flat : List UInt32) (nodeCount : Nat) :
    Fallible DbError (List (List UInt32)) :=
  (List.range nodeCount).mapM fun node => do
    let first ← .orPanic offsets[node]?
    let start ← match toUsize first with
      | some start => pure start
      | none => throw (.idOverflow .relation)
    let last ← .orPanic offsets[node + 1]?
    let stop ← match toUsize last with
      | some stop => pure stop
      | none => throw (.idOverflow .relation)
    match sliceOf flat start stop with
    | some row => return row
    | none => throw (.invalidProjection "csr offset range out of bounds")

namespace GraphProjectionBuilder

/-- Starts a projection. -/
def new (definition : GraphProjectionDefinition) : GraphProjectionBuilder :=
  { definition, elements := [], elementIndex := ∅, relations := [], relationIndex := ∅
    endpoints := [] }

/-- The local ID of a canonical element, interned when it is new. -/
def internElement (builder : GraphProjectionBuilder) (canonical : ElementId) :
    Except DbError (ProjectionElementId × GraphProjectionBuilder) :=
  match builder.elementIndex[canonical]? with
  | some interned => .ok (interned, builder)
  | none => do
    let interned ← projectionElementId builder.elements.length
    return (interned, { builder with
      elements := builder.elements ++ [canonical]
      elementIndex := builder.elementIndex.insert canonical interned })

/-- Adds a selected relation as an edge. -/
def pushRelation (view : LayeredState) (builder : GraphProjectionBuilder)
    (relation : RelationRecord) : Except DbError GraphProjectionBuilder := do
  let (source, target) ← graphEndpoints view relation.id builder.definition.sourceRole
    builder.definition.targetRole
  let (source, builder) ← builder.internElement source
  let (target, builder) ← builder.internElement target
  let edge ← projectionRelationId builder.relations.length
  return { builder with
    relations := builder.relations ++ [relation.id]
    relationIndex := builder.relationIndex.insert relation.id edge
    endpoints := builder.endpoints ++ [(source, target)] }

/-- Adds a node for each interned element. -/
def addNodes (elements : List ElementId) :
    Fallible DbError (Csr.GraphBuilder UInt32 UInt32 × List UInt32) :=
  elements.foldlM (fun (graph, nodes) _ => do
    let (node, graph) ← (Csr.GraphBuilder.addNode graph).adapt
      fun (_ : Csr.GraphBuildError UInt32 UInt32) => .idOverflow .element
    return (graph, nodes ++ [node])) (.new, [])

/-- Adds an edge between the nodes of each pair of endpoints. -/
def addEdges (nodes : List UInt32) (endpoints : List (ProjectionElementId × ProjectionElementId))
    (graph : Csr.GraphBuilder UInt32 UInt32) : Fallible DbError (Csr.GraphBuilder UInt32 UInt32) :=
  endpoints.foldlM (fun graph (source, target) => do
    let source ← .orPanic nodes[localIndex source]?
    let target ← .orPanic nodes[localIndex target]?
    let (_, graph) ← (graph.addEdge source target).adapt fun _ => .idOverflow .relation
    return graph) graph

/-- Builds the adjacency of the collected edges, in both directions. -/
def finish (builder : GraphProjectionBuilder) : Fallible DbError GraphProjection := do
  let nodeCount := builder.elements.length
  let (graph, nodes) ← addNodes builder.elements
  let graph ← addEdges nodes builder.endpoints graph
  let forward ← graph.freeze.adapt fun _ => .idOverflow .relation
  let reverse ← forward.transpose.adapt fun _ => .idOverflow .relation
  -- A freeze groups by source, and the transpose groups the same edge IDs by target.
  let successors ← grouped forward.topology.offsets forward.topology.targets nodeCount
  let outEdges ← grouped forward.topology.offsets forward.topology.edgeIds nodeCount
  let predecessors ← grouped reverse.topology.offsets reverse.topology.targets nodeCount
  let inEdges ← grouped reverse.topology.offsets reverse.topology.edgeIds nodeCount
  return {
    definition := builder.definition
    elements := builder.elements
    elementIndex := builder.elementIndex
    relations := builder.relations
    relationIndex := builder.relationIndex
    endpoints := builder.endpoints
    outEdges, inEdges, successors, predecessors }

end GraphProjectionBuilder

namespace GraphProjection

/-- Materializes a graph projection from a merged view. -/
def fromState (view : LayeredState) (definition : GraphProjectionDefinition) :
    Fallible DbError GraphProjection := do
  let builder ← .ofResult ((view.relations.filter fun relation =>
    relationSelected relation definition.relationTypes).foldlM
      (GraphProjectionBuilder.pushRelation view) (.new definition))
  builder.finish

-- The trait methods; no answer is a panic.

variable (projection : GraphProjection)

/-- The number of local elements, which bounds their indexes. -/
def elementBound : Nat := projection.elements.length

variable (element : ProjectionElementId)

/-- Whether a local element is one of this projection's. -/
def containsElement : Bool :=
  localIndex element < projection.elements.length

/-- Whether a local relation is one of this projection's. -/
def containsRelation (relation : ProjectionRelationId) : Bool :=
  localIndex relation < projection.relations.length

/-- The canonical ID of a local element. -/
def canonicalElementId : Option ElementId :=
  projection.elements[localIndex element]?

/-- The local ID of a canonical element, if it is projected. -/
def localElementId (canonical : ElementId) : Option ProjectionElementId :=
  projection.elementIndex[canonical]?

/-- The canonical ID of a local relation. -/
def canonicalRelationId (relation : ProjectionRelationId) : Option RelationId :=
  projection.relations[localIndex relation]?

/-- The local ID of a canonical relation, if it is projected. -/
def localRelationId (canonical : RelationId) : Option ProjectionRelationId :=
  projection.relationIndex[canonical]?

/-- The source of an edge. -/
def source (edge : ProjectionRelationId) : Option ProjectionElementId :=
  (projection.endpoints[localIndex edge]?).map Prod.fst

/-- The target of an edge. -/
def target (edge : ProjectionRelationId) : Option ProjectionElementId :=
  (projection.endpoints[localIndex edge]?).map Prod.snd

/-- The outgoing edges of an element. -/
def outgoingEdges : Option (List ProjectionRelationId) :=
  projection.outEdges[localIndex element]?

/-- The incoming edges of an element. -/
def incomingEdges : Option (List ProjectionRelationId) :=
  projection.inEdges[localIndex element]?

/-- The targets of an element's outgoing edges. -/
def elementSuccessors : Option (List ProjectionElementId) :=
  projection.successors[localIndex element]?

/-- The sources of an element's incoming edges. -/
def elementPredecessors : Option (List ProjectionElementId) :=
  projection.predecessors[localIndex element]?

/-- The number of outgoing edges of an element. -/
def outDegree : Option Nat :=
  (projection.outgoingEdges element).map List.length

/-- The number of incoming edges of an element. -/
def inDegree : Option Nat :=
  (projection.incomingEdges element).map List.length

end GraphProjection

end Oxgraph
