import Oxgraph.Bcsr.Build
import Oxgraph.Db.Projection

/-! Materialized hypergraph projections: selected relations as directed hyperedges. -/

namespace Oxgraph

open Layout

-- Dense projection-local incidence identifier.
abbrev ProjectionIncidenceId := UInt32

/-- Materialized directed hypergraph projection view. -/
structure HypergraphProjection where
  definition : HypergraphProjectionDefinition
  -- Canonical elements by local element ID, and back.
  elements : List ElementId
  elementIndex : BTreeMap ElementId ProjectionElementId
  -- Canonical relations by local relation ID, and back.
  relations : List RelationId
  relationIndex : BTreeMap RelationId ProjectionRelationId
  -- Incidence records by local incidence ID, and canonical incidences back.
  incidences : List IncidenceRecord
  incidenceIndex : BTreeMap IncidenceId ProjectionIncidenceId
  -- Incidences of each relation and of each element.
  relationIncidences : List (List ProjectionIncidenceId)
  elementIncidences : List (List ProjectionIncidenceId)
  -- Source-side and target-side incidences and elements of each relation.
  sourceIncidences : List (List ProjectionIncidenceId)
  targetIncidences : List (List ProjectionIncidenceId)
  sourceVertices : List (List ProjectionElementId)
  targetVertices : List (List ProjectionElementId)
  -- Outgoing and incoming hyperedges, successors and predecessors of each element.
  outgoingHyperedges : List (List ProjectionRelationId)
  incomingHyperedges : List (List ProjectionRelationId)
  successors : List (List ProjectionElementId)
  predecessors : List (List ProjectionElementId)

/-- Accumulates the selected relations of a hypergraph projection. -/
structure HypergraphProjectionBuilder where
  definition : HypergraphProjectionDefinition
  elements : List ElementId
  elementIndex : BTreeMap ElementId ProjectionElementId
  relations : List RelationId
  relationIndex : BTreeMap RelationId ProjectionRelationId
  incidences : List IncidenceRecord
  incidenceIndex : BTreeMap IncidenceId ProjectionIncidenceId
  relationIncidences : List (List ProjectionIncidenceId)
  sourceIncidences : List (List ProjectionIncidenceId)
  targetIncidences : List (List ProjectionIncidenceId)
  sourceVertices : List (List ProjectionElementId)
  targetVertices : List (List ProjectionElementId)

/-- The arrays of one hyperedge. -/
structure HyperedgeArrays where
  relationIds : List ProjectionIncidenceId
  sourceIds : List ProjectionIncidenceId
  targetIds : List ProjectionIncidenceId
  sources : List ProjectionElementId
  targets : List ProjectionElementId

/-- The adjacency of each vertex. -/
structure DirectedVertexArrays where
  outgoing : List (List ProjectionRelationId)
  incoming : List (List ProjectionRelationId)
  successors : List (List ProjectionElementId)
  predecessors : List (List ProjectionElementId)

/-- Converts a local incidence count into an ID. -/
def projectionIncidenceId (index : Nat) : Except DbError ProjectionIncidenceId :=
  match fromUsize index with
  | some id => .ok id
  -- The error names the element family here too.
  | none => .error (.idOverflow .element)

/-- Pushes each incidence into the row of its element. -/
def buildElementIncidences (elementCount : Nat) (incidences : List IncidenceRecord)
    (elementIndex : BTreeMap ElementId ProjectionElementId) :
    Fallible DbError (List (List ProjectionIncidenceId)) :=
  incidences.zipIdx.foldlM (fun rows (incidence, index) => do
    let id ← .ofResult (projectionIncidenceId index)
    match elementIndex[incidence.element]? with
    | none => throw (.invalidProjection "incidence element not projected")
    | some element => do
      let row ← .orPanic rows[localIndex element]?
      return rows.set (localIndex element) (row ++ [id])) (List.replicate elementCount [])

/-- The vertices of elements, each where it first occurs. -/
def uniqueVertices (vertices : List UInt32) (elements : List ProjectionElementId) :
    Option (List UInt32) :=
  let (_, kept) := elements.foldl (fun (seen, kept) element =>
    if seen.contains element then (seen, kept) else (seen.insert element, kept ++ [element]))
    ((∅ : BTreeSet ProjectionElementId), [])
  kept.mapM fun element => vertices[localIndex element]?

/-- Elements in ascending order, without repeats. -/
def uniqueSorted (elements : List ProjectionElementId) : List ProjectionElementId :=
  (Std.ExtTreeSet.ofList elements compare).toList

/-- Adds a vertex for each element. -/
def addVertices (elementCount : Nat) :
    Fallible DbError (Bcsr.HypergraphBuilder UInt32 UInt32 UInt32 × List UInt32) :=
  (List.range elementCount).foldlM (fun (builder, vertices) _ => do
    let (vertex, builder) ← (Bcsr.HypergraphBuilder.addVertex builder).adapt
      fun (_ : Bcsr.HyperBuildError UInt32 UInt32) => .idOverflow .element
    return (builder, vertices ++ [vertex])) (.new, [])

/-- Adds a hyperedge between the vertices of each pair of sides. -/
def addHyperedges (vertices : List UInt32)
    (sides : List (List ProjectionElementId × List ProjectionElementId))
    (builder : Bcsr.HypergraphBuilder UInt32 UInt32 UInt32) :
    Fallible DbError (Bcsr.HypergraphBuilder UInt32 UInt32 UInt32) :=
  sides.foldlM (fun builder (sources, targets) => do
    let sources ← .orPanic (uniqueVertices vertices sources)
    let targets ← .orPanic (uniqueVertices vertices targets)
    let (_, builder) ← (builder.addHyperedge sources targets).adapt fun _ =>
      .invalidProjection "hyperedge participants are not directed-unique"
    return builder) builder

/-- Builds the adjacency of the vertices in a frozen hypergraph of the sides. -/
def buildDirectedVertexArrays (elementCount : Nat)
    (sourceVertices targetVertices : List (List ProjectionElementId)) :
    Fallible DbError DirectedVertexArrays := do
  let (builder, vertices) ← addVertices elementCount
  let builder ← addHyperedges vertices (sourceVertices.zip targetVertices) builder
  let frozen ← builder.freeze.adapt fun _ => .idOverflow .incidence
  let traits := frozen.topology.traits
  let outgoing ← vertices.mapM fun vertex => .orPanic (traits.outgoingHyperedges vertex)
  let incoming ← vertices.mapM fun vertex => .orPanic (traits.incomingHyperedges vertex)
  let successors ← vertices.mapM fun vertex => .orPanic (traits.elementSuccessors vertex)
  let predecessors ← vertices.mapM fun vertex => .orPanic (traits.elementPredecessors vertex)
  return { outgoing, incoming, successors := successors.map uniqueSorted
           predecessors := predecessors.map uniqueSorted }

namespace HypergraphProjectionBuilder

/-- Starts a projection. -/
def new (definition : HypergraphProjectionDefinition) : HypergraphProjectionBuilder where
  definition := definition
  elements := []
  elementIndex := ∅
  relations := []
  relationIndex := ∅
  incidences := []
  incidenceIndex := ∅
  relationIncidences := []
  sourceIncidences := []
  targetIncidences := []
  sourceVertices := []
  targetVertices := []

/-- The local ID of an incidence, added when it is new. -/
def pushIncidence (builder : HypergraphProjectionBuilder) (incidence : IncidenceRecord) :
    Except DbError (ProjectionIncidenceId × HypergraphProjectionBuilder) :=
  match builder.incidenceIndex[incidence.id]? with
  | some id => .ok (id, builder)
  | none => do
    let id ← projectionIncidenceId builder.incidences.length
    return (id, { builder with
      incidences := builder.incidences ++ [incidence]
      incidenceIndex := builder.incidenceIndex.insert incidence.id id })

/-- The local ID of a canonical element, interned when it is new. -/
def internElement (builder : HypergraphProjectionBuilder) (canonical : ElementId) :
    Except DbError (ProjectionElementId × HypergraphProjectionBuilder) :=
  match builder.elementIndex[canonical]? with
  | some interned => .ok (interned, builder)
  | none => do
    let interned ← projectionElementId builder.elements.length
    return (interned, { builder with
      elements := builder.elements ++ [canonical]
      elementIndex := builder.elementIndex.insert canonical interned })

/-- Enters an incidence into the arrays of its hyperedge, on the sides of its role. -/
def pushParticipant (state : HyperedgeArrays × HypergraphProjectionBuilder)
    (incidence : IncidenceRecord) :
    Except DbError (HyperedgeArrays × HypergraphProjectionBuilder) := do
  let (arrays, builder) := state
  let (id, builder) ← builder.pushIncidence incidence
  let (vertex, builder) ← builder.internElement incidence.element
  let isSource := builder.definition.sourceRoles.contains incidence.role
  let isTarget := builder.definition.targetRoles.contains incidence.role
  return (
    { relationIds := arrays.relationIds ++ [id]
      sourceIds := if isSource then arrays.sourceIds ++ [id] else arrays.sourceIds
      targetIds := if isTarget then arrays.targetIds ++ [id] else arrays.targetIds
      sources := if isSource then arrays.sources ++ [vertex] else arrays.sources
      targets := if isTarget then arrays.targets ++ [vertex] else arrays.targets }, builder)

/-- Adds a selected relation as a hyperedge. -/
def pushRelation (view : LayeredState) (builder : HypergraphProjectionBuilder)
    (relation : RelationRecord) : Except DbError HypergraphProjectionBuilder := do
  let hyperedge ← projectionRelationId builder.relations.length
  let (arrays, builder) ← (view.relationIncidences relation.id).foldlM pushParticipant
    (⟨[], [], [], [], []⟩, { builder with
      relations := builder.relations ++ [relation.id]
      relationIndex := builder.relationIndex.insert relation.id hyperedge })
  if arrays.sources.isEmpty ∨ arrays.targets.isEmpty then
    .error (.invalidProjection "selected hyperedge lacks source or target participants")
  else return { builder with
    relationIncidences := builder.relationIncidences ++ [arrays.relationIds]
    sourceIncidences := builder.sourceIncidences ++ [arrays.sourceIds]
    targetIncidences := builder.targetIncidences ++ [arrays.targetIds]
    sourceVertices := builder.sourceVertices ++ [arrays.sources]
    targetVertices := builder.targetVertices ++ [arrays.targets] }

/-- Builds the element-major arrays and the adjacency of the vertices. -/
def finish (builder : HypergraphProjectionBuilder) : Fallible DbError HypergraphProjection := do
  let elementIncidences ← buildElementIncidences builder.elements.length builder.incidences
    builder.elementIndex
  let arrays ← buildDirectedVertexArrays builder.elements.length builder.sourceVertices
    builder.targetVertices
  return {
    definition := builder.definition
    elements := builder.elements
    elementIndex := builder.elementIndex
    relations := builder.relations
    relationIndex := builder.relationIndex
    incidences := builder.incidences
    incidenceIndex := builder.incidenceIndex
    relationIncidences := builder.relationIncidences
    elementIncidences
    sourceIncidences := builder.sourceIncidences
    targetIncidences := builder.targetIncidences
    sourceVertices := builder.sourceVertices
    targetVertices := builder.targetVertices
    outgoingHyperedges := arrays.outgoing
    incomingHyperedges := arrays.incoming
    successors := arrays.successors
    predecessors := arrays.predecessors }

end HypergraphProjectionBuilder

namespace HypergraphProjection

/-- Materializes a hypergraph projection from a merged view. -/
def fromState (view : LayeredState) (definition : HypergraphProjectionDefinition) :
    Fallible DbError HypergraphProjection :=
  if definition.sourceRoles.isEmpty ∨ definition.targetRoles.isEmpty then
    throw (.invalidProjection "hypergraph projection requires non-empty source and target roles")
  else do
    let builder ← .ofResult ((view.relations.filter fun relation =>
      relationSelected relation definition.relationTypes).foldlM
        (HypergraphProjectionBuilder.pushRelation view) (.new definition))
    builder.finish

-- The trait methods; no answer is a panic.

variable (projection : HypergraphProjection)

/-- Whether a local element is one of this projection's. -/
def containsElement (element : ProjectionElementId) : Bool :=
  localIndex element < projection.elements.length

/-- Whether a local relation is one of this projection's. -/
def containsRelation (relation : ProjectionRelationId) : Bool :=
  localIndex relation < projection.relations.length

variable (incidence : ProjectionIncidenceId)

/-- Whether a local incidence is one of this projection's. -/
def containsIncidence : Bool :=
  localIndex incidence < projection.incidences.length

/-- The canonical ID of a local element. -/
def canonicalElementId (element : ProjectionElementId) : Option ElementId :=
  projection.elements[localIndex element]?

/-- The local ID of a canonical element, if it is projected. -/
def localElementId (canonical : ElementId) : Option ProjectionElementId :=
  projection.elementIndex[canonical]?

/-- The canonical ID of a local relation. -/
def canonicalRelationId (relation : ProjectionRelationId) : Option RelationId :=
  projection.relations[localIndex relation]?

/-- The local ID of a canonical relation, if it is projected. -/
def localRelationId (canonical : RelationId) : Option ProjectionRelationId :=
  projection.relationIndex[canonical]?

/-- The canonical ID of a local incidence. -/
def canonicalIncidenceId : Option IncidenceId :=
  (projection.incidences[localIndex incidence]?).map IncidenceRecord.id

/-- The local ID of a canonical incidence, if it is projected. -/
def localIncidenceId (canonical : IncidenceId) : Option ProjectionIncidenceId :=
  projection.incidenceIndex[canonical]?

/-- The incidences of a relation. -/
def relationIncidencesOf (relation : ProjectionRelationId) : Option (List ProjectionIncidenceId) :=
  projection.relationIncidences[localIndex relation]?

/-- The incidences of an element. -/
def elementIncidencesOf (element : ProjectionElementId) : Option (List ProjectionIncidenceId) :=
  projection.elementIncidences[localIndex element]?

/-- The element of an incidence. -/
def incidenceElement : Option ProjectionElementId := do
  let record ← projection.incidences[localIndex incidence]?
  projection.elementIndex[record.element]?

/-- The relation of an incidence. -/
def incidenceRelation : Option ProjectionRelationId := do
  let record ← projection.incidences[localIndex incidence]?
  projection.relationIndex[record.relation]?

/-- The role of an incidence. -/
def incidenceRole : Option RoleId :=
  (projection.incidences[localIndex incidence]?).map IncidenceRecord.role

variable (hyperedge : ProjectionRelationId)

/-- The participants of a hyperedge in any role. -/
def hyperedgeParticipants :
    Option (List ProjectionElementId) := do
  (← projection.relationIncidencesOf hyperedge).mapM projection.incidenceElement

/-- The hyperedges of a vertex, one for each of its incidences. -/
def incidentHyperedges (vertex : ProjectionElementId) : Option (List ProjectionRelationId) := do
  (← projection.elementIncidencesOf vertex).mapM projection.incidenceRelation

/-- The source-side incidences of a hyperedge. -/
def sourceIncidencesOf : Option (List ProjectionIncidenceId) :=
  projection.sourceIncidences[localIndex hyperedge]?

/-- The target-side incidences of a hyperedge. -/
def targetIncidencesOf : Option (List ProjectionIncidenceId) :=
  projection.targetIncidences[localIndex hyperedge]?

/-- The source-side participants of a hyperedge. -/
def sourceParticipants : Option (List ProjectionElementId) :=
  projection.sourceVertices[localIndex hyperedge]?

/-- The target-side participants of a hyperedge. -/
def targetParticipants : Option (List ProjectionElementId) :=
  projection.targetVertices[localIndex hyperedge]?

/-- The hyperedges that a vertex is a source of. -/
def outgoingHyperedgesOf (vertex : ProjectionElementId) : Option (List ProjectionRelationId) :=
  projection.outgoingHyperedges[localIndex vertex]?

/-- The hyperedges that a vertex is a target of. -/
def incomingHyperedgesOf (vertex : ProjectionElementId) : Option (List ProjectionRelationId) :=
  projection.incomingHyperedges[localIndex vertex]?

/-- The targets of a vertex's outgoing hyperedges. -/
def elementSuccessors (element : ProjectionElementId) : Option (List ProjectionElementId) :=
  projection.successors[localIndex element]?

/-- The sources of a vertex's incoming hyperedges. -/
def elementPredecessors (element : ProjectionElementId) : Option (List ProjectionElementId) :=
  projection.predecessors[localIndex element]?

end HypergraphProjection

end Oxgraph
