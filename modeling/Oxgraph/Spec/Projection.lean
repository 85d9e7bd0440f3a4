import Mathlib.Data.Set.Card
import Oxgraph.Db.HypergraphProjection
import Oxgraph.Db.Projection

/-! What projections show: the selected relations as edges, or as directed hyperedges. -/

namespace Oxgraph

namespace LayeredState

variable (view : LayeredState)

/-- A visible incidence of a relation with a role. -/
def Plays (relation : RelationId) (role : RoleId) (record : IncidenceRecord) : Prop :=
  view.incidence record.id = some record ∧ record.relation = relation ∧ record.role = role

/-- The element of the one visible incidence of a relation with a role. -/
def SoleEndpoint (relation : RelationId) (role : RoleId) (element : ElementId) : Prop :=
  ∃ record, (∀ other, view.Plays relation role other ↔ other = record) ∧ record.element = element

/-- The visible relations of some types; no types select them all. -/
def SelectedBy (relationTypes : BTreeSet RelationTypeId) : Set RelationId :=
  {id | ∃ record, view.relation id = some record ∧
    ((∀ relationType, relationType ∉ relationTypes) ∨
      ∃ relationType ∈ relationTypes, record.relationType = some relationType)}

variable (definition : GraphProjectionDefinition)

/-- The visible relations of the types a projection selects; no types select them all. -/
def Selected : Set RelationId := view.SelectedBy definition.relationTypes

/-- Whether every selected relation has one source and one target. -/
def Binary : Prop :=
  ∀ id ∈ view.Selected definition, (∃ source, view.SoleEndpoint id definition.sourceRole source) ∧
    ∃ target, view.SoleEndpoint id definition.targetRole target

/-- The sources and the targets of the selected relations. -/
def Projected : Set ElementId :=
  {element | ∃ id ∈ view.Selected definition,
    view.SoleEndpoint id definition.sourceRole element ∨
      view.SoleEndpoint id definition.targetRole element}

end LayeredState

namespace GraphProjection

variable (projection : GraphProjection)

/--
For every element of a projection, the edges at one end of which it stands, in ascending order and
once each, and the elements at their other ends, position by position.
-/
def Lists (near far : ProjectionRelationId → Option ProjectionElementId)
    (edges : ProjectionElementId → Option (List ProjectionRelationId))
    (ends : ProjectionElementId → Option (List ProjectionElementId)) : Prop :=
  ∀ element, projection.containsElement element → ∃ row others,
    edges element = some row ∧ ends element = some others ∧ Ascending row ∧
      (∀ edge, edge ∈ row ↔ near edge = some element) ∧ row.map far = others.map some

/-- A projection is the directed multigraph of the relations its definition selects. -/
structure Faithful (view : LayeredState) (definition : GraphProjectionDefinition) : Prop where
  defined : projection.definition = definition
  -- The edges are the selected relations in id order.
  ordered : Ascending projection.relations
  relations : ∀ id, id ∈ projection.relations ↔ id ∈ view.Selected definition
  elements : ∀ id, id ∈ projection.elements ↔ id ∈ view.Projected definition
  -- Every position has a local ID, and the index maps are inverse to the vectors of IDs.
  relationCovered : ∀ {position}, position < projection.relations.length →
    ∃ edge, localIndex edge = position
  relationIds : ∀ {id edge},
    projection.localRelationId id = some edge ↔ projection.canonicalRelationId edge = some id
  elementCovered : ∀ {position}, position < projection.elements.length →
    ∃ element, localIndex element = position
  elementIds : ∀ {id element},
    projection.localElementId id = some element ↔ projection.canonicalElementId element = some id
  -- An edge leads from the source of its relation to the target.
  source : ∀ {edge id}, projection.canonicalRelationId edge = some id → ∃ element canonical,
    projection.source edge = some element ∧ projection.canonicalElementId element = some canonical ∧
      view.SoleEndpoint id definition.sourceRole canonical
  target : ∀ {edge id}, projection.canonicalRelationId edge = some id → ∃ element canonical,
    projection.target edge = some element ∧ projection.canonicalElementId element = some canonical ∧
      view.SoleEndpoint id definition.targetRole canonical
  -- No edge has an end without a relation.
  endpoints : projection.endpoints.length = projection.relations.length
  outgoing : projection.Lists projection.source projection.target projection.outgoingEdges
    projection.elementSuccessors
  incoming : projection.Lists projection.target projection.source projection.incomingEdges
    projection.elementPredecessors

end GraphProjection

end Oxgraph

-- Hypergraph projections.

namespace Oxgraph

namespace LayeredState

variable (view : LayeredState) (definition : HypergraphProjectionDefinition)

/-- The visible incidences of the selected relations. -/
def Participates : Set IncidenceRecord :=
  {record | view.incidence record.id = some record ∧
    record.relation ∈ view.SelectedBy definition.relationTypes}

/-- The elements that take part in a relation in one of some roles. -/
def Participants (roles : BTreeSet RoleId) : Set (RelationId × ElementId) :=
  {pair | ∃ record ∈ view.Participates definition, record.role ∈ roles ∧
    (record.relation, record.element) = pair}

/-- A selected relation has a participant in one of some roles. -/
def HasSide (roles : BTreeSet RoleId) : Prop :=
  (∃ role, role ∈ roles) ∧ ∀ id ∈ view.SelectedBy definition.relationTypes,
    ∃ record ∈ view.Participates definition, record.relation = id ∧ record.role ∈ roles

/-- There are roles of both sides, each selected relation has both, and `u32` can count it all. -/
structure Directed : Prop where
  sources : view.HasSide definition definition.sourceRoles
  targets : view.HasSide definition definition.targetRoles
  incidences : (view.Participates definition).ncard ≤ 2 ^ 32
  sourceParticipants : (view.Participants definition definition.sourceRoles).ncard < 2 ^ 32
  targetParticipants : (view.Participants definition definition.targetRoles).ncard < 2 ^ 32

end LayeredState

namespace HypergraphProjection

variable (projection : HypergraphProjection)

/-- Local IDs and canonical IDs correspond one to one, and every position has a local ID. -/
structure Corresponds {K : Type} (count : Nat) (canonical : UInt32 → Option K)
    (localId : K → Option UInt32) : Prop where
  covered : ∀ {position}, position < count → ∃ id, localIndex id = position
  inverse : ∀ {key id}, localId key = some id ↔ canonical id = some key
  bounded : ∀ {id}, (∃ key, canonical id = some key) ↔ localIndex id < count

/-- Rows hold the incidences of each owner, ascending and once each. -/
def PartitionedBy (contains : UInt32 → Bool) (owner : ProjectionIncidenceId → Option UInt32)
    (rows : UInt32 → Option (List ProjectionIncidenceId)) : Prop :=
  ∀ id, contains id → ∃ row, rows id = some row ∧ Ascending row ∧
    ∀ incidence, incidence ∈ row ↔ owner incidence = some id

/-- An incidence has one of some roles. -/
def plays (roles : BTreeSet RoleId) (incidence : ProjectionIncidenceId) : Bool :=
  (projection.incidenceRole incidence).any roles.contains

/-- A side of each hyperedge: its incidences in some roles in order, and the elements of those. -/
def ShowsSide (roles : BTreeSet RoleId)
    (incidences : ProjectionRelationId → Option (List ProjectionIncidenceId))
    (participants : ProjectionRelationId → Option (List ProjectionElementId)) : Prop :=
  ∀ hyperedge, projection.containsRelation hyperedge → ∃ row elements,
    projection.relationIncidencesOf hyperedge = some row ∧
      incidences hyperedge = some (row.filter (projection.plays roles)) ∧
      participants hyperedge = some elements ∧
      (row.filter (projection.plays roles)).map projection.incidenceElement = elements.map some

/-- A vertex takes part in a hyperedge on a side. -/
def TakesPart (participants : ProjectionRelationId → Option (List ProjectionElementId))
    (hyperedge : ProjectionRelationId) (vertex : ProjectionElementId) : Prop :=
  ∃ elements, participants hyperedge = some elements ∧ vertex ∈ elements

/--
The hyperedges that each vertex is on the near side of, and the elements on the far sides of these,
both ascending and once each.
-/
def Leads (near far : ProjectionRelationId → Option (List ProjectionElementId))
    (hyperedges : ProjectionElementId → Option (List ProjectionRelationId))
    (ends : ProjectionElementId → Option (List ProjectionElementId)) : Prop :=
  ∀ vertex, projection.containsElement vertex → ∃ row others,
    hyperedges vertex = some row ∧ Ascending row ∧
      (∀ hyperedge, hyperedge ∈ row ↔ TakesPart near hyperedge vertex) ∧
      ends vertex = some others ∧ Ascending others ∧
      ∀ other, other ∈ others ↔ ∃ hyperedge ∈ row, TakesPart far hyperedge other

/-- A projection is the directed hypergraph of the relations its definition selects. -/
structure Faithful (view : LayeredState) (definition : HypergraphProjectionDefinition) : Prop where
  defined : projection.definition = definition
  -- The hyperedges are the selected relations in id order.
  ordered : Ascending projection.relations
  relations : ∀ id, id ∈ projection.relations ↔ id ∈ view.SelectedBy definition.relationTypes
  incidences : ∀ record, record ∈ projection.incidences ↔ record ∈ view.Participates definition
  elements : ∀ id, id ∈ projection.elements ↔
    ∃ record ∈ view.Participates definition, record.element = id
  -- The index maps are inverse to the vectors of IDs.
  relationIds : Corresponds projection.relations.length projection.canonicalRelationId
    projection.localRelationId
  elementIds : Corresponds projection.elements.length projection.canonicalElementId
    projection.localElementId
  incidenceIds : Corresponds projection.incidences.length projection.canonicalIncidenceId
    projection.localIncidenceId
  -- An incidence answers as its record says.
  incidence : ∀ {incidence record}, projection.incidences[localIndex incidence]? = some record →
    projection.incidenceRole incidence = some record.role ∧
    (∃ relation, projection.incidenceRelation incidence = some relation ∧
      projection.canonicalRelationId relation = some record.relation) ∧
    ∃ element, projection.incidenceElement incidence = some element ∧
      projection.canonicalElementId element = some record.element
  relationRows : PartitionedBy projection.containsRelation projection.incidenceRelation
    projection.relationIncidencesOf
  elementRows : PartitionedBy projection.containsElement projection.incidenceElement
    projection.elementIncidencesOf
  sources : projection.ShowsSide definition.sourceRoles projection.sourceIncidencesOf
    projection.sourceParticipants
  targets : projection.ShowsSide definition.targetRoles projection.targetIncidencesOf
    projection.targetParticipants
  outgoing : projection.Leads projection.sourceParticipants projection.targetParticipants
    projection.outgoingHyperedgesOf projection.elementSuccessors
  incoming : projection.Leads projection.targetParticipants projection.sourceParticipants
    projection.incomingHyperedgesOf projection.elementPredecessors
  -- The participants in any role, and the hyperedges of a vertex, one for each incidence.
  participants : ∀ hyperedge, projection.containsRelation hyperedge → ∃ row elements,
    projection.relationIncidencesOf hyperedge = some row ∧
      projection.hyperedgeParticipants hyperedge = some elements ∧
      row.map projection.incidenceElement = elements.map some
  incident : ∀ vertex, projection.containsElement vertex → ∃ row hyperedges,
    projection.elementIncidencesOf vertex = some row ∧
      projection.incidentHyperedges vertex = some hyperedges ∧
      row.map projection.incidenceRelation = hyperedges.map some

end HypergraphProjection

end Oxgraph
