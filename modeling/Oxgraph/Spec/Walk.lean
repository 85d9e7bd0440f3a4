import Oxgraph.Db.Traversal
import Oxgraph.Lib.BreadthFirst
import Oxgraph.Spec.Projection

/-! What a bounded walk must report, and when a neighbour lookup agrees with the roles. -/

namespace Oxgraph

namespace LayeredState

variable (view : LayeredState) (definition : GraphProjectionDefinition)

/-- A selected relation with its one source and its one target. -/
def IsEdge (edge : TraversedEdge) : Prop :=
  edge.relation ∈ view.Selected definition ∧
    view.SoleEndpoint edge.relation definition.sourceRole edge.source ∧
    view.SoleEndpoint edge.relation definition.targetRole edge.target

/-- A selected relation leads from one element to another. -/
def Leads (source target : ElementId) : Prop :=
  ∃ relation, view.IsEdge definition ⟨relation, source, target⟩

/-- One step of a direction: along an edge, against one, or either. -/
def StepsTo (direction : Direction) (near far : ElementId) : Prop :=
  match direction with
  | .outgoing => view.Leads definition near far
  | .incoming => view.Leads definition far near
  | .both => view.Leads definition near far ∨ view.Leads definition far near

/-- An element is so many steps of a direction away from the seeds. -/
def Away (direction : Direction) (seeds : List ElementId) : Nat → ElementId → Prop
  | 0, element => element ∈ seeds
  | hops + 1, element =>
    ∃ before, Away direction seeds hops before ∧ view.StepsTo definition direction before element

/-- The least number of steps of a direction from the seeds to an element. -/
def ShortestHops (direction : Direction) (seeds : List ElementId) (hops : Nat)
    (element : ElementId) : Prop :=
  view.Away definition direction seeds hops element ∧
    ∀ fewer < hops, ¬ view.Away definition direction seeds fewer element

/-- The elements a walk may list: those near enough, and the seeds only if they are included. -/
def Ball (seeds : List ElementId) (walk : Walk) : Set ElementId :=
  {element | (walk.includeStart = true ∨ element ∉ seeds) ∧
    ∃ hops ≤ walk.maxDepth, view.ShortestHops definition walk.direction seeds hops element}

/-- No edge among some elements comes after one of a greater relation by source and target. -/
def RelationsFollowEnds (among : Set ElementId) : Prop :=
  ∀ first second, view.IsEdge definition first → view.IsEdge definition second →
    first.source ∈ among → first.target ∈ among → second.source ∈ among →
      second.target ∈ among → first.relation < second.relation →
        compare (second.source, second.target) (first.source, first.target) ≠ .lt

end LayeredState

namespace GraphProjection

variable (projection : GraphProjection)

/-- The row of a local element that a search along a direction expands. -/
def rowsAlong (direction : Direction) (element : ProjectionElementId) :
    List ProjectionElementId :=
  match direction with
  | .outgoing => projection.topologyView.elementSuccessors element
  | .incoming => projection.topologyView.elementPredecessors element
  | .both => projection.topologyView.elementSuccessors element ++
      projection.topologyView.elementPredecessors element

/--
The breadth-first discovery of the nodes a walk may list, whatever its limit.

It is the reference listing over the rows of the direction, as deep as a `u32` counts; seeds are
in it only if they are included.
-/
def discovery (seeds : List ElementId) (walk : Walk) : List TraversedNode :=
  ((listing (projection.rowsAlong walk.direction) (some (min walk.maxDepth 0xFFFFFFFF))
    (seeds.filterMap projection.localElementId) projection.elementBound).filter fun entry =>
      walk.includeStart || decide (0 < entry.2)).filterMap fun entry =>
        (projection.canonicalElementId entry.1).map fun element => { element, depth := entry.2 }

/-- What a walk reaches: its seeds, and the first nodes of the discovery up to its limit. -/
def Reach (seeds : List ElementId) (walk : Walk) : Set ElementId :=
  {element | element ∈ seeds ∨
    ∃ node ∈ (projection.discovery seeds walk).take walk.limit, node.element = element}

end GraphProjection

/-- The documented order of edges: by source, then by target, then by relation. -/
def TraversedEdge.Precedes (first second : TraversedEdge) : Prop :=
  compare (first.source, first.target, first.relation)
    (second.source, second.target, second.relation) = .lt

namespace Subgraph

variable (subgraph : Subgraph) (view : LayeredState) (definition : GraphProjectionDefinition)

/-- The elements that a result lists. -/
def Listed : Set ElementId := {element | ∃ node ∈ subgraph.nodes, node.element = element}

/-- A result lists the ball around the seeds, each element once at its distance, up to the limit. -/
structure ListsBall (seeds : List ElementId) (walk : Walk) : Prop where
  distinct : (subgraph.nodes.map TraversedNode.element).Nodup
  ascending : (subgraph.nodes.map TraversedNode.depth).Pairwise (· ≤ ·)
  distance : ∀ node ∈ subgraph.nodes,
    view.ShortestHops definition walk.direction seeds node.depth node.element
  within : ∀ node ∈ subgraph.nodes, node.depth ≤ walk.maxDepth
  start : ∀ node ∈ subgraph.nodes, node.element ∈ seeds → walk.includeStart = true
  length : subgraph.nodes.length = min walk.limit (view.Ball definition seeds walk).ncard

/--
The edges of a result are those between its seeds and nodes, one for each relation, in the
documented order.
-/
structure Induced (seeds : List ElementId) : Prop where
  edges : ∀ edge, edge ∈ subgraph.edges ↔ view.IsEdge definition edge ∧
    (edge.source ∈ seeds ∨ edge.source ∈ subgraph.Listed) ∧
    (edge.target ∈ seeds ∨ edge.target ∈ subgraph.Listed)
  once : (subgraph.edges.map TraversedEdge.relation).Nodup
  ordered : subgraph.edges.Pairwise TraversedEdge.Precedes

/-- A result never references a node it omitted. -/
def Closed : Prop :=
  ∀ edge ∈ subgraph.edges, edge.source ∈ subgraph.Listed ∧ edge.target ∈ subgraph.Listed

end Subgraph

end Oxgraph

-- Neighbour lookups, which read directions off incidence ids.

namespace Oxgraph

namespace LayeredState

variable (view : LayeredState) (definition : GraphProjectionDefinition)

/-- Two visible incidences of a selected relation, the first created before the second. -/
def Attached (earlier later : IncidenceRecord) : Prop :=
  view.incidence earlier.id = some earlier ∧ view.incidence later.id = some later ∧
    earlier.relation = later.relation ∧ earlier.relation ∈ view.Selected definition ∧
    earlier.id < later.id

/-- A selected relation was attached to one element before it was attached to another. -/
def AttachedBefore (first second : ElementId) : Prop :=
  ∃ earlier later, view.Attached definition earlier later ∧
    earlier.element = first ∧ later.element = second

/--
The order of the incidences of two elements does not mislead about the edges from one to the other.
-/
structure OrderFits (source target : ElementId) : Prop where
  -- A target that was attached before its source is made up for by another relation.
  late : ∀ earlier later, view.Attached definition earlier later →
    earlier.role = definition.targetRole → earlier.element = target →
      later.role = definition.sourceRole → later.element = source →
        view.AttachedBefore definition source target
  -- Incidences that are no source before its target are made up for by an edge.
  stray : ∀ earlier later, view.Attached definition earlier later →
    earlier.element = source → later.element = target →
      ¬ (earlier.role = definition.sourceRole ∧ later.role = definition.targetRole) →
        view.Leads definition source target

end LayeredState

/-- The elements that the rows of a projection lead to from an element along a direction. -/
def GraphProjection.Along (projection : GraphProjection) (direction : Direction)
    (element : ElementId) : Set ElementId :=
  {other | ∃ near far, projection.localElementId element = some near ∧
    far ∈ projection.rowsAlong direction near ∧ projection.canonicalElementId far = some other}

/-- A reader finds as neighbours what a projection leads to, the element itself apart. -/
def Reader.AgreesAlong (reader : Reader) (projection : GraphProjection)
    (relationType : RelationTypeId) (direction : Direction) (element : ElementId) : Prop :=
  ∀ other, other ∈ reader.neighbors element relationType direction ↔
    other ∈ projection.Along direction element ∧ other ≠ element

end Oxgraph
