import Oxgraph.Bcsr.Traversal
import Oxgraph.Proofs.Layout.Arrays

/-! Directed hypergraphs, the eight sections that encode one, and their numbered incidences. -/

namespace Oxgraph.Bcsr

open Layout

/-- A strictly ascending list of vertices below a count. -/
structure VertexSet (vertexCount : Nat) where
  vertices : List Nat
  ascending : vertices.Pairwise (· < ·)
  below : ∀ vertex ∈ vertices, vertex < vertexCount

/-- A hyperedge from its head vertices to its tail vertices. -/
structure Hyperedge (vertexCount : Nat) where
  head : VertexSet vertexCount
  tail : VertexSet vertexCount

/-- A directed hypergraph, its vertices and its hyperedges numbered from zero. -/
structure Hypergraph where
  vertexCount : Nat
  hyperedges : List (Hyperedge vertexCount)

namespace Hypergraph

variable (graph : Hypergraph)

/-- The head vertices of every hyperedge. -/
def heads : List (List Nat) := graph.hyperedges.map fun hyperedge => hyperedge.head.vertices

/-- The tail vertices of every hyperedge. -/
def tails : List (List Nat) := graph.hyperedges.map fun hyperedge => hyperedge.tail.vertices

/-- For each vertex, the hyperedges it is a head of. -/
def outgoing : List (List Nat) := transpose graph.vertexCount graph.heads

/-- For each vertex, the hyperedges it is a tail of. -/
def incoming : List (List Nat) := transpose graph.vertexCount graph.tails

/-- Both directions of both sides are laid out as offsets over concatenated lists. -/
structure EncodedBy {V R O : Type} [LayoutIndex V] [LayoutIndex R] [LayoutIndex O]
    (sections : BcsrSections V R O) : Prop where
  heads : Indexed sections.headOffsets sections.headParticipants graph.heads
  tails : Indexed sections.tailOffsets sections.tailParticipants graph.tails
  outgoing : Indexed sections.vertexOutgoingOffsets sections.vertexOutgoingHyperedges graph.outgoing
  incoming : Indexed sections.vertexIncomingOffsets sections.vertexIncomingHyperedges graph.incoming

end Hypergraph

section

variable {V R O : Type} [LayoutIndex V] [LayoutIndex R] [LayoutIndex O]

/-- Every section is a slice in memory. -/
structure BcsrSections.InMemory (sections : BcsrSections V R O) : Prop where
  headOffsets : sections.headOffsets.length ≤ sliceBound (LayoutIndex.bytes O)
  headParticipants : sections.headParticipants.length ≤ sliceBound (LayoutIndex.bytes V)
  tailOffsets : sections.tailOffsets.length ≤ sliceBound (LayoutIndex.bytes O)
  tailParticipants : sections.tailParticipants.length ≤ sliceBound (LayoutIndex.bytes V)
  vertexOutgoingOffsets :
    sections.vertexOutgoingOffsets.length ≤ sliceBound (LayoutIndex.bytes O)
  vertexOutgoingHyperedges :
    sections.vertexOutgoingHyperedges.length ≤ sliceBound (LayoutIndex.bytes R)
  vertexIncomingOffsets :
    sections.vertexIncomingOffsets.length ≤ sliceBound (LayoutIndex.bytes O)
  vertexIncomingHyperedges :
    sections.vertexIncomingHyperedges.length ≤ sliceBound (LayoutIndex.bytes R)

/-- Every method returns on every valid ID, and every iterator runs to its end. -/
structure HyperTraits.NoPanic {Role : Type} (traits : HyperTraits V R O Role) : Prop where
  elementIndex : ∀ element, (traits.elementIndex element).isSome
  relationIndex : ∀ relation, (traits.relationIndex relation).isSome
  incidenceIndex : ∀ incidence, (traits.incidenceIndex incidence).isSome
  containsElement : ∀ element, (traits.containsElement element).isSome
  containsRelation : ∀ relation, (traits.containsRelation relation).isSome
  containsIncidence : ∀ incidence, (traits.containsIncidence incidence).isSome
  incidenceElement : ∀ incidence, toNat incidence < traits.incidenceCount →
    (traits.incidenceElement incidence).isSome
  incidenceRelation : ∀ incidence, toNat incidence < traits.incidenceCount →
    (traits.incidenceRelation incidence).isSome
  incidenceRole : ∀ incidence, toNat incidence < traits.incidenceCount →
    (traits.incidenceRole incidence).isSome
  sourceIncidences : ∀ hyperedge, toNat hyperedge < traits.relationCount →
    (traits.sourceIncidences hyperedge).isSome
  targetIncidences : ∀ hyperedge, toNat hyperedge < traits.relationCount →
    (traits.targetIncidences hyperedge).isSome
  relationIncidences : ∀ relation, toNat relation < traits.relationCount →
    (traits.relationIncidences relation).isSome
  relationIncidenceCount : ∀ relation, toNat relation < traits.relationCount →
    (traits.relationIncidenceCount relation).isSome
  elementIncidences : ∀ element, toNat element < traits.elementCount →
    (traits.elementIncidences element).isSome
  elementIncidenceCount : ∀ element, toNat element < traits.elementCount →
    (traits.elementIncidenceCount element).isSome
  sourceParticipants : ∀ hyperedge, toNat hyperedge < traits.relationCount →
    (traits.sourceParticipants hyperedge).isSome
  targetParticipants : ∀ hyperedge, toNat hyperedge < traits.relationCount →
    (traits.targetParticipants hyperedge).isSome
  hyperedgeParticipants : ∀ hyperedge, toNat hyperedge < traits.relationCount →
    (traits.hyperedgeParticipants hyperedge).isSome
  outgoingHyperedges : ∀ vertex, toNat vertex < traits.elementCount →
    (traits.outgoingHyperedges vertex).isSome
  incomingHyperedges : ∀ vertex, toNat vertex < traits.elementCount →
    (traits.incomingHyperedges vertex).isSome
  incidentHyperedges : ∀ vertex, toNat vertex < traits.elementCount →
    (traits.incidentHyperedges vertex).isSome
  elementSuccessors : ∀ vertex, toNat vertex < traits.elementCount →
    (traits.elementSuccessors vertex).isSome
  elementPredecessors : ∀ vertex, toNat vertex < traits.elementCount →
    (traits.elementPredecessors vertex).isSome

/--
The incidences of hyperedges that have an ID have IDs, and the hyperedges of such incidences too.

Validation checks that the incidences can be counted, not that the index widths can number them.
-/
structure BcsrSections.Narrowable (sections : BcsrSections V R O) : Prop where
  -- The tail incidences follow the whole head block.
  tailIncidences : ∀ index start stop : Nat, index < LayoutIndex.bound R →
    (sections.tailOffsets.map toNat)[index]? = some start →
    (sections.tailOffsets.map toNat)[index + 1]? = some stop → start < stop →
    sections.headParticipants.length + stop ≤ LayoutIndex.bound O
  headOwners : ∀ index start stop : Nat, LayoutIndex.bound R ≤ index →
    (sections.headOffsets.map toNat)[index]? = some start →
    (sections.headOffsets.map toNat)[index + 1]? = some stop → stop ≤ start
  tailOwners : ∀ index start stop : Nat, LayoutIndex.bound R ≤ index →
    (sections.tailOffsets.map toNat)[index]? = some start →
    (sections.tailOffsets.map toNat)[index + 1]? = some stop → start < stop →
    LayoutIndex.bound O ≤ sections.headParticipants.length + start

end

end Oxgraph.Bcsr

-- Incidences numbered from zero, and walks from both ends of a side.

namespace Oxgraph.Bcsr

open Layout

section

variable {T : Type}

/-- What an end of a list answers, and the list without the answer. -/
def takeAt : SliceEnd → List T → Option T × List T
  | .front, items => (items.head?, items.tail)
  | .back, items => (items.getLast?, items.dropLast)

/-- What the ends of a list answer one after the other, and what is left of the list. -/
def takeMixture : List SliceEnd → List T → List (Option T) × List T
  | [], items => ([], items)
  | side :: sides, items =>
    let (answer, rest) := takeAt side items
    let (answers, rest) := takeMixture sides rest
    (answer :: answers, rest)

end

/-- The fuel that a walk needs from either end. -/
def BcsrParticipantSlice.remaining (slice : BcsrParticipantSlice) : Nat :=
  slice.stop - slice.cursor

section

variable {I : Type} [LayoutIndex I]

/--
A walk yields a list from both ends.

After any mixture of front and back, what is left read backwards reverses what is left read
forwards.
-/
def BcsrParticipantSlice.Yields (slice : BcsrParticipantSlice) (incidences : List I) : Prop :=
  ∀ sides : List SliceEnd, ∃ rest : BcsrParticipantSlice,
    slice.mixture sides = some ((takeMixture sides incidences).1, rest) ∧
      ∀ fuel > rest.remaining,
        rest.drain .front fuel = some (takeMixture sides incidences).2 ∧
          rest.drain .back fuel = some (takeMixture sides incidences).2.reverse

end

section

variable {V R O : Type} [LayoutIndex V] [LayoutIndex R] [LayoutIndex O]

namespace BcsrHypergraph

variable (view : BcsrHypergraph V R O)

/-- A list of incidences holds each of those with a property once, and no other. -/
structure Lists (incidences : List O) (holds : O → Prop) : Prop where
  nodup : incidences.Nodup
  mem_iff : ∀ id, id ∈ incidences ↔ view.containsIncidence id = some true ∧ holds id

/--
The incidence IDs of a view number its incidences.

An incidence is a vertex on one side of a hyperedge.
-/
structure NumbersIncidences : Prop where
  count : view.incidenceCount =
    view.sections.headParticipants.length + view.sections.tailParticipants.length
  -- The numbers below the count are IDs, and the incidences are these IDs.
  named : ∀ number < view.incidenceCount, ∃ id : O, toNat id = number
  contains_iff : ∀ id, view.containsIncidence id = some true ↔ toNat id < view.incidenceCount
  -- Every incidence has a hyperedge, a vertex and a side, and no two have the same.
  described : ∀ id, view.containsIncidence id = some true →
    ∃ hyperedge vertex role, view.incidenceRelation id = some hyperedge ∧
      view.incidenceElement id = some vertex ∧ view.incidenceRole id = some role ∧
      view.containsRelation hyperedge = some true ∧ view.containsElement vertex = some true
  distinct : ∀ id other, view.containsIncidence id = some true →
    view.containsIncidence other = some true →
    view.incidenceRelation id = view.incidenceRelation other →
    view.incidenceElement id = view.incidenceElement other →
    view.incidenceRole id = view.incidenceRole other → id = other
  -- Every vertex on a side of a hyperedge has an incidence there, and only these have.
  heads : ∀ hyperedge, view.containsRelation hyperedge = some true →
    ∃ vertices, view.sourceParticipants hyperedge = some vertices ∧
      ∀ vertex, vertex ∈ vertices ↔ ∃ id, view.containsIncidence id = some true ∧
        view.incidenceRelation id = some hyperedge ∧ view.incidenceElement id = some vertex ∧
        view.incidenceRole id = some .head
  tails : ∀ hyperedge, view.containsRelation hyperedge = some true →
    ∃ vertices, view.targetParticipants hyperedge = some vertices ∧
      ∀ vertex, vertex ∈ vertices ↔ ∃ id, view.containsIncidence id = some true ∧
        view.incidenceRelation id = some hyperedge ∧ view.incidenceElement id = some vertex ∧
        view.incidenceRole id = some .tail

/-- Every list of incidences is complete, free of repetition and counted. -/
structure ListsIncidences : Prop where
  sources : ∀ hyperedge, view.containsRelation hyperedge = some true →
    ∃ incidences, view.sourceIncidences hyperedge = some incidences ∧
      view.Lists incidences fun id => view.incidenceRelation id = some hyperedge ∧
        view.incidenceRole id = some .head
  targets : ∀ hyperedge, view.containsRelation hyperedge = some true →
    ∃ incidences, view.targetIncidences hyperedge = some incidences ∧
      view.Lists incidences fun id => view.incidenceRelation id = some hyperedge ∧
        view.incidenceRole id = some .tail
  relations : ∀ hyperedge, view.containsRelation hyperedge = some true →
    ∃ incidences, view.relationIncidences hyperedge = some incidences ∧
      view.relationIncidenceCount hyperedge = some incidences.length ∧
      view.Lists incidences fun id => view.incidenceRelation id = some hyperedge
  elements : ∀ vertex, view.containsElement vertex = some true →
    ∃ incidences, view.elementIncidences vertex = some incidences ∧
      view.elementIncidenceCount vertex = some incidences.length ∧
      view.Lists incidences fun id => view.incidenceElement id = some vertex
  -- The head incidences are the sources of hyperedges.
  head_iff : ∀ id, view.containsIncidence id = some true →
    (view.incidenceRole id = some .head ↔
      ∃ hyperedge incidences, view.containsRelation hyperedge = some true ∧
        view.sourceIncidences hyperedge = some incidences ∧ id ∈ incidences)

/-- The walks over the two sides of a hyperedge yield its incidences from both ends. -/
structure WalksIncidences : Prop where
  sources : ∀ hyperedge, view.containsRelation hyperedge = some true →
    ∃ slice incidences, view.sourceSlice hyperedge = some slice ∧
      view.sourceIncidences hyperedge = some incidences ∧ slice.Yields incidences
  targets : ∀ hyperedge, view.containsRelation hyperedge = some true →
    ∃ slice incidences, view.targetSlice hyperedge = some slice ∧
      view.targetIncidences hyperedge = some incidences ∧ slice.Yields incidences

end BcsrHypergraph

end

end Oxgraph.Bcsr
