import Oxgraph.Spec.Additions

/-! The weights that the calls of a weighted builder assign, the latest first. -/

namespace Oxgraph.Bcsr

open Layout

/-- One call of the weighted builder. -/
inductive WeightCall (V R EW RW IW : Type) where
  | add (addition : Addition V EW RW IW)
  | setElement (vertex : V) (weight : EW)
  | setRelation (hyperedge : R) (weight : RW)
  | setSource (hyperedge : R) (position : Nat) (weight : IW)
  | setTarget (hyperedge : R) (position : Nat) (weight : IW)

section

variable {V R O EW RW IW : Type} [LayoutIndex V] [LayoutIndex R] [LayoutIndex O]

/-- Makes one call of the weighted builder, and forgets the ID it returns. -/
def WeightedHypergraphBuilder.call (builder : WeightedHypergraphBuilder V R O EW RW IW) :
    WeightCall V R EW RW IW →
      Fallible (HyperBuildError V R) (WeightedHypergraphBuilder V R O EW RW IW)
  | .add addition => builder.add addition
  | .setElement vertex weight => builder.setElementWeight vertex weight
  | .setRelation hyperedge weight => builder.setRelationWeight hyperedge weight
  | .setSource hyperedge position weight =>
    builder.setSourceIncidenceWeight hyperedge position weight
  | .setTarget hyperedge position weight =>
    builder.setTargetIncidenceWeight hyperedge position weight

end

/-- An incidence by its hyperedge, its role and its vertex. -/
abbrev IncidenceKey := Nat × HyperParticipantRole × Nat

/-- What was added, and every weight that was assigned, the latest assignment first. -/
structure Ledger (EW RW IW : Type) where
  added : Added
  elements : List (Nat × EW)
  relations : List (Nat × RW)
  incidences : List (IncidenceKey × IW)

/-- The vertices on a side of a hyperedge, in the order they were given. -/
def Added.side (added : Added) (hyperedge : Nat) (role : HyperParticipantRole) : List Nat :=
  let sides := added.hyperedges.getD hyperedge ([], [])
  match role with
  | .source => sides.1
  | .target => sides.2

namespace Ledger

variable {EW RW IW : Type}

/-- Nothing yet. -/
def empty : Ledger EW RW IW := { added := .empty, elements := [], relations := [], incidences := [] }

/-- The assignments to the participants of a new hyperedge in a role. -/
def participants {V : Type} [LayoutIndex V] (hyperedge : Nat) (role : HyperParticipantRole)
    (side : List (V × IW)) : List (IncidenceKey × IW) :=
  side.map fun participant => ((hyperedge, role, toNat participant.1), participant.2)

/-- A weight for the vertex that was given at a position of a side, if there is one. -/
def assign (ledger : Ledger EW RW IW) (role : HyperParticipantRole) (hyperedge position : Nat)
    (weight : IW) : Ledger EW RW IW :=
  match (ledger.added.side hyperedge role)[position]? with
  | none => ledger
  | some vertex =>
    { ledger with incidences := ((hyperedge, role, vertex), weight) :: ledger.incidences }

/--
What one call assigns.

An addition that is accepted assigns the weights it comes with.
A call that names an unknown vertex, hyperedge or position assigns nothing.
-/
def apply {V R : Type} [LayoutIndex V] [LayoutIndex R] (ledger : Ledger EW RW IW) :
    WeightCall V R EW RW IW → Ledger EW RW IW
  | .add (.vertex weight) =>
    let added := ledger.added.apply V R (.vertex weight : Addition V EW RW IW)
    let vertex := ledger.added.vertexCount
    if vertex < added.vertexCount then
      { ledger with added, elements := (vertex, weight) :: ledger.elements }
    else ledger
  | .add (.hyperedge sources targets weight) =>
    let added := ledger.added.apply V R (.hyperedge sources targets weight : Addition V EW RW IW)
    let hyperedge := ledger.added.hyperedges.length
    if hyperedge < added.hyperedges.length then
      { added
        elements := ledger.elements
        relations := (hyperedge, weight) :: ledger.relations
        incidences := participants hyperedge .source sources ++
          participants hyperedge .target targets ++ ledger.incidences }
    else ledger
  | .setElement vertex weight =>
    if toNat vertex < ledger.added.vertexCount then
      { ledger with elements := (toNat vertex, weight) :: ledger.elements }
    else ledger
  | .setRelation hyperedge weight =>
    if toNat hyperedge < ledger.added.hyperedges.length then
      { ledger with relations := (toNat hyperedge, weight) :: ledger.relations }
    else ledger
  | .setSource hyperedge position weight =>
    ledger.assign .source (toNat hyperedge) position weight
  | .setTarget hyperedge position weight =>
    ledger.assign .target (toNat hyperedge) position weight

/-- What a sequence of calls assigns. -/
def all {V R : Type} [LayoutIndex V] [LayoutIndex R] (calls : List (WeightCall V R EW RW IW)) :
    Ledger EW RW IW :=
  calls.foldl apply empty

variable {V R O : Type} [LayoutIndex V] [LayoutIndex R] [LayoutIndex O]

/--
A frozen hypergraph stores the latest weights.

The weight of an incidence is the latest that its hyperedge, its role and its vertex were assigned.
-/
structure StoredBy (ledger : Ledger EW RW IW) (graph : FrozenWeightedHypergraph V R O EW RW IW) :
    Prop where
  elements : ∀ vertex, toNat vertex < graph.topology.traits.elementCount →
    ∃ weight, graph.elementWeight vertex = some weight ∧
      ledger.elements.lookup (toNat vertex) = some weight
  relations : ∀ hyperedge, toNat hyperedge < graph.topology.traits.relationCount →
    ∃ weight, graph.relationWeight hyperedge = some weight ∧
      ledger.relations.lookup (toNat hyperedge) = some weight
  incidences : ∀ incidence, toNat incidence < graph.topology.traits.incidenceCount →
    ∃ hyperedge vertex role weight,
      graph.topology.traits.incidenceRelation incidence = some hyperedge ∧
        graph.topology.traits.incidenceElement incidence = some vertex ∧
        graph.topology.traits.incidenceRole incidence = some role ∧
        graph.incidenceWeight incidence = some weight ∧
        ledger.incidences.lookup (toNat hyperedge, role, toNat vertex) = some weight

end Ledger

end Oxgraph.Bcsr
