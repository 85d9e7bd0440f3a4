import Oxgraph.Proofs.Bcsr.Build

/-! What a caller adds to a hypergraph builder, and the answers the added hyperedges define. -/

namespace Oxgraph.Bcsr

open Layout

/-- One call of a builder; the unweighted builder ignores the weights. -/
inductive Addition (V EW RW IW : Type) where
  | vertex (weight : EW)
  | hyperedge (sources targets : List (V × IW)) (weight : RW)

section

variable {V R O EW RW IW : Type} [LayoutIndex V] [LayoutIndex R] [LayoutIndex O]

/-- Makes one call of the unweighted builder, and forgets the ID it returns. -/
def HypergraphBuilder.add (builder : HypergraphBuilder V R O) :
    Addition V EW RW IW → Fallible (HyperBuildError V R) (HypergraphBuilder V R O)
  | .vertex _ => do
    let (_, next) ← builder.addVertex
    return next
  | .hyperedge sources targets _ => do
    let (_, next) ← builder.addHyperedge (sources.map Prod.fst) (targets.map Prod.fst)
    return next

/-- Makes one call of the weighted builder, and forgets the ID it returns. -/
def WeightedHypergraphBuilder.add (builder : WeightedHypergraphBuilder V R O EW RW IW) :
    Addition V EW RW IW →
      Fallible (HyperBuildError V R) (WeightedHypergraphBuilder V R O EW RW IW)
  | .vertex weight => do
    let (_, next) ← builder.addVertex weight
    return next
  | .hyperedge sources targets weight => do
    let (_, next) ← builder.addHyperedge sources targets weight
    return next

end

/-- A side of a hyperedge: known vertices, none of them twice. -/
def Side (vertexCount : Nat) (side : List Nat) : Prop :=
  (∀ vertex ∈ side, vertex < vertexCount) ∧ side.Nodup

instance (vertexCount : Nat) (side : List Nat) : Decidable (Side vertexCount side) :=
  inferInstanceAs (Decidable ((∀ vertex ∈ side, vertex < vertexCount) ∧ side.Nodup))

/-- A side stays one when there are more vertices. -/
theorem Side.mono {vertexCount more : Nat} {side : List Nat} (valid : Side vertexCount side)
    (grown : vertexCount ≤ more) : Side more side :=
  ⟨fun vertex member => Nat.lt_of_lt_of_le (valid.1 vertex member) grown, valid.2⟩

/-- The vertices of a side in ascending order. -/
def Side.sorted {vertexCount : Nat} {side : List Nat} (valid : Side vertexCount side) :
    VertexSet vertexCount where
  vertices := side.mergeSort
  ascending := by
    have ordered : side.mergeSort.Pairwise fun left right => decide (left ≤ right) = true :=
      List.pairwise_mergeSort (by simp only [decide_eq_true_eq]; omega)
        (by simp only [Bool.or_eq_true, decide_eq_true_eq]; omega) side
    -- The sorted vertices are as different from each other as those that were given.
    have apart : side.mergeSort.Nodup := (List.mergeSort_perm side _).nodup_iff.mpr valid.2
    refine ordered.imp₂ (fun left right below different => ?_) apart
    exact Nat.lt_of_le_of_ne (of_decide_eq_true below) different
  below vertex member := valid.1 vertex ((List.mergeSort_perm side _).mem_iff.mp member)

/-- The vertices and hyperedges that were accepted. -/
structure Added where
  vertexCount : Nat
  -- The sources and the targets of each hyperedge, in the order they were given.
  hyperedges : List (List Nat × List Nat)
  sides : ∀ hyperedge ∈ hyperedges,
    Side vertexCount hyperedge.1 ∧ Side vertexCount hyperedge.2

namespace Added

/-- Nothing yet. -/
def empty : Added := { vertexCount := 0, hyperedges := [], sides := by simp }

/-- One vertex more. -/
def withVertex (added : Added) : Added where
  vertexCount := added.vertexCount + 1
  hyperedges := added.hyperedges
  sides hyperedge member :=
    ⟨(added.sides hyperedge member).1.mono (Nat.le_succ _),
      (added.sides hyperedge member).2.mono (Nat.le_succ _)⟩

/-- One hyperedge more. -/
def withHyperedge (added : Added) (sources targets : List Nat)
    (valid : Side added.vertexCount sources ∧ Side added.vertexCount targets) : Added where
  vertexCount := added.vertexCount
  hyperedges := added.hyperedges ++ [(sources, targets)]
  sides hyperedge member := by
    rcases List.mem_append.mp member with before | last
    · exact added.sides hyperedge before
    · rw [List.mem_singleton.mp last]
      exact valid

/--
What one addition leaves.

A vertex needs an ID.
A hyperedge needs an ID, and two sides; one that names an unknown vertex, or a vertex twice on a
side, adds nothing.
-/
def apply (V R : Type) [LayoutIndex V] [LayoutIndex R] {EW RW IW : Type} (added : Added) :
    Addition V EW RW IW → Added
  | .vertex _ =>
    if added.vertexCount < LayoutIndex.bound V ∧ added.vertexCount + 1 < usizeBound then
      added.withVertex
    else added
  | .hyperedge sources targets _ =>
    let sources := sources.map fun participant => toNat participant.1
    let targets := targets.map fun participant => toNat participant.1
    if valid : Side added.vertexCount sources ∧ Side added.vertexCount targets then
      if added.hyperedges.length < LayoutIndex.bound R then
        added.withHyperedge sources targets valid
      else added
    else added

/-- What a sequence of additions leaves. -/
def all (V R : Type) [LayoutIndex V] [LayoutIndex R] {EW RW IW : Type}
    (additions : List (Addition V EW RW IW)) : Added :=
  additions.foldl (apply V R) empty

/-- The directed hypergraph of what was added, each side in ascending order. -/
def graph (added : Added) : Hypergraph where
  vertexCount := added.vertexCount
  hyperedges := added.hyperedges.attach.map fun hyperedge =>
    ⟨(added.sides hyperedge.1 hyperedge.2).1.sorted, (added.sides hyperedge.1 hyperedge.2).2.sorted⟩

/-- The number of participants of both sides of all hyperedges. -/
def participantCount (added : Added) : Nat :=
  (added.hyperedges.map fun hyperedge => hyperedge.1.length + hyperedge.2.length).sum

/-- The hypergraph has the hyperedges that were added. -/
theorem length_graph (added : Added) : added.graph.hyperedges.length = added.hyperedges.length := by
  unfold graph
  simp only [List.length_map, List.length_attach]

/-- The head sets are the sorted sources. -/
theorem heads_graph (added : Added) :
    added.graph.heads = added.hyperedges.map fun hyperedge => hyperedge.1.mergeSort := by
  unfold Hypergraph.heads graph
  rw [List.map_map]
  exact @List.attach_map_val _ _ added.hyperedges fun hyperedge => hyperedge.1.mergeSort

/-- The tail sets are the sorted targets. -/
theorem tails_graph (added : Added) :
    added.graph.tails = added.hyperedges.map fun hyperedge => hyperedge.2.mergeSort := by
  unfold Hypergraph.tails graph
  rw [List.map_map]
  exact @List.attach_map_val _ _ added.hyperedges fun hyperedge => hyperedge.2.mergeSort

end Added

namespace Hypergraph

variable (graph : Hypergraph)

/-- The head vertices of a hyperedge, ascending. -/
def headOf (hyperedge : Nat) : List Nat := graph.heads.getD hyperedge []

/-- The tail vertices of a hyperedge, ascending. -/
def tailOf (hyperedge : Nat) : List Nat := graph.tails.getD hyperedge []

/-- The hyperedges a vertex is a head of, ascending. -/
def outgoingOf (vertex : Nat) : List Nat := occurrences graph.heads vertex

/-- The hyperedges a vertex is a tail of, ascending. -/
def incomingOf (vertex : Nat) : List Nat := occurrences graph.tails vertex

/-- The number of incidences: one for each participant, the heads first. -/
def incidenceCount : Nat := graph.heads.flatten.length + graph.tails.flatten.length

/-- The first incidence of a hyperedge's head, after those of the heads before. -/
def headStart (hyperedge : Nat) : Nat := (graph.heads.take hyperedge).flatten.length

/-- The first incidence of a hyperedge's tail, after all heads and the tails before. -/
def tailStart (hyperedge : Nat) : Nat :=
  graph.heads.flatten.length + (graph.tails.take hyperedge).flatten.length

/-- The incidences of a hyperedge's head, in the order of the vertices. -/
def headIncidences (hyperedge : Nat) : List Nat :=
  List.range' (graph.headStart hyperedge) (graph.headOf hyperedge).length

/-- The incidences of a hyperedge's tail, in the order of the vertices. -/
def tailIncidences (hyperedge : Nat) : List Nat :=
  List.range' (graph.tailStart hyperedge) (graph.tailOf hyperedge).length

/-- The incidences of a vertex: in the heads it is in, then in the tails. -/
def incidencesOfVertex (vertex : Nat) : List Nat :=
  ((graph.outgoingOf vertex).map fun hyperedge =>
      graph.headStart hyperedge + (graph.headOf hyperedge).idxOf vertex) ++
    (graph.incomingOf vertex).map fun hyperedge =>
      graph.tailStart hyperedge + (graph.tailOf hyperedge).idxOf vertex

variable {V R O : Type} [LayoutIndex V] [LayoutIndex R] [LayoutIndex O]

/-- Every method answers, for every valid ID, what the head and tail sets define. -/
structure AnsweredBy (traits : HyperTraits V R O HyperParticipantRole) : Prop where
  elementCount : traits.elementCount = graph.vertexCount
  relationCount : traits.relationCount = graph.hyperedges.length
  incidenceCount : traits.incidenceCount = graph.incidenceCount
  elementBound : traits.elementBound = graph.vertexCount
  relationBound : traits.relationBound = graph.hyperedges.length
  incidenceBound : traits.incidenceBound = graph.incidenceCount
  elementIndex : ∀ vertex, traits.elementIndex vertex = some (toNat vertex)
  relationIndex : ∀ hyperedge, traits.relationIndex hyperedge = some (toNat hyperedge)
  incidenceIndex : ∀ incidence, traits.incidenceIndex incidence = some (toNat incidence)
  containsElement : ∀ vertex,
    traits.containsElement vertex = some (decide (toNat vertex < graph.vertexCount))
  containsRelation : ∀ hyperedge,
    traits.containsRelation hyperedge = some (decide (toNat hyperedge < graph.hyperedges.length))
  containsIncidence : ∀ incidence,
    traits.containsIncidence incidence = some (decide (toNat incidence < graph.incidenceCount))
  -- Hyperedges.
  sourceParticipants : ∀ hyperedge, toNat hyperedge < graph.hyperedges.length →
    (traits.sourceParticipants hyperedge).map (·.map toNat) = some (graph.headOf (toNat hyperedge))
  targetParticipants : ∀ hyperedge, toNat hyperedge < graph.hyperedges.length →
    (traits.targetParticipants hyperedge).map (·.map toNat) = some (graph.tailOf (toNat hyperedge))
  hyperedgeParticipants : ∀ hyperedge, toNat hyperedge < graph.hyperedges.length →
    (traits.hyperedgeParticipants hyperedge).map (·.map toNat) =
      some (graph.headOf (toNat hyperedge) ++ graph.tailOf (toNat hyperedge))
  sourceIncidences : ∀ hyperedge, toNat hyperedge < graph.hyperedges.length →
    (traits.sourceIncidences hyperedge).map (·.map toNat) =
      some (graph.headIncidences (toNat hyperedge))
  targetIncidences : ∀ hyperedge, toNat hyperedge < graph.hyperedges.length →
    (traits.targetIncidences hyperedge).map (·.map toNat) =
      some (graph.tailIncidences (toNat hyperedge))
  relationIncidences : ∀ hyperedge, toNat hyperedge < graph.hyperedges.length →
    (traits.relationIncidences hyperedge).map (·.map toNat) =
      some (graph.headIncidences (toNat hyperedge) ++ graph.tailIncidences (toNat hyperedge))
  relationIncidenceCount : ∀ hyperedge, toNat hyperedge < graph.hyperedges.length →
    traits.relationIncidenceCount hyperedge =
      some ((graph.headOf (toNat hyperedge)).length + (graph.tailOf (toNat hyperedge)).length)
  -- Vertices.
  outgoingHyperedges : ∀ vertex, toNat vertex < graph.vertexCount →
    (traits.outgoingHyperedges vertex).map (·.map toNat) = some (graph.outgoingOf (toNat vertex))
  incomingHyperedges : ∀ vertex, toNat vertex < graph.vertexCount →
    (traits.incomingHyperedges vertex).map (·.map toNat) = some (graph.incomingOf (toNat vertex))
  incidentHyperedges : ∀ vertex, toNat vertex < graph.vertexCount →
    (traits.incidentHyperedges vertex).map (·.map toNat) =
      some (graph.outgoingOf (toNat vertex) ++ graph.incomingOf (toNat vertex))
  elementSuccessors : ∀ vertex, toNat vertex < graph.vertexCount →
    (traits.elementSuccessors vertex).map (·.map toNat) =
      some ((graph.outgoingOf (toNat vertex)).flatMap graph.tailOf)
  elementPredecessors : ∀ vertex, toNat vertex < graph.vertexCount →
    (traits.elementPredecessors vertex).map (·.map toNat) =
      some ((graph.incomingOf (toNat vertex)).flatMap graph.headOf)
  elementIncidences : ∀ vertex, toNat vertex < graph.vertexCount →
    (traits.elementIncidences vertex).map (·.map toNat) =
      some (graph.incidencesOfVertex (toNat vertex))
  elementIncidenceCount : ∀ vertex, toNat vertex < graph.vertexCount →
    traits.elementIncidenceCount vertex =
      some ((graph.outgoingOf (toNat vertex)).length + (graph.incomingOf (toNat vertex)).length)
  -- Incidences.
  incidenceElement : ∀ incidence, toNat incidence < graph.incidenceCount →
    (traits.incidenceElement incidence).map toNat =
      (graph.heads.flatten ++ graph.tails.flatten)[toNat incidence]?
  incidenceRelation : ∀ incidence, toNat incidence < graph.incidenceCount →
    ∃ hyperedge < graph.hyperedges.length,
      (traits.incidenceRelation incidence).map toNat = some hyperedge ∧
        (toNat incidence ∈ graph.headIncidences hyperedge ∨
          toNat incidence ∈ graph.tailIncidences hyperedge)
  incidenceRole : ∀ incidence, toNat incidence < graph.incidenceCount →
    traits.incidenceRole incidence =
      some (if toNat incidence < graph.heads.flatten.length then .source else .target)

end Hypergraph

section

variable {V R O : Type} {S G EW RW IW : Type}

/-- A builder in a state where it holds what was added, with its next call and what it freezes. -/
structure Added.FreezesAs [LayoutIndex V] [LayoutIndex R] [LayoutIndex O] (added : Added)
    (add : Addition V EW RW IW → Fallible (HyperBuildError V R) S)
    (freeze : Fallible (HyperBuildError V R) G) (topology : G → FrozenTopology V R O) : Prop where
  -- A hyperedge that names an unknown vertex, or a vertex twice on a side, is refused.
  refuses : ∀ sources targets weight,
    ¬ (Side added.vertexCount (sources.map fun participant => toNat participant.1) ∧
      Side added.vertexCount (targets.map fun participant => toNat participant.1)) →
    ∃ error, add (.hyperedge sources targets weight) = throw error
  neverFails : ∀ error, freeze ≠ throw error
  returns : added.vertexCount ≤ sliceBound vecBytes → ∃ graph, freeze = pure graph
  answers : ∀ graph, freeze = pure graph → added.graph.AnsweredBy (topology graph).traits
  lends : ∀ graph, freeze = pure graph → (topology graph).traits =
    (topology graph).asView.traits.mapRole BcsrRole.participantRole

end

end Oxgraph.Bcsr
