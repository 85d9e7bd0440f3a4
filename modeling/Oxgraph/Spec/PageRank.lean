import Mathlib.Algebra.BigOperators.Group.List.Basic
import Mathlib.Algebra.Order.Field.Basic
import Oxgraph.Algo.PageRank

/-! What power iterations are to show: ranks that are distributions, and moves that shrink. -/

namespace Oxgraph

namespace PageRank

variable {S P : Type} [Field S] [LinearOrder S]

-- What a run accepts.

/-- The arithmetic is exact: everything is finite, and counts are converted as they are. -/
structure Exact (scalar : PageRankScalar S) : Prop where
  finite : ∀ value, scalar.isFinite value = true
  count : ∀ value : Nat, scalar.fromUsize value = value

/-- What a state has before the values are normalized. -/
def startValue (personalization : Option (List S)) (state : Nat) : S :=
  match personalization with
  | none => 1
  | some input => input.getD state 0

/-- Values that cover the states, are not negative, and do not add up to nothing. -/
structure Personalizes (personalization : Option (List S)) (bound : Nat) (visible : List Nat) :
    Prop where
  covers : ∀ input, personalization = some input → bound ≤ input.length
  nonneg : ∀ state ∈ visible, 0 ≤ startValue personalization state
  positive : 0 < (visible.map (startValue personalization)).sum

/-- Visible states, each once, with indexes in bound for them and for what they lead to. -/
structure GraphLists {V E : Type} (graph : ForwardGraph V E) (elements : List V) : Prop where
  nodup : (elements.map graph.elementIndex).Nodup
  inBound : ∀ element ∈ elements, graph.elementIndex element < graph.elementBound
  targets : ∀ element ∈ elements, ∀ edge ∈ graph.outgoingEdges element,
    graph.elementIndex (graph.target edge) < graph.elementBound

/-- Weights that have indexes and are not negative. -/
def GraphWeighs {V E : Type} (graph : ForwardGraph V E) (elements : List V) :
    OutgoingDistribution E S → Prop
  | .uniform => True
  | .weighted weights => ∀ element ∈ elements, ∀ edge ∈ graph.outgoingEdges element,
      graph.relationIndex edge < graph.relationBound ∧ 0 ≤ weights edge

/-- Buffers that are long enough. -/
structure GraphFits (buffers : PageRankBuffers S) (bound : Nat) : Prop where
  teleport : bound ≤ buffers.teleport.length
  next : bound ≤ buffers.next.length
  visible : bound ≤ buffers.visibleElements.length
  ranks : bound ≤ buffers.ranks.length

/-- Visible states of both families, as for graphs; all states have numbers. -/
structure HypergraphLists {V R I : Type} (hypergraph : PageRankHypergraph V R I)
    (elements : List V) (relations : List R) : Prop where
  distinctElements : (elements.map hypergraph.elementIndex).Nodup
  distinctRelations : (relations.map hypergraph.relationIndex).Nodup
  elementBound : ∀ element ∈ elements, hypergraph.elementIndex element < hypergraph.elementBound
  relationBound : ∀ relation ∈ relations,
    hypergraph.relationIndex relation < hypergraph.relationBound
  hyperedges : ∀ element ∈ elements, ∀ relation ∈ hypergraph.outgoingHyperedges element,
    hypergraph.relationIndex relation < hypergraph.relationBound
  targets : ∀ relation ∈ relations, ∀ incidence ∈ hypergraph.targetIncidences relation,
    hypergraph.elementIndex (hypergraph.incidenceElement incidence) < hypergraph.elementBound
  -- The length of the teleport scratch is a usize.
  small : hypergraph.elementBound + hypergraph.relationBound < usizeBound

/-- Weights of both legs that have indexes and are not negative. -/
def HypergraphWeighs {V R I : Type} (hypergraph : PageRankHypergraph V R I) (elements : List V)
    (relations : List R) : HypergraphOutgoingDistribution R I S → Prop
  | .uniform => True
  | .weighted relationWeights incidenceWeights =>
    (∀ element ∈ elements, ∀ relation ∈ hypergraph.outgoingHyperedges element,
      0 ≤ relationWeights relation) ∧
    ∀ relation ∈ relations, ∀ incidence ∈ hypergraph.targetIncidences relation,
      hypergraph.incidenceIndex incidence < hypergraph.incidenceBound ∧
        0 ≤ incidenceWeights incidence

/-- Buffers of a hypergraph that are long enough. -/
structure HypergraphFits (buffers : HypergraphPageRankBuffers S)
    (elementBound relationBound : Nat) : Prop where
  teleport : elementBound + relationBound ≤ buffers.teleport.length
  nextElements : elementBound ≤ buffers.nextElements.length
  nextRelations : relationBound ≤ buffers.nextRelations.length
  visibleElements : elementBound ≤ buffers.visibleElements.length
  visibleRelations : relationBound ≤ buffers.visibleRelations.length
  elementRanks : elementBound ≤ buffers.elementRanks.length
  relationRanks : relationBound ≤ buffers.relationRanks.length

/-- The visible states of a hypergraph by their combined indexes. -/
def hypergraphStates {V R I : Type} (hypergraph : PageRankHypergraph V R I) (elements : List V)
    (relations : List R) : List Nat :=
  elements.map hypergraph.elementIndex ++
    relations.map fun relation => hypergraph.elementBound + hypergraph.relationIndex relation

/-- The rank of a state by its combined index. -/
def combinedRank (elementBound : Nat) (buffers : HypergraphPageRankBuffers S) (state : Nat) :
    Option S :=
  if state < elementBound then buffers.elementRanks[state]?
  else buffers.relationRanks[state - elementBound]?

-- What the iterations show.

/-- The distances that so many rounds report. -/
def deltas (round : Mutation (PageRankHalt S) P S) : Nat → Mutation (PageRankHalt S) P (List S)
  | 0 => return []
  | count + 1 => do
    let earlier ← deltas round count
    let delta ← round
    return earlier ++ [delta]

/--
Ranks of states after so many iterations, and how far each iteration moves them.

They are distributions over the visible states, and each move is at most the damped one before.
-/
structure Contracts (damping : S) (visible : List Nat) (ranks : Nat → Nat → S)
    (delta : Nat → S) : Prop where
  nonneg : ∀ count state, 0 ≤ ranks count state
  hidden : ∀ count state, state ∉ visible → ranks count state = 0
  total : ∀ count, (visible.map (ranks count)).sum = 1
  moves : ∀ count, delta count =
    (visible.map fun state => |ranks (count + 1) state - ranks count state|).sum
  shrinks : ∀ count, delta (count + 1) ≤ damping * delta count

/-- The outcome of a loop over moves, and the number of its iterations. -/
inductive Reports (config : PageRankConfig S) (delta : Nat → S) :
    Except (PageRankHalt S) (PageRankReport S) → Nat → Prop
  | converged (count : Nat) (within : count < config.maxIterations)
      (before : ∀ earlier < count, config.tolerance < delta earlier)
      (close : delta count ≤ config.tolerance) :
      Reports config delta (.ok { iterations := count + 1, delta := delta count }) (count + 1)
  | exhausted (before : ∀ earlier < config.maxIterations, config.tolerance < delta earlier) :
      Reports config delta
        (.error (.error (.nonConverged config.maxIterations (delta (config.maxIterations - 1)))))
        config.maxIterations

/-- From some buffers, a start and so many rounds show ranks, and the loop an outcome. -/
structure Shows (start : Mutation (PageRankHalt S) P Unit) (round : Mutation (PageRankHalt S) P S)
    (run : Mutation (PageRankHalt S) P (PageRankReport S)) (rank : P → Nat → Option S)
    (bound : Nat) (ranks : Nat → Nat → S) (delta : Nat → S)
    (outcome : Except (PageRankHalt S) (PageRankReport S)) (last : Nat) (buffers : P) : Prop where
  rounds : ∀ count, ∃ after,
    (start >>= fun _ => deltas round count) buffers = (.ok ((List.range count).map delta), after) ∧
      ∀ state < bound, rank after state = some (ranks count state)
  run : ∃ after, run buffers = (outcome, after) ∧
    ∀ state < bound, rank after state = some (ranks last state)

end PageRank

end Oxgraph
