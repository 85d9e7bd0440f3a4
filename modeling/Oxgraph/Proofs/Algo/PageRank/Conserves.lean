import Mathlib.Algebra.Order.Field.Rat
import Oxgraph.Proofs.Algo.PageRank.Graph
import Oxgraph.Proofs.Algo.PageRank.Hypergraph

/-! Ranks are distributions whose moves shrink, however states are listed. -/

namespace Oxgraph

open PageRank

variable {S : Type} [Field S] [LinearOrder S] [IsStrictOrderedRing S]

/--
PageRank conserves mass and contracts, over graphs and over directed hypergraphs.

One sequence of ranks, of moves and one outcome answer for every listing and all buffers.
-/
theorem pagerank_conserves_and_contracts {scalar : PageRankScalar S} (exact_ : Exact scalar)
    {config : PageRankConfig S} (configured : validateConfig scalar config = .ok ()) :
    (∀ {V E : Type} (graph : ForwardGraph V E) (distribution : OutgoingDistribution E S)
      (elements : List V) (personalization : Option (List S)),
      GraphLists graph elements → GraphWeighs graph elements distribution →
      Personalizes personalization graph.elementBound (elements.map graph.elementIndex) →
      ∃ ranks delta outcome last,
        Contracts config.damping (elements.map graph.elementIndex) ranks delta ∧
        Reports config delta outcome last ∧
        ∀ listing buffers, listing.Perm elements → GraphFits buffers graph.elementBound →
          Shows (startGraph scalar graph listing config personalization)
            (roundGraph scalar graph distribution listing config)
            (pagerankGraphWithScratch scalar graph distribution listing config personalization)
            (fun buffers state => buffers.ranks[state]?) graph.elementBound ranks delta outcome
            last buffers) ∧
    (∀ {V R I : Type} (hypergraph : PageRankHypergraph V R I)
      (distribution : HypergraphOutgoingDistribution R I S) (elements : List V)
      (relations : List R) (personalization : Option (List S)),
      HypergraphLists hypergraph elements relations →
      HypergraphWeighs hypergraph elements relations distribution →
      Personalizes personalization (hypergraph.elementBound + hypergraph.relationBound)
        (hypergraphStates hypergraph elements relations) →
      ∃ ranks delta outcome last,
        Contracts config.damping (hypergraphStates hypergraph elements relations) ranks delta ∧
        Reports config delta outcome last ∧
        ∀ listed following buffers, listed.Perm elements → following.Perm relations →
          HypergraphFits buffers hypergraph.elementBound hypergraph.relationBound →
          Shows (startHypergraph scalar hypergraph listed following config personalization)
            (roundHypergraph scalar hypergraph distribution listed following config)
            (pagerankHypergraphWithScratch scalar hypergraph distribution listed following config
              personalization)
            (combinedRank hypergraph.elementBound)
            (hypergraph.elementBound + hypergraph.relationBound) ranks delta outcome last
            buffers) := by
  classical
  obtain ⟨some, most, _⟩ := of_validateConfig configured
  constructor
  · intro V E graph distribution elements personalization lists weighs accepted
    -- The ranks are the masses of the walk, and the moves are their distances.
    have contracts := contracts_of_stochastic lists.nodup
      (graphWalk_stochastic lists weighs accepted) some most
    obtain ⟨outcome, last, reports⟩ := exists_reports config fun count =>
      RestartWalk.distance elements.toFinset
        ((graphWalk graph distribution elements personalization).masses elements.toFinset
          config.damping (count + 1))
        ((graphWalk graph distribution elements personalization).masses elements.toFinset
          config.damping count)
    refine ⟨_, _, outcome, last, contracts, reports, ?_⟩
    intro listing buffers same fits
    exact graph_shows lists weighs accepted exact_ configured reports same fits
  · intro V R I hypergraph distribution elements relations personalization lists weighs accepted
    have contracts := contracts_of_stochastic (distinct_states lists)
      (hypergraphWalk_stochastic lists weighs accepted) some most
    rw [map_bothFamilies] at contracts
    obtain ⟨outcome, last, reports⟩ := exists_reports config fun count =>
      RestartWalk.distance (bothFamilies elements relations).toFinset
        ((hypergraphWalk hypergraph distribution elements relations personalization).masses
          (bothFamilies elements relations).toFinset config.damping (count + 1))
        ((hypergraphWalk hypergraph distribution elements relations personalization).masses
          (bothFamilies elements relations).toFinset config.damping count)
    refine ⟨_, _, outcome, last, contracts, reports, ?_⟩
    intro listed following buffers first second fits
    exact hypergraph_shows lists weighs accepted exact_ configured reports first second fits

/-- Exact ranks. -/
def PageRank.rationals : PageRankScalar ℚ where
  infinity := 2
  fromUsize count := count
  isFinite _ := true

/-- Three iterations at most, each of which moves half as much as the one before. -/
def PageRank.halving : PageRankConfig ℚ := { damping := 1 / 2, tolerance := 0, maxIterations := 3 }

/-- An element with two edges to another, which has none. -/
def PageRank.arrows : ForwardGraph Nat Nat where
  elementBound := 3
  elementIndex element := element
  relationBound := 2
  relationIndex edge := edge
  outgoingEdges element := if element = 0 then [0, 1] else []
  target _ := 2

/-- An element with a hyperedge to another element, which has none. -/
def PageRank.hyperarrow : PageRankHypergraph Nat Nat Nat where
  elementBound := 2
  elementIndex element := element
  relationBound := 1
  relationIndex relation := relation
  incidenceBound := 1
  incidenceIndex incidence := incidence
  outgoingHyperedges element := if element = 0 then [0] else []
  targetIncidences _ := [0]
  incidenceElement _ := 1

/-- Weighted ranks over the arrows, and even ones from values over the hyperarrow. -/
theorem pagerank_conserves_and_contracts_arrows :
    (∃ ranks delta outcome last, Contracts (1 / 2 : ℚ) [0, 2] ranks delta ∧
      Reports halving delta outcome last ∧
      ∀ listing buffers, listing.Perm [0, 2] → GraphFits buffers 3 →
        Shows (startGraph rationals arrows listing halving none)
          (roundGraph rationals arrows (.weighted fun edge => edge) listing halving)
          (pagerankGraphWithScratch rationals arrows (.weighted fun edge => edge) listing halving
            none)
          (fun buffers state => buffers.ranks[state]?) 3 ranks delta outcome last buffers) ∧
    ∃ ranks delta outcome last, Contracts (1 / 2 : ℚ) [0, 1, 2] ranks delta ∧
      Reports halving delta outcome last ∧
      ∀ listed following buffers, listed.Perm [0, 1] → following.Perm [0] →
        HypergraphFits buffers 2 1 →
        Shows (startHypergraph rationals hyperarrow listed following halving (some [3, 0, 1]))
          (roundHypergraph rationals hyperarrow .uniform listed following halving)
          (pagerankHypergraphWithScratch rationals hyperarrow .uniform listed following halving
            (some [3, 0, 1]))
          (combinedRank 2) 3 ranks delta outcome last buffers := by
  -- Every hypothesis is decided, except for sums of rationals.
  have exact_ : Exact rationals := ⟨fun _ => rfl, fun _ => rfl⟩
  have configured : validateConfig rationals halving = .ok () := by
    norm_num [validateConfig, rationals, halving]
  obtain ⟨graphs, hypergraphs⟩ := pagerank_conserves_and_contracts exact_ configured
  constructor
  · have indexed : ∀ element ∈ [0, 2], ∀ edge ∈ arrows.outgoingEdges element,
        arrows.relationIndex edge < arrows.relationBound := by decide
    refine graphs arrows (.weighted fun edge => edge) [0, 2] none
      ⟨by decide, by decide, by decide⟩ ?_ ⟨nofun, by decide, ?_⟩
    · exact fun element inside edge member => ⟨indexed element inside edge member, edge.cast_nonneg⟩
    · norm_num [startValue]
  · have covers : ∀ input, some [(3 : ℚ), 0, 1] = some input → 3 ≤ input.length := by
      rintro _ ⟨⟩
      decide
    refine hypergraphs hyperarrow .uniform [0, 1] [0] (some [3, 0, 1])
      ⟨by decide, by decide, by decide, by decide, by decide, by decide, by decide⟩ trivial
      ⟨covers, by decide, ?_⟩
    norm_num [startValue, hypergraphStates, hyperarrow]

end Oxgraph
