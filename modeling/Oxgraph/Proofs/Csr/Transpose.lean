import Oxgraph.Proofs.Csr.Frozen
import Oxgraph.Spec.Digraph

/-! Transposing a frozen graph exchanges the ends of its edges, and doing it twice is nothing. -/

namespace Oxgraph.Csr

open Layout

variable {N E : Type} [LayoutIndex N] [LayoutIndex E]

namespace Digraph

/-- The converse of the converse is the multigraph. -/
@[simp] theorem converse_converse (graph : Digraph) : graph.converse.converse = graph := by
  have edges : (graph.edges.map Prod.swap).map Prod.swap = graph.edges := by
    rw [List.map_map, Prod.swap_swap_eq, List.map_id]
  cases graph
  simp only [converse, Digraph.mk.injEq, true_and]
  exact edges

theorem source_converse (graph : Digraph) (edge : Nat) :
    graph.converse.source edge = graph.target edge := by
  rw [source, converse, List.getElem?_map, Option.map_map]
  rfl

theorem target_converse (graph : Digraph) (edge : Nat) :
    graph.converse.target edge = graph.source edge := by
  rw [target, converse, List.getElem?_map, Option.map_map]
  rfl

@[simp] theorem length_edges_converse (graph : Digraph) :
    graph.converse.edges.length = graph.edges.length :=
  List.length_map _

/-- A multigraph has one grouped topology. -/
theorem GroupedBy.unique {graph : Digraph} {topology other : FrozenTopology N E}
    (grouped : graph.GroupedBy topology) (again : graph.GroupedBy other) : topology = other := by
  have nodes := grouped.nodes.trans again.nodes.symm
  have offsets := map_toNat_injective (grouped.edges.offsets.trans again.edges.offsets.symm)
  have edgeIds := map_toNat_injective (grouped.edges.values.trans again.edges.values.symm)
  have targets := map_toNat_injective (grouped.targets.values.trans again.targets.values.symm)
  have sources := map_toNat_injective (grouped.sources.trans again.sources.symm)
  have edgeTargets := map_toNat_injective (grouped.edgeTargets.trans again.edgeTargets.symm)
  cases topology
  cases other
  simp only [FrozenTopology.mk.injEq]
  exact ⟨nodes, offsets, edgeIds, targets, sources, edgeTargets⟩

end Digraph

/-- A graph whose topology groups a multigraph that memory and the edge width can hold. -/
structure FrozenGraph.Groups (graph : FrozenGraph N E) (edges : Digraph) : Prop where
  memory : edges.nodeCount + 1 ≤ sliceBound usizeBytes
  inMemory : edges.edges.length ≤ sliceBound (LayoutIndex.bytes N)
  fits : edges.edges.length < LayoutIndex.bound E
  numbered : edges.edges.length ≤ sliceBound (LayoutIndex.bytes E)
  grouped : edges.GroupedBy graph.topology

namespace FrozenGraph

variable {graph turned : FrozenGraph N E} {edges : Digraph}

/-- Transposing a graph groups the converse of its edges. -/
theorem Groups.transpose (groups : graph.Groups edges) :
    ∃ turned, graph.transpose = pure turned ∧ turned.Groups edges.converse := by
  have recorded := groups.grouped.recorded_converse groups.inMemory
  have fits : edges.converse.edges.length < LayoutIndex.bound E := by
    rw [Digraph.length_edges_converse]
    exact groups.fits
  have memory : graph.topology.nodeCount + 1 ≤ sliceBound usizeBytes := by
    rw [groups.grouped.nodes]
    exact groups.memory
  have numbered : edges.converse.edges.length ≤ sliceBound (LayoutIndex.bytes E) := by
    rw [Digraph.length_edges_converse]
    exact groups.numbered
  refine ⟨⟨groupedTopology graph.topology.nodeCount graph.topology.edgeTargets
    graph.topology.sources⟩, ?_, ?_⟩
  · unfold FrozenGraph.transpose
    rw [recorded.freezeTopology_eq memory fits numbered]
    rfl
  · refine ⟨groups.memory, ?_, fits, numbered, recorded.groupedBy fits⟩
    rw [Digraph.length_edges_converse]
    exact groups.inMemory

/-- What a builder freezes, and what transposing makes of it, groups some multigraph. -/
theorem Made.groups (made : graph.Made) : ∃ edges, graph.Groups edges := by
  induction made with
  | @frozen additions builder graph ran built =>
    have recorded := GraphBuilder.keeps.runAll recorded_empty ran
    obtain ⟨topology, froze, same⟩ := Fallible.bind_eq_pure.mp built
    rw [← Fallible.pure_eq_pure.mp same]
    obtain ⟨memory, fits, numbered, grouped⟩ := recorded.grouped_of_freeze froze
    refine ⟨_, memory, ?_, fits, numbered, grouped⟩
    rw [recorded.length_edges]
    exact recorded.inMemory
  | @transposed graph turned made returned ih =>
    obtain ⟨edges, groups⟩ := ih
    obtain ⟨other, same, turnedGroups⟩ := groups.transpose
    rw [Fallible.pure_eq_pure.mp (returned.symm.trans same)]
    exact ⟨edges.converse, turnedGroups⟩

/-- The ends of each edge change places. -/
theorem Groups.turns (groups : graph.Groups edges) (converse : turned.Groups edges.converse) :
    graph.Turns turned := by
  have slot {left right : Option N} (same : left.map toNat = right.map toNat) : left = right :=
    Option.map_injective (fun _ _ => toNat_injective) same
  have source (edge : E) : turned.topology.source edge = graph.topology.target edge := by
    apply slot
    rw [converse.grouped.source_eq, groups.grouped.target_eq, Digraph.source_converse]
  have target (edge : E) : turned.topology.target edge = graph.topology.source edge := by
    apply slot
    rw [converse.grouped.target_eq, groups.grouped.source_eq, Digraph.target_converse]
  refine ⟨converse.grouped.nodes.trans groups.grouped.nodes.symm, ?_, source, target⟩
  intro node inside
  have valid : toNat node < edges.converse.nodeCount := by
    rwa [groups.grouped.nodes] at inside
  -- The canonical IDs of the edges are their numbers, all of which the width has.
  have carried {edge : Nat} (member : edge ∈ edges.converse.outgoing (toNat node)) :
      toNat (LayoutIndex.ofNat edge : E) = edge :=
    LayoutIndex.toNat_ofNat edge (Nat.lt_trans (Digraph.lt_of_mem_outgoing member) converse.fits)
  have numbers : ((edges.converse.outgoing (toNat node)).map (LayoutIndex.ofNat : Nat → E)).map
      toNat = edges.converse.outgoing (toNat node) := by
    rw [List.map_map]
    exact (List.map_congr_left fun edge member => carried member).trans (List.map_id _)
  have answered := (converse.grouped.answeredBy converse.fits).elementSuccessors node valid
  obtain ⟨successors, listed, same⟩ := Option.map_eq_some_iff.mp answered
  refine ⟨_, successors, converse.grouped.outgoingEdges_eq valid, ?_, ?_, listed, ?_⟩
  · rw [numbers]
    exact List.Pairwise.filter _ List.pairwise_lt_range
  · intro edge
    rw [← source, ← List.mem_map_of_injective (fun _ _ => toNat_injective), numbers,
      Digraph.mem_outgoing, ← converse.grouped.source_eq, Option.map_eq_some_iff]
    constructor
    · rintro ⟨other, located, equal⟩
      rw [located, toNat_injective equal]
    · intro located
      exact ⟨node, located, rfl⟩
  · -- Position by position, a successor is the original source of the edge listed there.
    apply List.map_injective_iff.mpr (fun _ _ => slot)
    rw [List.map_map, List.map_map]
    refine same.trans ?_
    rw [List.map_map]
    refine List.map_congr_left fun edge member => ?_
    show _ = (graph.topology.source (LayoutIndex.ofNat edge)).map toNat
    rw [groups.grouped.source_eq, carried member, Digraph.target_converse]

/-- Transposing twice returns the same arrays. -/
theorem Groups.transpose_transpose (groups : graph.Groups edges)
    (converse : turned.Groups edges.converse) : turned.transpose = pure graph := by
  obtain ⟨again, returned, same⟩ := converse.transpose
  rw [Digraph.converse_converse] at same
  have topology := same.grouped.unique groups.grouped
  cases again
  cases graph
  rw [returned]
  exact congrArg (fun topology => pure (FrozenGraph.mk topology)) topology

end FrozenGraph

/-- A frozen graph turns round: every edge keeps its ID, and turning again restores the arrays. -/
theorem transpose_turns (N E : Type) [LayoutIndex N] [LayoutIndex E] {graph : FrozenGraph N E}
    (made : graph.Made) :
    ∃ turned : FrozenGraph N E, graph.transpose = pure turned ∧ graph.Turns turned ∧
      ∃ again : FrozenGraph N E, turned.transpose = pure again ∧
        again.topology.offsets = graph.topology.offsets ∧
        again.topology.targets = graph.topology.targets ∧
        again.topology.edgeIds = graph.topology.edgeIds := by
  obtain ⟨edges, groups⟩ := made.groups
  obtain ⟨turned, returned, converse⟩ := groups.transpose
  exact ⟨turned, returned, groups.turns converse, graph, groups.transpose_transpose converse,
    rfl, rfl, rfl⟩

/-- Two parallel edges and a loose one, turned round. -/
theorem transpose_turns_parallel :
    ∃ graph turned : FrozenGraph UInt16 UInt16, someBuilder.freeze = pure graph ∧
      graph.transpose = pure turned ∧
        turned.topology.outgoingEdges 1 = some [0, 2] ∧
        turned.topology.elementSuccessors 1 = some [2, 2] ∧ turned.transpose = pure graph := by
  have ran : Fallible.runAll GraphBuilder.add someAdditions .new = some someBuilder := by rfl
  have frozen : someBuilder.freeze = pure
      ⟨⟨3, [0, 1, 1, 3], [1, 0, 2], [2, 1, 1], [2, 0, 2], [1, 2, 1]⟩⟩ := by rfl
  obtain ⟨turned, returned, _⟩ := transpose_turns UInt16 UInt16 (.frozen ran frozen)
  refine ⟨_, turned, frozen, returned, ?_⟩
  have same := Fallible.pure_eq_pure.mp returned
  subst same
  exact ⟨by rfl, by rfl, by rfl⟩

end Oxgraph.Csr
