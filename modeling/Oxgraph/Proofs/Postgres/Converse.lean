import Oxgraph.Proofs.Postgres.Artifact
import Oxgraph.Proofs.Postgres.Engine

/-! Over an artifact that was built, traversals inward are the converse of those outward. -/

namespace Oxgraph.Postgres

open Layout Container Csr
open Fallible (bind_eq_pure throw_ne_pure)

-- Rows.

variable {topology : GraphTopology} {overlay : OverlayState}

/-- A node still joins another exactly when its outgoing row still holds that. -/
theorem stillJoins_iff {source target : UInt32} :
    stillJoins topology.forward overlay source target = true ↔
      target ∈ remainingRow topology overlay .out source := by
  unfold stillJoins remainingRow
  simp only [List.any_eq_true, Bool.and_eq_true, decide_eq_true_eq, List.mem_map, List.mem_filter]
  constructor
  · rintro ⟨edge, listed, visible, ends⟩
    exact ⟨edge, ⟨listed, visible⟩, ends⟩
  · rintro ⟨edge, ⟨listed, visible⟩, ends⟩
    exact ⟨edge, listed, visible, ends⟩

/-- What is left of a row was stored in it. -/
theorem mem_storedRow_of_remaining {source target : UInt32}
    (left : target ∈ remainingRow topology overlay .out source) :
    target ∈ storedRow topology.forward source := by
  obtain ⟨edge, listed, ends⟩ := List.mem_map.mp left
  exact List.mem_map.mpr ⟨edge, (List.mem_filter.mp listed).1, ends⟩

/-- Without edge tombstones all of a row is left. -/
theorem remainingRow_of_none (none : overlay.hasEdgeTombstones = false)
    (direction : TraversalDirection) (node : UInt32) :
    remainingRow topology overlay direction node = storedRow (topology.along direction) node := by
  cases direction with
  | out =>
    unfold remainingRow
    simp only
    rw [List.filter_eq_self.mpr fun edge _ => OverlayState.edgeVisible_of_none none edge]
    rfl
  | «in» =>
    unfold remainingRow
    simp only
    rw [none]
    rfl

section

variable {topology : GraphTopology} (transposed : Transposed topology) (overlay : OverlayState)
  {source target : UInt32} (knownSource : source.toNat < topology.forward.nodeBound)
  (knownTarget : target.toNat < topology.inbound.nodeBound)

include transposed knownSource knownTarget

/-- Tombstones leave the same base edges in both directions. -/
theorem mem_remainingRow : source ∈ remainingRow topology overlay .in target ↔
    target ∈ remainingRow topology overlay .out source := by
  have stored := transposed source target knownSource knownTarget
  cases tombstones : overlay.hasEdgeTombstones with
  | false =>
    rw [remainingRow_of_none tombstones, remainingRow_of_none tombstones]
    exact stored
  | true =>
    have row : remainingRow topology overlay .in target =
        (storedRow topology.inbound target).filter fun pred =>
          stillJoins topology.forward overlay pred target := if_pos tombstones
    rw [row, List.mem_filter, stillJoins_iff]
    -- Parallel edges that are not all tombstoned are still there in both directions.
    constructor
    · intro joined
      exact joined.2
    · intro left
      exact ⟨stored.mpr (mem_storedRow_of_remaining left), left⟩

omit transposed knownSource knownTarget in
/-- An inserted edge is in the row of its source and in that of its target. -/
theorem mem_insertedRow (inserted : List OverlayEdge) (source target : UInt32) :
    source ∈ insertedRow inserted .in target ↔ target ∈ insertedRow inserted .out source := by
  unfold insertedRow
  simp only [List.mem_map, List.mem_filter, decide_eq_true_eq]
  constructor
  · rintro ⟨edge, ⟨listed, ends⟩, starts⟩
    exact ⟨edge, ⟨listed, starts⟩, ends⟩
  · rintro ⟨edge, ⟨listed, starts⟩, ends⟩
    exact ⟨edge, ⟨listed, ends⟩, starts⟩

/-- Under either freshness a node is in the one row exactly when it is in the other. -/
theorem mem_freshRow (freshness : QueryFreshness) :
    source ∈ freshRow topology overlay freshness .in target ↔
      target ∈ freshRow topology overlay freshness .out source := by
  have remaining := mem_remainingRow transposed overlay knownSource knownTarget
  cases freshness with
  | overlayAware =>
    unfold freshRow
    simp only
    rw [List.mem_append, List.mem_append, remaining, mem_insertedRow]
  | baseOnly =>
    unfold freshRow
    simp only
    split
    · exact remaining
    · rw [List.mem_mergeSort, List.mem_mergeSort, List.mem_dedup, List.mem_dedup]
      exact transposed source target knownSource knownTarget

end

-- Traversals.

namespace Engine

/-- A traversal whose limits never stop it lists the nodes that few enough rows lead to. -/
theorem mem_expected {engine : Engine} {direction : TraversalDirection} {seed : UInt32}
    (visible : visibleNode engine.metadata.nodeCount engine.overlay seed = true)
    {limits : TraverseLimits} (resultsFit : engine.metadata.nodeCount.toNat ≤ limits.resultLimit)
    (limitFits : engine.metadata.nodeCount ≤ engine.config.traverseLimit) (node : UInt32) :
    node ∈ engine.expected (engine.referenceRow direction) [seed] limits ↔
      ∃ hops, Hops (engine.referenceRow direction) [seed] hops node ∧
        Listable (limits.maxDepth.map UInt32.toNat) hops := by
  have seeds : [seed].filter (visibleNode engine.metadata.nodeCount engine.overlay) = [seed] :=
    List.filter_eq_self.mpr fun other member => List.mem_singleton.mp member ▸ visible
  let nodes := listing (engine.referenceRow direction) (limits.maxDepth.map UInt32.toNat) [seed]
    engine.metadata.nodeCount.toNat
  -- Only visible nodes are listed, so there are no more than the node count.
  have inRange : ∀ entry ∈ nodes, entry.1 < engine.metadata.nodeCount := by
    intro entry member
    have inside := @hops_closed UInt32 _ _
      (fun node => visibleNode engine.metadata.nodeCount engine.overlay node = true)
      (fun other member => List.mem_singleton.mp member ▸ visible)
      (fun _ _ next inRow => (List.mem_filter.mp inRow).2) _ _ (hops_of_mem member).1
    exact of_decide_eq_true (Bool.and_eq_true_iff.mp inside).1
  have few : nodes.length ≤ engine.metadata.nodeCount.toNat := by
    have distinct : ((nodes.map Prod.fst).map UInt32.toNat).Nodup :=
      (nodup_listing _).map fun _ _ same => UInt32.toNat_inj.mp same
    have below : (nodes.map Prod.fst).map UInt32.toNat ⊆
        List.range engine.metadata.nodeCount.toNat := by
      intro slot member
      obtain ⟨node, listed, rfl⟩ := List.mem_map.mp member
      obtain ⟨entry, inNodes, rfl⟩ := List.mem_map.mp listed
      exact List.mem_range.mpr (inRange entry inNodes)
    have counted := (List.subperm_of_subset distinct below).length_le
    rwa [List.length_map, List.length_map, List.length_range] at counted
  have whole : engine.expected (engine.referenceRow direction) [seed] limits =
      nodes.map Prod.fst := by
    unfold expected discovery
    rw [seeds]
    refine List.take_of_length_le ?_
    rw [List.length_map]
    exact Nat.le_trans few (Nat.le_min.mpr ⟨resultsFit, limitFits⟩)
  rw [whole]
  exact mem_listing_iff (List.getElem?_eq_none few)

/-- The rows of a transposed topology lead back and forth between visible nodes. -/
theorem mem_referenceRow {engine : Engine} (consistent : engine.Consistent)
    (transposed : Transposed engine.topology) {source target : UInt32}
    (visibleSource : visibleNode engine.metadata.nodeCount engine.overlay source = true)
    (visibleTarget : visibleNode engine.metadata.nodeCount engine.overlay target = true) :
    source ∈ engine.referenceRow .in target ↔ target ∈ engine.referenceRow .out source := by
  have known {node : UInt32}
      (visible : visibleNode engine.metadata.nodeCount engine.overlay node = true) :
      node.toNat < engine.metadata.nodeCount.toNat :=
    of_decide_eq_true (Bool.and_eq_true_iff.mp visible).1
  have rows := mem_freshRow transposed engine.overlay
    (by rw [consistent.topology.forwardCount]; exact known visibleSource)
    (by rw [consistent.topology.inboundCount]; exact known visibleTarget)
    engine.config.queryFreshness
  unfold referenceRow
  rw [List.mem_filter, List.mem_filter, rows]
  constructor
  · intro inRow
    exact ⟨inRow.1, visibleTarget⟩
  · intro inRow
    exact ⟨inRow.1, visibleSource⟩

end Engine

/-- An artifact that was built from edge rows or from dense edges. -/
def Produced (checksum : Checksum32) (bytes : Bytes) : Prop :=
  (∃ edges builtAtUnix,
    DualTopologySnapshot.fromEdgeRows checksum edges builtAtUnix = pure bytes) ∨
  ∃ nodeCount edges builtAtUnix,
    DualTopologySnapshot.fromDenseU32EdgesWithNodeCount checksum nodeCount edges builtAtUnix =
      pure bytes

/-- A produced artifact only opens as a topology that is transposed. -/
theorem Produced.transposed {checksum : Checksum32} {bytes : Bytes}
    {snapshot : Container.Snapshot} {topology : GraphTopology} (produced : Produced checksum bytes)
    (opened : Snapshot.openBytes bytes = .ok snapshot)
    (viewed : GraphTopology.ofSnapshot snapshot = pure topology) : Transposed topology := by
  rcases produced with ⟨edges, builtAtUnix, ran⟩ | ⟨nodeCount, edges, builtAtUnix, ran⟩
  · unfold DualTopologySnapshot.fromEdgeRows at ran
    split at ran
    · exact absurd ran throw_ne_pure
    obtain ⟨map, _, ran⟩ := bind_eq_pure.mp ran
    obtain ⟨nodes, addedNodes, ran⟩ := bind_eq_pure.mp ran
    obtain ⟨builder, addedEdges, assembled⟩ := bind_eq_pure.mp ran
    have held := DualTopologySnapshot.holdsGraph_of_addNodes
      DualTopologySnapshot.holdsGraph_new addedNodes
    refine DualTopologySnapshot.transposed_of_assemble
      (Fallible.foldlM_keeps (fun before edge after held added => ?_) held addedEdges)
      assembled opened viewed
    obtain ⟨source, _, added⟩ := bind_eq_pure.mp added
    obtain ⟨target, _, added⟩ := bind_eq_pure.mp added
    exact DualTopologySnapshot.holdsGraph_of_addEdges held added
  · unfold DualTopologySnapshot.fromDenseU32EdgesWithNodeCount at ran
    split at ran
    · exact absurd ran throw_ne_pure
    split at ran
    · exact absurd ran throw_ne_pure
    obtain ⟨nodes, addedNodes, ran⟩ := bind_eq_pure.mp ran
    obtain ⟨builder, addedEdges, assembled⟩ := bind_eq_pure.mp ran
    have held := DualTopologySnapshot.holdsGraph_of_addNodes
      DualTopologySnapshot.holdsGraph_new addedNodes
    exact DualTopologySnapshot.transposed_of_assemble
      (DualTopologySnapshot.holdsGraph_of_addEdges held addedEdges) assembled opened viewed

namespace Engine

/-- While an engine serves a produced artifact, inward traversals are converse to outward ones. -/
theorem traversals_converse {backing : Bytes} {edits : List OverlayEdit} {config : Config}
    {engine : Engine}
    (built : EngineBuilder.build backing (OverlayEdit.all edits) config = pure engine)
    (ops : List EngineOp) (checksum : Checksum32) (limits : TraverseLimits) (source target : UInt32) :
    let current := ops.foldl EngineOp.run engine
    Produced checksum current.backing →
    current.metadata.nodeCount.toNat ≤ limits.resultLimit →
    current.metadata.nodeCount ≤ current.config.traverseLimit →
    source < current.metadata.nodeCount → current.overlay.nodeVisible source = true →
    target < current.metadata.nodeCount → current.overlay.nodeVisible target = true →
      ∃ outward inward, (traverse source limits .out current).1 = .ok outward ∧
        (traverse target limits .in current).1 = .ok inward ∧
          (target ∈ outward ↔ source ∈ inward) := by
  intro current produced resultsFit limitFits knownSource liveSource knownTarget liveTarget
  have consistent : current.Consistent := history_consistent built ops
  obtain ⟨snapshot, opened, viewed⟩ := consistent.artifact
  have transposed := produced.transposed opened viewed
  have visibleSource : visibleNode current.metadata.nodeCount current.overlay source = true :=
    Bool.and_eq_true_iff.mpr ⟨decide_eq_true knownSource, liveSource⟩
  have visibleTarget : visibleNode current.metadata.nodeCount current.overlay target = true :=
    Bool.and_eq_true_iff.mpr ⟨decide_eq_true knownTarget, liveTarget⟩
  refine ⟨_, _, consistent.traverseFromSeeds_eq (fun seed member =>
      List.mem_singleton.mp member ▸ knownSource) limits .out,
    consistent.traverseFromSeeds_eq (fun seed member =>
      List.mem_singleton.mp member ▸ knownTarget) limits .in, ?_⟩
  rw [mem_expected visibleSource resultsFit limitFits,
    mem_expected visibleTarget resultsFit limitFits]
  -- Every row only leads to visible nodes, and back from them.
  have closed (direction : TraversalDirection) (node : UInt32)
      (_ : visibleNode current.metadata.nodeCount current.overlay node = true) :
      ∀ next ∈ current.referenceRow direction node,
        visibleNode current.metadata.nodeCount current.overlay next = true :=
    fun next inRow => (List.mem_filter.mp inRow).2
  constructor
  · rintro ⟨hops, reached, listable⟩
    refine ⟨hops, hops_converse (closed .out) ?_ visibleSource reached, listable⟩
    intro node next visibleNode visibleNext inRow
    exact (mem_referenceRow consistent transposed visibleNode visibleNext).mpr inRow
  · rintro ⟨hops, reached, listable⟩
    refine ⟨hops, hops_converse (closed .in) ?_ visibleTarget reached, listable⟩
    intro node next visibleNode visibleNext inRow
    exact (mem_referenceRow consistent transposed visibleNext visibleNode).mp inRow

/-- With a parallel edge tombstoned and an edge inserted, each node still reaches the other. -/
theorem traversals_converse_parallel : ∃ engine : Engine, ∃ outward inward,
    (traverse 0 fiveResults .out engine).1 = .ok outward ∧
      (traverse 2 fiveResults .in engine).1 = .ok inward ∧ (2 ∈ outward ↔ 0 ∈ inward) := by
  have ran : (DualTopologySnapshot.fromDenseU32EdgesWithNodeCount (fun _ _ => 0) 3
        [(0, 1), (0, 1)] 0 >>= fun bytes => EngineBuilder.build bytes
          (OverlayEdit.all [.tombstoneEdge 0, .pushEdge ⟨1, 2⟩]) .default).returns
      (fun engine => decide (engine.metadata.nodeCount = 3 ∧
        engine.config.traverseLimit = 10000 ∧ engine.overlay.nodeVisible 0 = true ∧
          engine.overlay.nodeVisible 2 = true)) = true := by
    decide +kernel
  obtain ⟨engine, made, facts⟩ := Fallible.exists_of_returns ran
  obtain ⟨bytes, produced, built⟩ := bind_eq_pure.mp made
  obtain ⟨count, limit, liveSource, liveTarget⟩ := of_decide_eq_true facts
  have backed : engine.backing = bytes := (EngineBuilder.build_consistent built
    (OverlayState.indexed_default.edits [.tombstoneEdge 0, .pushEdge ⟨1, 2⟩])).2
  refine ⟨engine, traversals_converse built [] (fun _ _ => 0) fiveResults 0 2 ?_ ?_ ?_ ?_ liveSource
    ?_ liveTarget⟩
  · exact .inr ⟨3, [(0, 1), (0, 1)], 0, backed ▸ produced⟩
  · show engine.metadata.nodeCount.toNat ≤ _
    rw [count]
    decide
  · show engine.metadata.nodeCount ≤ engine.config.traverseLimit
    rw [count, limit]
    decide
  · show 0 < engine.metadata.nodeCount
    rw [count]
    decide
  · show 2 < engine.metadata.nodeCount
    rw [count]
    decide

end Engine

end Oxgraph.Postgres
