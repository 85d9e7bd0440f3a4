import Oxgraph.Proofs.Csr.Build

/-! What is frozen, borrowed, or reopened answers as the added edges define. -/

namespace Oxgraph.Csr

open Layout Container
open LayoutIndex (toNat_lt toNat_ofNat)
open List (getElem?_map length_map map_map mem_map mem_range)

section

variable {N E EW RW : Type} [LayoutIndex N] [LayoutIndex E]

-- Adding.

omit [LayoutIndex E] in
/-- A node is accepted exactly when it is below the count. -/
theorem ensureNode_eq (node : N) (nodeCount : Nat) :
    (ensureNode node nodeCount : Except (GraphBuildError N E) Nat) =
      if toNat node < nodeCount then .ok (toNat node) else .error (.invalidNode node) := by
  unfold ensureNode idToSlot
  rw [toUsize_eq]
  dsimp only
  split <;> rfl

/-- A new builder has recorded nothing. -/
theorem recorded_empty : Recorded 0 ([] : List N) [] .empty :=
  ⟨rfl, rfl, rfl, Nat.zero_le _⟩

/-- Every call of the unweighted builder leaves what the same addition leaves. -/
theorem GraphBuilder.keeps :
    Fallible.Keeps (GraphBuilder.add : GraphBuilder N E → Addition N EW RW → _)
      (Digraph.apply N E) fun builder graph =>
        Recorded builder.nodeCount builder.sources builder.targets graph := by
  intro builder graph addition recorded
  cases addition with
  | node weight =>
    unfold GraphBuilder.add GraphBuilder.addNode Digraph.apply
    cases allocated : (nextDenseIndex builder.nodeCount : Except Nat (N × Nat)) with
    | error value =>
      -- A node that would fit would have been allocated.
      have full : ¬ (graph.nodeCount < LayoutIndex.bound N ∧ graph.nodeCount + 1 < usizeBound) := by
        rintro ⟨fits, counted⟩
        rw [← recorded.nodes] at fits counted
        rw [nextDenseIndex_eq_ok.mpr ⟨toNat_ofNat _ fits, rfl, counted⟩] at allocated
        cases allocated
      rw [if_neg full]
      exact recorded
    | ok next =>
      obtain ⟨id, advanced⟩ := next
      obtain ⟨carried, rfl, counted⟩ := nextDenseIndex_eq_ok.mp allocated
      have fits := toNat_lt id
      rw [carried] at fits
      rw [recorded.nodes] at fits counted
      rw [if_pos ⟨fits, counted⟩]
      exact ⟨congrArg (· + 1) recorded.nodes, recorded.edges, recorded.paired, recorded.inMemory⟩
  | edge source target weight =>
    unfold GraphBuilder.add GraphBuilder.addEdge Digraph.apply
    dsimp only
    have nodes := recorded.nodes
    rw [ensureNode_eq, ensureNode_eq]
    by_cases sourceKnown : toNat source < builder.nodeCount
    · by_cases targetKnown : toNat target < builder.nodeCount
      · rw [if_pos sourceKnown, if_pos targetKnown]
        rw [dif_pos (nodes ▸ ⟨sourceKnown, targetKnown⟩), recorded.length_edges]
        cases converted : (indexFromUsize builder.sources.length : Except Nat E) with
        | error value =>
          have full : ¬ builder.sources.length < LayoutIndex.bound E := fun fits => by
            rw [indexFromUsize_eq_ok.mpr (toNat_ofNat _ fits)] at converted
            cases converted
          rw [if_neg full]
          exact recorded
        | ok edge =>
          have fits := toNat_lt edge
          rw [indexFromUsize_eq_ok.mp converted] at fits
          rw [if_pos fits]
          cases grown : pushOrPanic (LayoutIndex.bytes N) builder.sources source with
          | none => trivial
          | some sources =>
            obtain ⟨room, rfl⟩ := pushOrPanic_eq_some.mp grown
            -- The targets have as much room as the sources.
            have other : pushOrPanic (LayoutIndex.bytes N) builder.targets target =
                some (builder.targets ++ [target]) :=
              pushOrPanic_eq_some.mpr ⟨recorded.paired ▸ room, rfl⟩
            rw [other]
            refine ⟨recorded.nodes, ?_, ?_, ?_⟩
            · show ((builder.sources ++ [source]).zip (builder.targets ++ [target])).map _ = _
              rw [List.zip_append recorded.paired, List.map_append, recorded.edges]
              rfl
            · show (builder.sources ++ [source]).length = (builder.targets ++ [target]).length
              rw [List.length_append, List.length_append, recorded.paired]
              rfl
            · show (builder.sources ++ [source]).length ≤ _
              rw [List.length_append]
              exact room
      · rw [if_pos sourceKnown, if_neg targetKnown, dif_neg fun known => targetKnown (nodes ▸ known.2)]
        exact recorded
    · rw [if_neg sourceKnown, dif_neg fun known => sourceKnown (nodes ▸ known.1)]
      exact recorded

/-- The builder of the same nodes and edges without weights. -/
def WeightedGraphBuilder.unweighted (builder : WeightedGraphBuilder N E EW RW) :
    GraphBuilder N E :=
  { nodeCount := builder.nodeCount, sources := builder.sources, targets := builder.targets }

/-- Weights do not matter to what is added. -/
theorem WeightedGraphBuilder.add_unweighted (builder : WeightedGraphBuilder N E EW RW)
    (addition : Addition N EW RW) :
    WeightedGraphBuilder.unweighted <$> builder.add addition = builder.unweighted.add addition := by
  cases addition with
  | node weight =>
    unfold WeightedGraphBuilder.add WeightedGraphBuilder.addNode
    unfold GraphBuilder.add GraphBuilder.addNode
    dsimp only [WeightedGraphBuilder.unweighted]
    cases (nextDenseIndex builder.nodeCount : Except Nat (N × Nat)) with
    | error value => rfl
    | ok next => rfl
  | edge source target weight =>
    unfold WeightedGraphBuilder.add WeightedGraphBuilder.addEdge
    unfold GraphBuilder.add GraphBuilder.addEdge
    dsimp only [WeightedGraphBuilder.unweighted]
    cases (ensureNode source builder.nodeCount : Except (GraphBuildError N E) Nat) with
    | error value => rfl
    | ok slot =>
      cases (ensureNode target builder.nodeCount : Except (GraphBuildError N E) Nat) with
      | error value => rfl
      | ok slot =>
        cases (indexFromUsize builder.sources.length : Except Nat E) with
        | error value => rfl
        | ok edge =>
          cases pushOrPanic (LayoutIndex.bytes N) builder.sources source with
          | none => rfl
          | some sources =>
            cases pushOrPanic (LayoutIndex.bytes N) builder.targets target with
            | none => rfl
            | some targets => rfl

/-- Every call of the weighted builder leaves what the same addition leaves. -/
theorem WeightedGraphBuilder.keeps :
    Fallible.Keeps (WeightedGraphBuilder.add :
        WeightedGraphBuilder N E EW RW → Addition N EW RW → _)
      (Digraph.apply N E) fun builder graph =>
        Recorded builder.nodeCount builder.sources builder.targets graph :=
  Fallible.Keeps.of_map WeightedGraphBuilder.add_unweighted GraphBuilder.keeps

-- The rows of a multigraph.

namespace Digraph

variable {graph : Digraph}

@[simp] theorem length_rows : graph.rows.length = graph.nodeCount := by
  rw [rows, length_map, List.length_range]

theorem getElem?_rows {node : Nat} (valid : node < graph.nodeCount) :
    graph.rows[node]? = some (graph.outgoing node) := by
  rw [rows, getElem?_map, List.getElem?_range valid]
  rfl

theorem getElem?_targetRows {node : Nat} (valid : node < graph.nodeCount) :
    graph.targetRows[node]? =
      some ((graph.outgoing node).map fun edge => (graph.edges.getD edge (0, 0)).2) := by
  rw [targetRows, getElem?_map, getElem?_rows valid]
  rfl

theorem mem_outgoing {node edge : Nat} :
    edge ∈ graph.outgoing node ↔ graph.source edge = some node := by
  rw [outgoing, List.mem_filter, mem_range, decide_eq_true_eq]
  refine ⟨And.right, fun owned => ⟨?_, owned⟩⟩
  -- An edge with a source is one of the edges.
  unfold source at owned
  obtain ⟨_, located, _⟩ := Option.map_eq_some_iff.mp owned
  exact (List.getElem?_eq_some_iff.mp located).1

theorem lt_of_mem_outgoing {node edge : Nat} (member : edge ∈ graph.outgoing node) :
    edge < graph.edges.length :=
  mem_range.mp (List.mem_filter.mp member).1

/-- The target of an edge that is there. -/
theorem target_eq {edge : Nat} (valid : edge < graph.edges.length) :
    graph.target edge = some (graph.edges.getD edge (0, 0)).2 := by
  rw [target, List.getElem?_eq_getElem valid, List.getD_eq_getElem _ _ valid]
  rfl

/-- The rows list every edge once. -/
theorem rows_perm : graph.rows.flatten.Perm (List.range graph.edges.length) := by
  -- The rows group the numbers of the edges by their sources.
  let items := (List.range graph.edges.length).map fun edge =>
    ((graph.edges.getD edge (0, 0)).1, edge)
  have grouped : groups graph.nodeCount items = graph.rows := by
    unfold groups rows
    refine List.map_congr_left fun node _ => ?_
    unfold valuesOf outgoing
    rw [List.filter_map, map_map]
    refine Eq.trans (List.map_id _) (List.filter_congr fun edge member => ?_)
    have valid := mem_range.mp member
    rw [source, List.getElem?_eq_getElem valid, Function.comp_apply, List.getD_eq_getElem _ _ valid]
    simp
  have known : ∀ item ∈ items, item.1 < graph.nodeCount := by
    intro item member
    obtain ⟨edge, inside, rfl⟩ := mem_map.mp member
    have valid := mem_range.mp inside
    rw [List.getD_eq_getElem _ _ valid]
    exact (graph.known _ (List.getElem_mem valid)).1
  have whole := groups_perm known
  rw [grouped, map_map] at whole
  exact whole.trans (List.Perm.of_eq (List.map_id _))

theorem length_flatten_rows : graph.rows.flatten.length = graph.edges.length := by
  rw [graph.rows_perm.length_eq, List.length_range]

/-- Edges that are listed as the outgoing ones are those with the source. -/
theorem owner_of {numbering : List Nat} (permutes : numbering.Perm (List.range graph.edges.length))
    {node : Nat} {edges : List E}
    (listed : edges.map (fun edge => numbering[toNat edge]?) = (graph.outgoing node).map some)
    (edge : E) : edge ∈ edges ↔ (numbering[toNat edge]?).bind graph.source = some node := by
  constructor
  · intro member
    have named := List.mem_map_of_mem (f := fun edge => numbering[toNat edge]?) member
    rw [listed] at named
    obtain ⟨number, owned, same⟩ := mem_map.mp named
    rw [← same]
    exact mem_outgoing.mp owned
  · intro owned
    obtain ⟨number, located, source⟩ := Option.bind_eq_some_iff.mp owned
    have named := List.mem_map_of_mem (f := some) (mem_outgoing.mpr source)
    rw [← listed] at named
    obtain ⟨other, member, same⟩ := mem_map.mp named
    -- No edge has two numbers.
    have distinct : numbering.Nodup := permutes.nodup_iff.mpr List.nodup_range
    obtain ⟨inside, _⟩ := List.getElem?_eq_some_iff.mp same
    have slots := (List.getElem?_inj inside distinct).mp (same.trans located.symm)
    rwa [toNat_injective slots] at member

namespace GroupedBy

variable {topology : FrozenTopology N E} (grouped : graph.GroupedBy topology)
  (fits : graph.edges.length < LayoutIndex.bound E)
include grouped

theorem length_sources : topology.sources.length = graph.edges.length := by
  have same := congrArg List.length grouped.sources
  rwa [length_map, length_map] at same

theorem length_targets : topology.targets.length = graph.edges.length := by
  have same := congrArg List.length grouped.targets.values
  rwa [length_map, targetRows, ← List.map_flatten, length_map,
    length_flatten_rows] at same

theorem permutes : (topology.edgeIds.map toNat).Perm (List.range graph.edges.length) := by
  rw [grouped.edges.values]
  exact rows_perm

theorem source_eq (edge : E) : (topology.source edge).map toNat = graph.source (toNat edge) := by
  rw [FrozenTopology.source, slotOrMax_eq, ← getElem?_map, grouped.sources, source,
    getElem?_map]

theorem target_eq (edge : E) : (topology.target edge).map toNat = graph.target (toNat edge) := by
  rw [FrozenTopology.target, slotOrMax_eq, ← getElem?_map, grouped.edgeTargets, target,
    getElem?_map]

-- The frozen graph, whose edges keep their own numbers.

theorem outgoingRange_eq {node : N} (valid : toNat node < graph.nodeCount) :
    topology.outgoingRange node = some ((graph.rows.take (toNat node)).flatten.length,
      (graph.rows.take (toNat node)).flatten.length + (graph.outgoing (toNat node)).length) := by
  obtain ⟨first, last, found, follow, start, stop⟩ :=
    offset_words grouped.edges (getElem?_rows valid)
  unfold FrozenTopology.outgoingRange
  rw [← stop, ← start]
  simp only [slotOrMax_eq, found, follow, toUsize_eq, Option.getD_some]
  rfl

theorem sliceOf_edgeIds {node : N} (valid : toNat node < graph.nodeCount) :
    sliceOf topology.edgeIds (graph.rows.take (toNat node)).flatten.length
        ((graph.rows.take (toNat node)).flatten.length + (graph.outgoing (toNat node)).length) =
      some ((graph.outgoing (toNat node)).map LayoutIndex.ofNat) := by
  have inside : toNat node < graph.rows.length := by rwa [length_rows]
  have row : graph.rows.getD (toNat node) [] = graph.outgoing (toNat node) := by
    rw [List.getD_eq_getElem?_getD, getElem?_rows valid, Option.getD_some]
  have slice := sliceOf_bucket grouped.edges inside
  rwa [row] at slice

theorem outgoingEdges_eq {node : N} (valid : toNat node < graph.nodeCount) :
    topology.outgoingEdges node = some ((graph.outgoing (toNat node)).map LayoutIndex.ofNat) := by
  unfold FrozenTopology.outgoingEdges
  rw [grouped.outgoingRange_eq valid]
  exact grouped.sliceOf_edgeIds valid

include fits

/-- A frozen graph answers as the multigraph defines, its edges numbered as they were added. -/
theorem answeredBy : graph.AnsweredBy (List.range graph.edges.length) topology.traits := by
  have slot {node edge : Nat} (member : edge ∈ graph.outgoing node) :
      toNat (LayoutIndex.ofNat edge : E) = edge :=
    toNat_ofNat edge (Nat.lt_trans (lt_of_mem_outgoing member) fits)
  have listed (node : Nat) : ((graph.outgoing node).map (LayoutIndex.ofNat : Nat → E)).map
      (fun edge => (List.range graph.edges.length)[toNat edge]?) =
        (graph.outgoing node).map some := by
    rw [map_map]
    refine List.map_congr_left fun edge member => ?_
    rw [Function.comp_apply, slot member, List.getElem?_range (lt_of_mem_outgoing member)]
  refine
    { permutes := List.Perm.refl _
      elementCount := grouped.nodes
      relationCount := grouped.length_sources
      elementBound := grouped.nodes
      relationBound := grouped.length_sources
      elementIndex := fun node _ => congrArg some (slotOrMax_eq node)
      relationIndex := fun edge _ => congrArg some (slotOrMax_eq edge)
      containsElement := fun node => ?_
      containsRelation := fun edge => ?_
      target := fun edge valid => ?_
      outgoingEdges := fun node valid => ?_
      outDegree := fun node valid => ?_
      elementSuccessors := fun node valid => ?_
      owner := fun node edges valid answered => ?_ }
  -- Contained IDs are those below the counts.
  · simp only [FrozenTopology.traits, toUsize_eq, Option.any_some, grouped.nodes]
  · simp only [FrozenTopology.traits, toUsize_eq, Option.any_some, grouped.length_sources]
  · rw [List.getElem?_range valid]
    exact grouped.target_eq edge
  · show (topology.outgoingEdges node).map _ = _
    rw [grouped.outgoingEdges_eq valid, Option.map_some, listed]
  · show topology.outDegree node = _
    unfold FrozenTopology.outDegree
    rw [grouped.outgoingRange_eq valid]
    exact congrArg some (Nat.add_sub_cancel_left _ _)
  · -- Each listed edge is looked up among the targets by its own number.
    show (topology.elementSuccessors node).map _ = _
    unfold FrozenTopology.elementSuccessors
    rw [grouped.outgoingRange_eq valid]
    show ((sliceOf _ _ _).bind _).map _ = _
    rw [grouped.sliceOf_edgeIds valid, Option.bind_some,
      @map_mapM_some _ _ _ _ _ (fun edge => graph.target (toNat edge)), map_map]
    · refine congrArg some (List.map_congr_left fun edge member => ?_)
      rw [Function.comp_apply, slot member]
    · intro edge member
      obtain ⟨number, owned, rfl⟩ := mem_map.mp member
      have found := grouped.target_eq (LayoutIndex.ofNat number : E)
      rw [slot owned, Digraph.target_eq (lt_of_mem_outgoing owned)] at found
      obtain ⟨word, located, same⟩ := Option.map_eq_some_iff.mp found
      rw [slot owned, Digraph.target_eq (lt_of_mem_outgoing owned), ← same]
      unfold FrozenTopology.target at located
      rw [located]
      rfl
  · have same := (grouped.outgoingEdges_eq valid).symm.trans answered
    obtain rfl := Option.some.inj same
    exact owner_of (List.Perm.refl _) (listed _)

-- A view, which numbers the edges by their positions.

omit fits in
/-- The view that a frozen topology lends. -/
theorem asView_eq_ok {view : CsrGraph N E} :
    topology.asView = .ok view ↔ toNat view.nodeCount = graph.nodeCount ∧
      view.nodeBound = graph.nodeCount ∧ view.offsets = topology.offsets ∧
      view.targets = topology.targets := by
  unfold FrozenTopology.asView
  rw [bind_eq_ok, grouped.nodes]
  constructor
  · rintro ⟨nodeCount, converted, same⟩
    cases Except.ok.inj same
    exact ⟨indexFromUsize_eq_ok.mp (mapError_eq_ok.mp converted), rfl, rfl, rfl⟩
  · rintro ⟨carried, bound, offsets, targets⟩
    refine ⟨view.nodeCount, mapError_eq_ok.mpr (indexFromUsize_eq_ok.mpr carried), ?_⟩
    rw [← bound, ← offsets, ← targets]
    rfl

omit fits in
/-- A view is lent exactly when the width can count the nodes. -/
theorem exists_asView :
    (∃ view, topology.asView = .ok view) ↔ graph.nodeCount < LayoutIndex.bound N := by
  constructor
  · rintro ⟨view, lent⟩
    rw [← (grouped.asView_eq_ok.mp lent).1]
    exact toNat_lt view.nodeCount
  · intro fits
    exact ⟨⟨LayoutIndex.ofNat graph.nodeCount, graph.nodeCount, topology.offsets, topology.targets⟩,
      grouped.asView_eq_ok.mpr ⟨toNat_ofNat _ fits, rfl, rfl, rfl⟩⟩

end GroupedBy

end Digraph

omit [LayoutIndex E] in
/-- The slot of a node of a view is there exactly when it is below the count. -/
theorem CsrGraph.tryNodeSlot_eq {view : CsrGraph N E} {nodeCount : Nat}
    (count : toNat view.nodeCount = nodeCount) (bound : view.nodeBound = nodeCount) (node : N) :
    view.tryNodeSlot node = if toNat node < nodeCount then some (toNat node) else none := by
  unfold CsrGraph.tryNodeSlot
  rw [toUsize_eq, count, bound]
  show (if _ ∧ _ then _ else _) = _
  simp only [and_self]

omit [LayoutIndex N] in
/-- The slot of an edge of a view is there exactly when it is the position of a target. -/
theorem CsrGraph.tryEdgeSlot_eq (view : CsrGraph N E) (edge : E) :
    view.tryEdgeSlot edge =
      if toNat edge < view.targets.length then some (toNat edge) else none := by
  unfold CsrGraph.tryEdgeSlot
  rw [toUsize_eq]
  rfl

namespace Digraph.GroupedBy

variable {graph : Digraph} {topology : FrozenTopology N E} {view : CsrGraph N E}
  (grouped : graph.GroupedBy topology) (fits : graph.edges.length < LayoutIndex.bound E)
  (lent : topology.asView = .ok view)
include grouped lent

theorem view_outgoingRange_eq {node : N} (valid : toNat node < graph.nodeCount) :
    view.outgoingRange (toNat node) = some ((graph.rows.take (toNat node)).flatten.length,
      (graph.rows.take (toNat node)).flatten.length + (graph.outgoing (toNat node)).length) := by
  obtain ⟨_, _, offsets, _⟩ := grouped.asView_eq_ok.mp lent
  obtain ⟨first, last, found, follow, start, stop⟩ :=
    offset_words grouped.edges (getElem?_rows valid)
  unfold CsrGraph.outgoingRange
  rw [← stop, ← start, offsets]
  simp only [found, follow]
  show (do
    let start ← indexToUsizeValidated first
    let stop ← indexToUsizeValidated last
    return (start, stop)) = _
  rw [indexToUsizeValidated_eq, indexToUsizeValidated_eq]
  rfl

/-- The slot of a node of the multigraph. -/
theorem checkedNodeSlot_eq {node : N} (valid : toNat node < graph.nodeCount) :
    view.checkedNodeSlot node = some (toNat node) := by
  obtain ⟨count, bound, _⟩ := grouped.asView_eq_ok.mp lent
  unfold CsrGraph.checkedNodeSlot
  rw [CsrGraph.tryNodeSlot_eq count bound, if_pos valid]

include fits

/-- The outgoing edges of a node are the positions of its row. -/
theorem view_outgoingEdges_eq {node : N} (valid : toNat node < graph.nodeCount) :
    view.outgoingEdges node = some ((List.range' (graph.rows.take (toNat node)).flatten.length
      (graph.outgoing (toNat node)).length).map LayoutIndex.ofNat) := by
  unfold CsrGraph.outgoingEdges
  rw [grouped.checkedNodeSlot_eq lent valid]
  show (view.outgoingRange (toNat node)).bind _ = _
  rw [grouped.view_outgoingRange_eq lent valid, Option.bind_some]
  show (subOrPanic _ _).bind _ = _
  rw [subOrPanic, if_pos (Nat.le_add_right _ _), Nat.add_sub_cancel_left, Option.bind_some]
  refine mapM_some fun place member => usizeToIndexValidated_eq ?_
  -- The row ends before the edges do, and the width can count the edges.
  have stop := (grouped.edges.bucket (getElem?_rows valid)).2.2.1
  rw [grouped.edges.values, length_flatten_rows] at stop
  have inside := (List.mem_range'_1.mp member).2
  omega

/-- A view answers as the multigraph defines, its edges numbered by their positions. -/
theorem view_answeredBy : graph.AnsweredBy (topology.edgeIds.map toNat) view.traits := by
  obtain ⟨count, bound, _, targets⟩ := grouped.asView_eq_ok.mp lent
  have edgeCount : view.targets.length = graph.edges.length := by
    rw [targets, grouped.length_targets]
  -- The positions of a row name its edges, in order: most answers are read through this.
  have positions {node : N} (valid : toNat node < graph.nodeCount) :
      ((List.range' (graph.rows.take (toNat node)).flatten.length
          (graph.outgoing (toNat node)).length).map (LayoutIndex.ofNat : Nat → E)).map
        (fun edge => (topology.edgeIds.map toNat)[toNat edge]?) =
          (graph.outgoing (toNat node)).map some := by
    rw [← grouped.edges.map_positions (getElem?_rows valid), map_map]
    refine List.map_congr_left fun place member => ?_
    have stop := (grouped.edges.bucket (getElem?_rows valid)).2.2.1
    rw [grouped.edges.values, length_flatten_rows] at stop
    have inside := (List.mem_range'_1.mp member).2
    rw [Function.comp_apply, toNat_ofNat _ (by omega)]
  refine
    { permutes := grouped.permutes
      elementCount := bound
      relationCount := edgeCount
      elementBound := bound
      relationBound := edgeCount
      elementIndex := fun node valid => grouped.checkedNodeSlot_eq lent valid
      relationIndex := fun edge valid => ?_
      containsElement := fun node => ?_
      containsRelation := fun edge => ?_
      target := fun edge valid => ?_
      outgoingEdges := fun node valid => ?_
      outDegree := fun node valid => ?_
      elementSuccessors := fun node valid => ?_
      owner := fun node edges valid answered => ?_ }
  · show view.tryEdgeSlot edge = _
    rw [CsrGraph.tryEdgeSlot_eq, edgeCount, if_pos valid]
  · show (view.tryNodeSlot node).isSome = _
    rw [CsrGraph.tryNodeSlot_eq count bound]
    split <;> simp_all
  · show (view.tryEdgeSlot edge).isSome = _
    rw [CsrGraph.tryEdgeSlot_eq, edgeCount]
    split <;> simp_all
  · -- The target at a position is that of the edge at the position.
    show ((view.tryEdgeSlot edge).bind _).map toNat = _
    rw [CsrGraph.tryEdgeSlot_eq, edgeCount, if_pos valid, Option.bind_some, targets,
      ← getElem?_map, grouped.targets.values, targetRows, ← List.map_flatten,
      getElem?_map, grouped.edges.values]
    have inside : toNat edge < graph.rows.flatten.length := by rwa [length_flatten_rows]
    rw [List.getElem?_eq_getElem inside, Option.map_some, Option.bind_some,
      Digraph.target_eq (mem_range.mp (rows_perm.mem_iff.mp (List.getElem_mem inside)))]
  · show (view.outgoingEdges node).map _ = _
    rw [grouped.view_outgoingEdges_eq fits lent valid, Option.map_some, positions valid]
  · show view.outDegree node = _
    unfold CsrGraph.outDegree
    rw [grouped.checkedNodeSlot_eq lent valid]
    show (view.outgoingRange (toNat node)).bind _ = _
    rw [grouped.view_outgoingRange_eq lent valid, Option.bind_some]
    show subOrPanic _ _ = _
    rw [subOrPanic, if_pos (Nat.le_add_right _ _), Nat.add_sub_cancel_left]
  · -- The targets of a row stand between the same offsets as its edges.
    show (view.elementSuccessors node).map _ = _
    unfold CsrGraph.elementSuccessors
    rw [grouped.checkedNodeSlot_eq lent valid]
    show ((view.outgoingRange (toNat node)).bind _).map _ = _
    rw [grouped.view_outgoingRange_eq lent valid, Option.bind_some, targets]
    have inside : toNat node < graph.targetRows.length := by
      rwa [targetRows, length_map, length_rows]
    have row : graph.targetRows.getD (toNat node) [] =
        (graph.outgoing (toNat node)).map fun edge => (graph.edges.getD edge (0, 0)).2 := by
      rw [List.getD_eq_getElem?_getD, getElem?_targetRows valid, Option.getD_some]
    have before : (graph.targetRows.take (toNat node)).flatten.length =
        (graph.rows.take (toNat node)).flatten.length := by
      rw [targetRows, ← List.map_take, ← List.map_flatten, length_map]
    have slice := sliceOf_bucket grouped.targets inside
    have slots := slots_bucket grouped.targets inside
    rw [before, row, length_map] at slice
    rw [row] at slots
    show (sliceOf _ _ _).map _ = _
    rw [slice, Option.map_some]
    refine congrArg some ?_
    rw [← Function.comp_def, ← map_map, slots, map_map]
    exact List.map_congr_left fun edge member =>
      (Digraph.target_eq (lt_of_mem_outgoing member)).symm
  · have same := (grouped.view_outgoingEdges_eq fits lent valid).symm.trans answered
    obtain rfl := Option.some.inj same
    exact owner_of grouped.permutes (positions valid)

end Digraph.GroupedBy

-- Freezing.

/-- What freezing a builder that recorded a multigraph returns. -/
theorem Recorded.freezesAs {G : Type} {nodeCount : Nat} {sources targets : List N} {graph : Digraph}
    (recorded : Recorded nodeCount sources targets graph)
    {freeze : Fallible (GraphBuildError N E) G} {topology : G → FrozenTopology N E}
    {frozen : FrozenTopology N E → G} (inverse : ∀ built, topology (frozen built) = built)
    (same : freeze = frozen <$> freezeTopology nodeCount sources targets) :
    graph.FreezesAs freeze topology := by
  -- Freezing panics, fails, or returns the grouped arrays, and the counts decide which.
  have crowded (more : sliceBound usizeBytes < nodeCount + 1) : freeze = ExceptT.mk none := by
    rw [same, freezeTopology_panics sources targets more]
    rfl
  have wide (memory : nodeCount + 1 ≤ sliceBound usizeBytes)
      (many : LayoutIndex.bound E ≤ graph.edges.length) : ∃ error, freeze = throw error := by
    obtain ⟨error, raised⟩ := recorded.freezeTopology_error memory many
    rw [same, raised]
    exact ⟨error, rfl⟩
  have full (memory : nodeCount + 1 ≤ sliceBound usizeBytes)
      (fits : graph.edges.length < LayoutIndex.bound E)
      (more : sliceBound (LayoutIndex.bytes E) < graph.edges.length) :
      freeze = ExceptT.mk none := by
    rw [same, recorded.freezeTopology_full memory fits more]
    rfl
  have returns (memory : nodeCount + 1 ≤ sliceBound usizeBytes)
      (fits : graph.edges.length < LayoutIndex.bound E)
      (numbered : graph.edges.length ≤ sliceBound (LayoutIndex.bytes E)) :
      freeze = pure (frozen (groupedTopology nodeCount sources targets)) := by
    rw [same, recorded.freezeTopology_eq memory fits numbered]
    rfl
  have returned (result : G) (outcome : freeze = pure result) :
      graph.edges.length < LayoutIndex.bound E ∧ graph.GroupedBy (topology result) := by
    rcases Nat.lt_or_ge (sliceBound usizeBytes) (nodeCount + 1) with more | memory
    · rw [crowded more] at outcome
      cases outcome
    rcases Nat.lt_or_ge graph.edges.length (LayoutIndex.bound E) with fits | many
    · rcases Nat.lt_or_ge (sliceBound (LayoutIndex.bytes E)) graph.edges.length with
        more | numbered
      · rw [full memory fits more] at outcome
        cases outcome
      · rw [returns memory fits numbered] at outcome
        rw [← Fallible.pure_eq_pure.mp outcome, inverse]
        exact ⟨fits, recorded.groupedBy fits⟩
    · obtain ⟨error, raised⟩ := wide memory many
      rw [raised] at outcome
      cases outcome
  refine ⟨?_, fun memory numbered => ?_, fun result outcome => ?_, fun result outcome => ?_,
    fun result outcome => ?_, fun result view outcome lent => ?_⟩
  · rw [← recorded.nodes]
    constructor
    · intro panicked
      rcases Nat.lt_or_ge (sliceBound usizeBytes) (nodeCount + 1) with more | memory
      · exact .inl more
      rcases Nat.lt_or_ge graph.edges.length (LayoutIndex.bound E) with fits | many
      · refine .inr ⟨fits, Nat.lt_of_not_le fun numbered => ?_⟩
        rw [returns memory fits numbered] at panicked
        cases panicked
      · obtain ⟨error, raised⟩ := wide memory many
        rw [raised] at panicked
        cases panicked
    · rintro (more | ⟨fits, more⟩)
      · exact crowded more
      · rcases Nat.lt_or_ge (sliceBound usizeBytes) (nodeCount + 1) with crowd | memory
        · exact crowded crowd
        · exact full memory fits more
  · rw [← recorded.nodes] at memory
    exact ⟨fun ⟨result, outcome⟩ => (returned result outcome).1,
      fun fits => ⟨_, returns memory fits numbered⟩⟩
  · obtain ⟨fits, grouped⟩ := returned result outcome
    exact grouped.answeredBy fits
  · exact fun edge _ => (returned result outcome).2.source_eq edge
  · exact (returned result outcome).2.exists_asView
  · obtain ⟨fits, grouped⟩ := returned result outcome
    exact grouped.view_answeredBy fits lent

/-- The unweighted builder freezes what it recorded. -/
theorem GraphBuilder.freezesAs {builder : GraphBuilder N E} {graph : Digraph}
    (recorded : Recorded builder.nodeCount builder.sources builder.targets graph) :
    graph.FreezesAs builder.freeze FrozenGraph.topology :=
  @Recorded.freezesAs N E _ _ _ _ _ _ _ recorded _ _ FrozenGraph.mk (fun _ => rfl) rfl

/-- The weighted builder freezes what it recorded. -/
theorem WeightedGraphBuilder.freezesAs {builder : WeightedGraphBuilder N E EW RW} {graph : Digraph}
    (recorded : Recorded builder.nodeCount builder.sources builder.targets graph) :
    graph.FreezesAs builder.freeze FrozenWeightedGraph.topology :=
  @Recorded.freezesAs N E _ _ _ _ _ _ _ recorded _ _
    (fun built => ⟨built, builder.elementWeights, builder.relationWeights⟩) (fun _ => rfl) rfl

/-- What freezing returns groups the edges of the multigraph that was recorded. -/
theorem Recorded.grouped_of_freeze {nodeCount : Nat} {sources targets : List N} {graph : Digraph}
    (recorded : Recorded nodeCount sources targets graph) {topology : FrozenTopology N E}
    (built : freezeTopology nodeCount sources targets = (pure topology : Fallible _ _)) :
    graph.nodeCount + 1 ≤ sliceBound usizeBytes ∧ graph.edges.length < LayoutIndex.bound E ∧
      graph.edges.length ≤ sliceBound (LayoutIndex.bytes E) ∧ graph.GroupedBy topology := by
  have frozen := @Recorded.freezesAs N E _ _ _ _ _ _ _ recorded
    (freezeTopology nodeCount sources targets) id id (fun _ => rfl) (id_map _).symm
  have memory : graph.nodeCount + 1 ≤ sliceBound usizeBytes := by
    by_contra more
    rw [frozen.panics.mpr (.inl (Nat.lt_of_not_le more))] at built
    cases built
  have fits : graph.edges.length < LayoutIndex.bound E := by
    by_contra many
    obtain ⟨error, raised⟩ :=
      recorded.freezeTopology_error (recorded.nodes ▸ memory) (Nat.le_of_not_lt many)
    rw [raised] at built
    cases built
  have numbered : graph.edges.length ≤ sliceBound (LayoutIndex.bytes E) := by
    by_contra more
    rw [frozen.panics.mpr (.inr ⟨fits, Nat.lt_of_not_le more⟩)] at built
    cases built
  rw [recorded.freezeTopology_eq (recorded.nodes ▸ memory) fits numbered] at built
  rw [← Fallible.pure_eq_pure.mp built]
  exact ⟨memory, fits, numbered, recorded.groupedBy fits⟩

/-- Every edge the other way. -/
def Digraph.converse (graph : Digraph) : Digraph where
  nodeCount := graph.nodeCount
  edges := graph.edges.map Prod.swap
  known edge member := by
    obtain ⟨before, listed, rfl⟩ := mem_map.mp member
    exact (graph.known before listed).symm

/-- A frozen topology records the converse multigraph when its ends change places. -/
theorem Digraph.GroupedBy.recorded_converse {graph : Digraph} {topology : FrozenTopology N E}
    (grouped : graph.GroupedBy topology)
    (inMemory : graph.edges.length ≤ sliceBound (LayoutIndex.bytes N)) :
    Recorded topology.nodeCount topology.edgeTargets topology.sources graph.converse := by
  have length : topology.edgeTargets.length = graph.edges.length := by
    rw [← @length_map _ _ _ toNat, grouped.edgeTargets, length_map]
  refine ⟨grouped.nodes, ?_, length.trans grouped.length_sources.symm, by rw [length]; exact inMemory⟩
  show (topology.edgeTargets.zip topology.sources).map (Prod.map toNat toNat) = _
  rw [← List.zip_map, grouped.edgeTargets, grouped.sources, List.zip_map']
  rfl

/-- The arrays of rows over known nodes are valid. -/
theorem CsrGraph.validate_eq {nodeCount : N} {offsets : List E} {targets : List N}
    {rows : List (List Nat)} (flat : Indexed offsets targets rows)
    (length : rows.length = toNat nodeCount) (counted : toNat nodeCount + 1 < usizeBound)
    (known : ∀ target ∈ targets.map toNat, target < toNat nodeCount) :
    (CsrGraph.validate nodeCount offsets targets : Fallible (CsrError N E) (CsrGraph N E)) =
      pure ⟨nodeCount, toNat nodeCount, offsets, targets⟩ := by
  have section_ : checkOffsetSection offsets (toNat nodeCount) targets.length = pure () :=
    checkOffsetSection_eq_pure.mpr ⟨counted, rows, length, flat⟩
  have added : checkedAdd (toNat nodeCount) 1 = some (toNat nodeCount + 1) :=
    checkedAdd_eq_some.mpr ⟨rfl, counted⟩
  unfold CsrGraph.validate
  rw [toUsize_eq]
  dsimp only
  rw [added, section_, checkValueRange_eq_ok.mpr known]
  rfl

end

-- Snapshots.

section

variable {N E : Type} [SnapshotWidth N] [SnapshotWidth E]

/-- The sections of a frozen topology, in the order they are streamed. -/
def topologySections (topology : FrozenTopology N E) : List StreamedSection :=
  [wordSection (offsetsKind E) sectionVersion topology.offsets,
    wordSection (targetsKind N) sectionVersion topology.targets]

/-- Exporting streams the two sections over exactly their reservation. -/
theorem exportTopologySnapshot_eq (checksum : Checksum32) (topology : FrozenTopology N E) :
    exportTopologySnapshot checksum topology =
      (streamSnapshot checksum 2 (topologySections topology)).mapError
        (GraphBuildError.snapshotPlan : PlanError → GraphBuildError N E) := by
  unfold exportTopologySnapshot streamSnapshot topologySections
  simp only [sectionWidths_eq, List.foldlM_cons, List.foldlM_nil, bind_assoc, bind_pure]

/-- Exporting a topology whose snapshot can be counted succeeds. -/
theorem exportTopologySnapshot_ok (checksum : Checksum32) {topology : FrozenTopology N E}
    (small : tableEnd 2 + (arrayBytes topology.offsets).length +
      (arrayBytes topology.targets).length < usizeBound) :
    ∃ bytes, exportTopologySnapshot checksum topology = .ok bytes := by
  have folds : ∀ streamed ∈ topologySections topology, streamed.Folds checksum := by
    simp [topologySections, folds_wordSection]
  have unaligned : ∀ streamed ∈ topologySections topology, streamed.alignmentLog2 = 0 := by
    simp [topologySections, wordSection]
  -- The targets base is one step of four above the offsets base.
  have ascending : ((topologySections topology).map StreamedSection.kind).IsChain (· < ·) := by
    simp only [topologySections, List.map_cons, List.map_nil, wordSection, offsetsKind, targetsKind,
      List.isChain_cons_cons, List.isChain_singleton, and_true]
    exact kind_lt (by decide)
  have counted : tableEnd 2 +
      ((topologySections topology).map fun streamed => streamed.pending.payload.length).sum <
        usizeBound := by
    simp only [topologySections, List.map_cons, List.map_nil, payload_wordSection, List.sum_cons,
      List.sum_nil]
    omega
  have few : (topologySections topology).length ≤ maxSectionCount := by
    show 2 ≤ maxSectionCount
    decide
  obtain ⟨bytes, streamed⟩ := streamSnapshot_unaligned folds unaligned ascending few counted
  refine ⟨bytes, ?_⟩
  rw [exportTopologySnapshot_eq, mapError_eq_ok]
  exact streamed

namespace Digraph.GroupedBy

variable {graph : Digraph} {topology : FrozenTopology N E} (grouped : graph.GroupedBy topology)
  (memory : graph.nodeCount + 1 ≤ sliceBound usizeBytes)
include grouped memory

/-- A snapshot that holds a topology's words under two kinds opens as the view it lends. -/
theorem fromSnapshotWithKinds_eq_pure {snapshot : Container.Snapshot}
    {offsetsKind targetsKind version : UInt32}
    (holds : ∀ streamed ∈ [wordSection offsetsKind version topology.offsets,
        wordSection targetsKind version topology.targets], ∃ found,
      snapshot.sectionOf streamed.kind = some found ∧ found.planned = streamed.pending)
    (view : CsrGraph N E) :
    (fromSnapshotWithKinds snapshot offsetsKind targetsKind version :
        Fallible (CsrSnapshotError N E) _) = pure view ↔ topology.asView = .ok view := by
  obtain ⟨_, locatedOffsets, sameOffsets⟩ := holds _ (List.mem_cons_self)
  obtain ⟨_, locatedTargets, sameTargets⟩ := holds _ (List.mem_cons_of_mem _ List.mem_cons_self)
  have length : topology.offsets.length = graph.nodeCount + 1 := by
    rw [← @length_map _ _ _ toNat, grouped.edges.length_offsets, length_rows]
  have nonempty : topology.offsets.isEmpty = false := by
    rw [List.isEmpty_eq_false_iff, ← List.length_pos_iff]
    omega
  unfold fromSnapshotWithKinds
  have offsets : typedWords E snapshot offsetsKind version = .ok topology.offsets :=
    typedWords_eq_ok locatedOffsets sameOffsets
  have targets : typedWords N snapshot targetsKind version = .ok topology.targets :=
    typedWords_eq_ok locatedTargets sameTargets
  rw [offsets, targets]
  show (if topology.offsets.isEmpty then _ else _) = _ ↔ _
  rw [nonempty, length, Nat.add_sub_cancel]
  simp only [Bool.false_eq_true, if_false]
  cases converted : (fromUsize graph.nodeCount : Option N) with
  | none =>
    -- Without a word for the node count there is no view either way.
    refine ⟨fun raised => absurd raised Fallible.throw_ne_pure, fun lent => ?_⟩
    rw [fromUsize_eq_some.mpr (grouped.asView_eq_ok.mp lent).1] at converted
    cases converted
  | some nodeCount =>
    have carried := fromUsize_eq_some.mp converted
    have counted : toNat nodeCount + 1 < usizeBound := by
      rw [carried]
      exact Nat.lt_of_le_of_lt memory (by decide)
    have known : ∀ target ∈ topology.targets.map toNat, target < toNat nodeCount := by
      rw [carried, grouped.targets.values, targetRows, ← List.map_flatten]
      refine List.forall_mem_map.mpr fun edge member => ?_
      have valid := mem_range.mp (rows_perm.mem_iff.mp member)
      rw [List.getD_eq_getElem _ _ valid]
      exact (graph.known _ (List.getElem_mem valid)).2
    have rows : graph.targetRows.length = toNat nodeCount := by
      rw [targetRows, length_map, length_rows, carried]
    dsimp only
    rw [CsrGraph.validate_eq grouped.targets rows counted known, Fallible.adapt_eq_pure,
      Fallible.pure_eq_pure, grouped.asView_eq_ok]
    constructor
    · rintro rfl
      exact ⟨carried, carried, rfl, rfl⟩
    · rintro ⟨count, bound, offsets, targets⟩
      have same : nodeCount = view.nodeCount := toNat_injective (carried.trans count.symm)
      cases view
      simp_all

/-- A snapshot that holds a topology's sections opens as the view that the topology lends. -/
theorem fromSnapshot_eq_pure {snapshot : Container.Snapshot}
    (holds : ∀ streamed ∈ topologySections topology, ∃ found,
      snapshot.sectionOf streamed.kind = some found ∧ found.planned = streamed.pending)
    (view : CsrGraph N E) :
    (fromSnapshot snapshot : Fallible (CsrSnapshotError N E) _) = pure view ↔
      topology.asView = .ok view :=
  grouped.fromSnapshotWithKinds_eq_pure memory holds view

/-- A grouped topology reopens. -/
theorem reopensAs (fits : graph.edges.length < LayoutIndex.bound E) (checksum : Checksum32) :
    graph.ReopensAs checksum (exportTopologySnapshot checksum topology) topology := by
  refine ⟨exportTopologySnapshot_ok checksum, fun bytes exported => ?_⟩
  rw [exportTopologySnapshot_eq, mapError_eq_ok] at exported
  obtain ⟨snapshot, opened, checked, holds⟩ := reopened_of_stream
    (by simp [topologySections, folds_wordSection]) exported
  have opens := grouped.fromSnapshot_eq_pure memory holds
  refine ⟨snapshot, opened, checked, ?_, fun view reopened => ?_⟩
  · rw [← grouped.exists_asView]
    exact exists_congr opens
  · exact grouped.view_answeredBy fits ((opens view).mp reopened)

end Digraph.GroupedBy

/-- The stored successors of a known node are the targets of the edges from it. -/
theorem Digraph.GroupedBy.mem_successors {graph : Digraph} {topology : FrozenTopology N E}
    (grouped : graph.GroupedBy topology) (fits : graph.edges.length < LayoutIndex.bound E)
    {view : CsrGraph N E} (lent : topology.asView = .ok view) {node : N}
    (valid : toNat node < graph.nodeCount) {row : List N}
    (answered : view.elementSuccessors node = some row) (target : N) :
    target ∈ row ↔ (toNat node, toNat target) ∈ graph.edges := by
  have answers := (grouped.view_answeredBy fits lent).elementSuccessors node valid
  change (view.elementSuccessors node).map _ = _ at answers
  rw [answered] at answers
  have same : (row.map fun successor => some (toNat successor)) =
      (graph.outgoing (toNat node)).map graph.target := Option.some.inj answers
  constructor
  · intro member
    have listed : some (toNat target) ∈ (graph.outgoing (toNat node)).map graph.target := by
      rw [← same]
      exact List.mem_map_of_mem member
    obtain ⟨edge, owned, ends⟩ := mem_map.mp listed
    obtain ⟨pair, located, stops⟩ := Option.map_eq_some_iff.mp ends
    obtain ⟨again, locatedAgain, starts⟩ := Option.map_eq_some_iff.mp (mem_outgoing.mp owned)
    cases located.symm.trans locatedAgain
    rw [← starts, ← stops]
    exact List.mem_of_getElem? located
  · intro member
    obtain ⟨edge, located⟩ := List.mem_iff_getElem?.mp member
    have owned : edge ∈ graph.outgoing (toNat node) :=
      mem_outgoing.mpr (Option.map_eq_some_iff.mpr ⟨_, located, rfl⟩)
    have listed : some (toNat target) ∈ row.map fun successor => some (toNat successor) := by
      rw [same]
      exact mem_map.mpr ⟨edge, owned, Option.map_eq_some_iff.mpr ⟨_, located, rfl⟩⟩
    obtain ⟨successor, member, equal⟩ := mem_map.mp listed
    exact toNat_injective (Option.some.inj equal) ▸ member

end

/--
Both builders group what was added by source, and every shape of it answers alike.

Unless memory cannot hold the counts or the edge IDs, freezing returns exactly when the edge width
can count the edges; then the view, and the one that reopens from the snapshot, are there exactly
when the node width can count the nodes.
-/
theorem builders_group_edges :
    (∀ (N E EW RW : Type) [LayoutIndex N] [LayoutIndex E] (additions : List (Addition N EW RW)),
      (∀ builder : GraphBuilder N E,
        Fallible.runAll GraphBuilder.add additions .new = some builder →
          (Digraph.all N E additions).FreezesAs builder.freeze FrozenGraph.topology) ∧
      ∀ builder : WeightedGraphBuilder N E EW RW,
        Fallible.runAll WeightedGraphBuilder.add additions .new = some builder →
          (Digraph.all N E additions).FreezesAs builder.freeze FrozenWeightedGraph.topology) ∧
    (∀ (N E EW RW : Type) [SnapshotWidth N] [SnapshotWidth E] (checksum : Checksum32)
      (additions : List (Addition N EW RW)),
      (∀ (builder : GraphBuilder N E) (graph : FrozenGraph N E),
        Fallible.runAll GraphBuilder.add additions .new = some builder →
          builder.freeze = pure graph →
            (Digraph.all N E additions).ReopensAs checksum (exportCsrSnapshot checksum graph)
              graph.topology) ∧
      ∀ (builder : WeightedGraphBuilder N E EW RW) (graph : FrozenWeightedGraph N E EW RW),
        Fallible.runAll WeightedGraphBuilder.add additions .new = some builder →
          builder.freeze = pure graph →
            (Digraph.all N E additions).ReopensAs checksum
              (exportWeightedCsrSnapshot checksum graph) graph.topology) := by
  refine ⟨?_, ?_⟩
  · intro N E EW RW _ _ additions
    refine ⟨fun builder ran => ?_, fun builder ran => ?_⟩
    · exact GraphBuilder.freezesAs (GraphBuilder.keeps.runAll recorded_empty ran)
    · exact WeightedGraphBuilder.freezesAs (WeightedGraphBuilder.keeps.runAll recorded_empty ran)
  · intro N E EW RW _ _ checksum additions
    refine ⟨fun builder graph ran frozen => ?_, fun builder graph ran frozen => ?_⟩
    · obtain ⟨topology, built, same⟩ := Fallible.bind_eq_pure.mp frozen
      rw [← Fallible.pure_eq_pure.mp same]
      obtain ⟨memory, fits, _, grouped⟩ :=
        (GraphBuilder.keeps.runAll recorded_empty ran).grouped_of_freeze built
      exact grouped.reopensAs memory fits checksum
    · obtain ⟨topology, built, same⟩ := Fallible.bind_eq_pure.mp frozen
      rw [← Fallible.pure_eq_pure.mp same]
      obtain ⟨memory, fits, _, grouped⟩ :=
        (WeightedGraphBuilder.keeps.runAll recorded_empty ran).grouped_of_freeze built
      exact grouped.reopensAs memory fits checksum

/-- Three nodes, with two parallel edges and one that is refused. -/
def someAdditions : List (Addition UInt16 Unit Unit) :=
  [.node (), .node (), .node (), .edge 2 1 (), .edge 0 2 (), .edge 0 5 (), .edge 2 1 ()]

/-- The builder after these additions. -/
def someBuilder : GraphBuilder UInt16 UInt16 :=
  { nodeCount := 3, sources := [2, 0, 2], targets := [1, 2, 1] }

/-- The parallel edges are grouped in the order they were added, and reopen. -/
theorem builders_group_some_edges :
    ∃ graph : FrozenGraph UInt16 UInt16,
      someBuilder.freeze = pure graph ∧ graph.topology.traits.relationCount = 3 ∧
        (graph.topology.traits.outgoingEdges 2).map (·.map toNat) = some [0, 2] ∧
        (Digraph.all UInt16 UInt16 someAdditions).ReopensAs castagnoli.crc32cAppend
          (exportCsrSnapshot castagnoli.crc32cAppend graph) graph.topology := by
  have ran : Fallible.runAll GraphBuilder.add someAdditions .new = some someBuilder := by rfl
  have freezes := (builders_group_edges.1 UInt16 UInt16 Unit Unit someAdditions).1 someBuilder ran
  have frozen : someBuilder.freeze = pure
      ⟨⟨3, [0, 1, 1, 3], [1, 0, 2], [2, 1, 1], [2, 0, 2], [1, 2, 1]⟩⟩ := by rfl
  refine ⟨_, frozen, (freezes.answers _ frozen).relationCount, by rfl, ?_⟩
  exact (builders_group_edges.2 UInt16 UInt16 Unit Unit castagnoli.crc32cAppend someAdditions).1
    someBuilder _ ran frozen

end Oxgraph.Csr
