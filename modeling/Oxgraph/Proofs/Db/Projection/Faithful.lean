import Oxgraph.Proofs.Db.Database.Integrity
import Oxgraph.Proofs.Db.Projection.Collect

/-! The adjacency of a graph projection, and that the projection is a faithful multigraph. -/

namespace Oxgraph

open Layout Csr
open Fallible (adapt_eq_pure bind_of_pure)
open List (getElem?_map length_map map_map)

-- Building the adjacency.

/-- Rows that are laid out between consecutive offsets are read back. -/
theorem grouped_eq {offsets flat : List UInt32} {rows : List (List Nat)}
    (indexed : Indexed offsets flat rows) :
    grouped offsets flat rows.length = pure (rows.map fun row => row.map UInt32.ofNat) := by
  unfold grouped
  refine Fallible.mapM_eq_pure (List.forall₂_iff_get.mpr ⟨by simp, fun node inside other => ?_⟩)
  have within : node < rows.length := by simpa using inside
  have located := List.getElem?_eq_getElem within
  -- The two offsets of a node are there, and between them lies its row.
  obtain ⟨first, last, found, follow, start, stop⟩ := offset_words indexed located
  have slice := sliceOf_bucket indexed within
  rw [List.getD_eq_getElem _ _ within, ← stop, ← start] at slice
  simp only [List.get_eq_getElem, List.getElem_range, List.getElem_map, found, follow, toUsize_eq]
  have given (word : UInt32) : (Fallible.orPanic (some word) : Fallible DbError UInt32) =
      pure word := rfl
  refine (bind_of_pure (given first)).trans ?_
  rw [pure_bind]
  refine (bind_of_pure (given last)).trans ?_
  rw [pure_bind, slice]
  rfl

namespace GraphProjectionBuilder

/-- A node is added when `u32` can number it, and is numbered by the nodes before it. -/
theorem addNode_eq {count : Nat} (small : count < 2 ^ 32) :
    (Csr.GraphBuilder.addNode ⟨count, [], []⟩ : Fallible (Csr.GraphBuildError UInt32 UInt32) _) =
      pure (UInt32.ofNat count, ⟨count + 1, [], []⟩) := by
  have next : (nextDenseIndex count : Except Nat (UInt32 × Nat)) =
      .ok (UInt32.ofNat count, count + 1) :=
    nextDenseIndex_eq_ok.mpr ⟨LayoutIndex.toNat_ofNat count small, rfl,
      Nat.lt_of_le_of_lt (show count + 1 ≤ 2 ^ 32 by omega) (by decide)⟩
  unfold Csr.GraphBuilder.addNode
  rw [next]
  rfl

/-- Every interned element has a node of its own number. -/
theorem addNodes_eq (elements : List ElementId) (few : elements.length ≤ 2 ^ 32) :
    addNodes elements = pure (⟨elements.length, [], []⟩,
      (List.range elements.length).map UInt32.ofNat) := by
  unfold addNodes
  -- Node by node, each is numbered by those already added.
  refine Fallible.foldlM_through (fun done : List ElementId =>
    ((⟨done.length, [], []⟩, (List.range done.length).map UInt32.ofNat) :
      Csr.GraphBuilder UInt32 UInt32 × List UInt32)) ?_
  intro done element rest split
  have room : done.length < 2 ^ 32 := by
    rw [split, List.length_append, List.length_cons] at few
    omega
  have step := (adapt_eq_pure (f := fun _ => DbError.idOverflow .element)).mpr
    (addNode_eq room)
  rw [List.length_append, List.length_singleton, List.range_succ, List.map_append]
  exact bind_of_pure step

/-- An edge between two nodes is added when `u32` can number it. -/
theorem addEdge_eq {count : Nat} {sources targets : List UInt32} {source target : UInt32}
    (sourceKnown : source.toNat < count) (targetKnown : target.toNat < count)
    (paired : sources.length = targets.length) (few : sources.length < 2 ^ 32) :
    (Csr.GraphBuilder.addEdge ⟨count, sources, targets⟩ source target :
      Fallible (Csr.GraphBuildError UInt32 UInt32) _) = pure
        (UInt32.ofNat sources.length, ⟨count, sources ++ [source], targets ++ [target]⟩) := by
  have inMemory : sources.length < sliceBound (LayoutIndex.bytes UInt32) :=
    Nat.lt_of_lt_of_le few (by decide)
  have first : (ensureNode source count : Except (Csr.GraphBuildError UInt32 UInt32) Nat) =
      .ok source.toNat := (ensureNode_eq source count).trans (if_pos sourceKnown)
  have second : (ensureNode target count : Except (Csr.GraphBuildError UInt32 UInt32) Nat) =
      .ok target.toNat := (ensureNode_eq target count).trans (if_pos targetKnown)
  have edge : (indexFromUsize sources.length : Except Nat UInt32) =
      .ok (UInt32.ofNat sources.length) :=
    indexFromUsize_eq_ok.mpr (LayoutIndex.toNat_ofNat _ few)
  have one : pushOrPanic (LayoutIndex.bytes UInt32) sources source = some (sources ++ [source]) :=
    pushOrPanic_eq_some.mpr ⟨inMemory, rfl⟩
  have other : pushOrPanic (LayoutIndex.bytes UInt32) targets target = some (targets ++ [target]) :=
    pushOrPanic_eq_some.mpr ⟨paired ▸ inMemory, rfl⟩
  unfold Csr.GraphBuilder.addEdge
  dsimp only
  rw [first, second, edge, one, other]
  rfl

/-- The list of the first numbers has each of them at its own position. -/
theorem getElem?_numbers {count : Nat} {id : UInt32} (inside : id.toNat < count) :
    ((List.range count).map UInt32.ofNat)[localIndex id]? = some id := by
  rw [localIndex_eq, getElem?_map, List.getElem?_range inside]
  exact congrArg some UInt32.ofNat_toNat

/-- Every collected edge is added between the nodes of its ends. -/
theorem addEdges_eq {count : Nat}
    {endpoints : List (ProjectionElementId × ProjectionElementId)}
    (known : ∀ pair ∈ endpoints, pair.1.toNat < count ∧ pair.2.toNat < count)
    (fits : endpoints.length ≤ 2 ^ 32) :
    addEdges ((List.range count).map UInt32.ofNat) endpoints ⟨count, [], []⟩ =
      pure ⟨count, endpoints.map Prod.fst, endpoints.map Prod.snd⟩ := by
  unfold addEdges
  -- Edge by edge, from those already added.
  refine Fallible.foldlM_through (fun done : List (ProjectionElementId × ProjectionElementId) =>
    (⟨count, done.map Prod.fst, done.map Prod.snd⟩ : Csr.GraphBuilder UInt32 UInt32)) ?_
  rintro done ⟨source, target⟩ rest split
  obtain ⟨sourceKnown, targetKnown⟩ := known (source, target)
    (split ▸ List.mem_append_right _ List.mem_cons_self)
  have room : (done.map Prod.fst).length < 2 ^ 32 := by
    rw [split, List.length_append, List.length_cons] at fits
    rw [length_map]
    omega
  have paired : (done.map Prod.fst).length = (done.map Prod.snd).length := by
    rw [length_map, length_map]
  have added := addEdge_eq sourceKnown targetKnown paired room
  have step := (adapt_eq_pure (f := fun _ => DbError.idOverflow .relation)).mpr added
  dsimp only
  rw [getElem?_numbers sourceKnown, getElem?_numbers targetKnown, List.map_append, List.map_append]
  exact bind_of_pure step

/-- The multigraph of collected ends. -/
def digraph (count : Nat) (endpoints : List (ProjectionElementId × ProjectionElementId))
    (known : ∀ pair ∈ endpoints, pair.1.toNat < count ∧ pair.2.toNat < count) : Digraph where
  nodeCount := count
  edges := endpoints.map fun pair => (pair.1.toNat, pair.2.toNat)
  known edge member := by
    obtain ⟨pair, listed, rfl⟩ := List.mem_map.mp member
    exact known pair listed

section Finish

variable {builder : GraphProjectionBuilder}
  (known : ∀ pair ∈ builder.endpoints,
    pair.1.toNat < builder.elements.length ∧ pair.2.toNat < builder.elements.length)
  (few : builder.elements.length ≤ 2 ^ 32)

/-- A finished projection holds the rows of the multigraph of its ends, and of the converse. -/
def finished (builder : GraphProjectionBuilder) (graph : Digraph) : GraphProjection where
  definition := builder.definition
  elements := builder.elements
  elementIndex := builder.elementIndex
  relations := builder.relations
  relationIndex := builder.relationIndex
  endpoints := builder.endpoints
  outEdges := graph.rows.map fun row => row.map UInt32.ofNat
  inEdges := graph.converse.rows.map fun row => row.map UInt32.ofNat
  successors := graph.targetRows.map fun row => row.map UInt32.ofNat
  predecessors := graph.converse.targetRows.map fun row => row.map UInt32.ofNat

/-- Collected edges are recorded for the freeze. -/
theorem recorded (fits : builder.endpoints.length ≤ 2 ^ 32) :
    Recorded builder.elements.length (builder.endpoints.map Prod.fst)
      (builder.endpoints.map Prod.snd) (digraph _ _ known) := by
  refine ⟨rfl, ?_, by simp, ?_⟩
  · show _ = builder.endpoints.map _
    rw [List.zip_map', map_map]
    rfl
  · rw [length_map]
    exact Nat.le_trans fits (by decide)

include few

/-- Edges that `u32` can count are grouped by their sources and by their targets. -/
theorem finish_eq (fits : builder.endpoints.length < 2 ^ 32) :
    builder.finish = pure (finished builder (digraph _ _ known)) := by
  have records := recorded known (Nat.le_of_lt fits)
  have memory : builder.elements.length + 1 ≤ sliceBound usizeBytes :=
    Nat.le_trans (Nat.succ_le_succ few) (by decide)
  have counted : (digraph _ _ known).edges.length < LayoutIndex.bound UInt32 := by
    show (builder.endpoints.map _).length < 2 ^ 32
    rwa [length_map]
  have numbered {count : Nat} (small : count < LayoutIndex.bound UInt32) :
      count ≤ sliceBound (LayoutIndex.bytes UInt32) :=
    Nat.le_trans (Nat.le_of_lt small) (by decide)
  -- The forward rows are the freeze of the edges as recorded, the reverse rows of the converse.
  have forward := @Recorded.freezeTopology_eq UInt32 UInt32 _ _ _ _ _ _ records memory counted
    (numbered counted)
  have groupedForward := records.groupedBy (E := UInt32) counted
  have converse := groupedForward.recorded_converse (numbered counted)
  have countedBack : (digraph _ _ known).converse.edges.length < LayoutIndex.bound UInt32 := by
    show ((digraph _ _ known).edges.map Prod.swap).length < _
    rwa [length_map]
  have reverse := @Recorded.freezeTopology_eq UInt32 UInt32 _ _ _ _ _ _ converse memory countedBack
    (numbered countedBack)
  have groupedReverse := converse.groupedBy (E := UInt32) countedBack
  have frozen := (adapt_eq_pure (f := fun _ => DbError.idOverflow .relation)).mpr
    (show Csr.GraphBuilder.freeze ⟨_, _, _⟩ = pure (FrozenGraph.mk _) from
      (bind_of_pure forward).trans rfl)
  -- Transposing is freezing the converse, which has as many edges.
  have transposed := (adapt_eq_pure (f := fun _ => DbError.idOverflow .relation)).mpr
    (show (FrozenGraph.mk (groupedTopology builder.elements.length
        (builder.endpoints.map Prod.fst) (builder.endpoints.map Prod.snd))).transpose =
        pure (FrozenGraph.mk _) from (bind_of_pure reverse).trans rfl)
  -- Both freezes are grouped into one row a node.
  have rows {graph : Digraph} {topology : FrozenTopology UInt32 UInt32}
      (groups : graph.GroupedBy topology) (nodes : graph.nodeCount = builder.elements.length) :
      grouped topology.offsets topology.targets builder.elements.length =
          pure (graph.targetRows.map fun row => row.map UInt32.ofNat) ∧
        grouped topology.offsets topology.edgeIds builder.elements.length =
          pure (graph.rows.map fun row => row.map UInt32.ofNat) := by
    have length : graph.rows.length = builder.elements.length := Digraph.length_rows.trans nodes
    have targets : graph.targetRows.length = builder.elements.length := by
      unfold Digraph.targetRows
      rw [length_map, length]
    exact ⟨targets ▸ grouped_eq groups.targets, length ▸ grouped_eq groups.edges⟩
  obtain ⟨successors, outEdges⟩ := rows groupedForward rfl
  obtain ⟨predecessors, inEdges⟩ := rows groupedReverse rfl
  -- Each step of the source returns, in its order.
  unfold finish
  refine (bind_of_pure (addNodes_eq _ few)).trans ?_
  refine (bind_of_pure (addEdges_eq known (Nat.le_of_lt fits))).trans ?_
  refine (bind_of_pure frozen).trans ?_
  refine (bind_of_pure transposed).trans ?_
  refine (bind_of_pure successors).trans ?_
  refine (bind_of_pure outEdges).trans ?_
  refine (bind_of_pure predecessors).trans ?_
  refine (bind_of_pure inEdges).trans ?_
  rfl

include known

/-- Edges that `u32` cannot count are refused. -/
theorem finish_error (fits : builder.endpoints.length ≤ 2 ^ 32)
    (many : 2 ^ 32 ≤ builder.endpoints.length) : ∃ error, builder.finish = throw error := by
  have records := recorded known fits
  have memory : builder.elements.length + 1 ≤ sliceBound usizeBytes :=
    Nat.le_trans (Nat.succ_le_succ few) (by decide)
  have wide : LayoutIndex.bound UInt32 ≤ (digraph _ _ known).edges.length := by
    show 2 ^ 32 ≤ (builder.endpoints.map _).length
    rwa [length_map]
  obtain ⟨error, raised⟩ :=
    @Recorded.freezeTopology_error UInt32 UInt32 _ _ _ _ _ _ records memory wide
  refine ⟨.idOverflow .relation, ?_⟩
  unfold finish
  refine (bind_of_pure (addNodes_eq _ few)).trans ?_
  refine (bind_of_pure (addEdges_eq known fits)).trans ?_
  -- The nodes and the edges are added; the freeze is what cannot count them.
  unfold Csr.GraphBuilder.freeze
  rw [raised]
  rfl

end Finish

-- What the rows list.

/-- The row of a node lists the edges from it, and the row of targets their other ends. -/
theorem rows_list {graph : Digraph} {ends : List (ProjectionElementId × ProjectionElementId)}
    (same : graph.edges = ends.map fun pair => (pair.1.toNat, pair.2.toNat))
    (fits : ends.length < 2 ^ 32) {node : ProjectionElementId}
    (inside : node.toNat < graph.nodeCount) : ∃ row others,
    (graph.rows.map fun row => row.map UInt32.ofNat)[node.toNat]? = some row ∧
      (graph.targetRows.map fun row => row.map UInt32.ofNat)[node.toNat]? = some others ∧
      Ascending row ∧ (∀ edge : UInt32, edge ∈ row ↔ (ends[edge.toNat]?).map Prod.fst = some node) ∧
      row.map (fun edge => (ends[edge.toNat]?).map Prod.snd) = others.map some := by
  have small {edge : Nat} (member : edge ∈ graph.outgoing node.toNat) : edge < 2 ^ 32 := by
    have bound := Digraph.lt_of_mem_outgoing member
    rw [same, length_map] at bound
    omega
  -- Edges are numbered in `u32`, so a number that is listed is its own ID.
  have number {edge : Nat} (member : edge ∈ graph.outgoing node.toNat) :
      (UInt32.ofNat edge).toNat = edge := UInt32.toNat_ofNat_of_lt' (small member)
  have source (edge : Nat) : graph.source edge = some node.toNat ↔
      (ends[edge]?).map Prod.fst = some node := by
    unfold Digraph.source
    rw [same, getElem?_map]
    cases ends[edge]? with
    | none => simp
    | some pair => simp [UInt32.toNat_inj]
  refine ⟨(graph.outgoing node.toNat).map UInt32.ofNat,
    ((graph.outgoing node.toNat).map fun edge => (graph.edges.getD edge (0, 0)).2).map UInt32.ofNat,
    ?_, ?_, ?_, fun edge => ?_, ?_⟩
  · rw [getElem?_map, Digraph.getElem?_rows inside]
    rfl
  · rw [getElem?_map, Digraph.getElem?_targetRows inside]
    rfl
  · -- The edges of a node are listed by their numbers, which fit.
    have sorted : (graph.outgoing node.toNat).Pairwise (· < ·) :=
      List.Pairwise.filter _ List.pairwise_lt_range
    refine List.pairwise_map.mpr (sorted.imp_of_mem fun first second before => ?_)
    rw [Std.compare_eq_lt, UInt32.lt_iff_toNat_lt, number first, number second]
    exact before
  · -- An edge is in the row of its source, under its own number.
    rw [List.mem_map, ← source, ← Digraph.mem_outgoing]
    constructor
    · rintro ⟨other, member, rfl⟩
      rwa [number member]
    · intro member
      exact ⟨edge.toNat, member, UInt32.ofNat_toNat⟩
  · -- At each position the row of targets has the target of the edge there.
    rw [map_map, map_map, map_map]
    refine List.map_congr_left fun edge member => ?_
    have valid := Digraph.lt_of_mem_outgoing member
    have inEnds : edge < ends.length := by rwa [same, length_map] at valid
    simp only [Function.comp_apply, number member]
    rw [List.getD_eq_getElem _ _ valid, List.getElem?_eq_getElem inEnds]
    simp [same]

end GraphProjectionBuilder

open GraphProjectionBuilder

section Views

variable {view : LayeredState} {definition : GraphProjectionDefinition}
  {builder : GraphProjectionBuilder}

/-- The item of a list that corresponds to one of another at the same position. -/
theorem forall₂_getElem? {A B : Type} {related : A → B → Prop} {items : List A} {others : List B}
    (each : List.Forall₂ related items others) {position : Nat} {item : A}
    (located : items[position]? = some item) :
    ∃ other, others[position]? = some other ∧ related item other := by
  induction each generalizing position with
  | nil => cases located
  | cons one _ ih =>
    cases position with
    | zero =>
      cases located
      exact ⟨_, rfl, one⟩
    | succ position => exact ih located

/-- The ends of collected relations are interned elements. -/
theorem GraphProjectionBuilder.Collected.known (collected : Collected view definition builder) :
    ∀ pair ∈ builder.endpoints,
      pair.1.toNat < builder.elements.length ∧ pair.2.toNat < builder.elements.length := by
  intro pair member
  -- A pair of ends stands beside the relation it was collected for.
  obtain ⟨position, located⟩ := List.mem_iff_getElem?.mp member
  obtain ⟨id, _, ⟨source, here, _⟩, target, there, _⟩ :=
    forall₂_getElem? collected.endpoints.flip located
  exact ⟨(List.getElem?_eq_some_iff.mp here).1, (List.getElem?_eq_some_iff.mp there).1⟩

/-- What is finished from collected relations is a faithful multigraph of them. -/
theorem finished_faithful (collected : Collected view definition builder)
    (fits : builder.endpoints.length < 2 ^ 32) (ordered : Ascending builder.relations)
    (selected : ∀ id, id ∈ builder.relations ↔ id ∈ view.Selected definition) :
    (finished builder (digraph _ _ collected.known)).Faithful view definition where
  defined := collected.defined
  ordered := ordered
  relations := selected
  elements element := by
    show element ∈ builder.elements ↔ _
    rw [collected.members]
    simp only [selected]
    rfl
  relationCovered inside := by
    obtain ⟨edge, rfl⟩ := collected.relations.covered inside
    exact ⟨edge, localIndex_eq edge⟩
  relationIds {id edge} := by
    unfold GraphProjection.canonicalRelationId
    rw [localIndex_eq]
    exact collected.relations.found
  elementCovered inside := by
    obtain ⟨element, rfl⟩ := collected.elements.covered inside
    exact ⟨element, localIndex_eq element⟩
  elementIds {id element} := by
    unfold GraphProjection.canonicalElementId
    rw [localIndex_eq]
    exact collected.elements.found
  source {edge id} located := by
    unfold GraphProjection.canonicalRelationId at located
    rw [localIndex_eq] at located
    obtain ⟨pair, ends, ⟨source, here, starts⟩, _⟩ := forall₂_getElem? collected.endpoints located
    refine ⟨pair.1, source, ?_, ?_, starts⟩
    · unfold GraphProjection.source
      rw [localIndex_eq]
      exact congrArg (Option.map Prod.fst) ends
    · unfold GraphProjection.canonicalElementId
      rwa [localIndex_eq]
  target {edge id} located := by
    unfold GraphProjection.canonicalRelationId at located
    rw [localIndex_eq] at located
    obtain ⟨pair, ends, _, target, there, stops⟩ := forall₂_getElem? collected.endpoints located
    refine ⟨pair.2, target, ?_, ?_, stops⟩
    · unfold GraphProjection.target
      rw [localIndex_eq]
      exact congrArg (Option.map Prod.snd) ends
    · unfold GraphProjection.canonicalElementId
      rwa [localIndex_eq]
  endpoints := collected.endpoints.length_eq.symm
  outgoing element contained := by
    unfold GraphProjection.containsElement at contained
    rw [localIndex_eq, decide_eq_true_eq] at contained
    unfold GraphProjection.outgoingEdges GraphProjection.elementSuccessors GraphProjection.source
      GraphProjection.target
    simp only [localIndex_eq]
    exact rows_list rfl fits contained
  incoming element contained := by
    unfold GraphProjection.containsElement at contained
    rw [localIndex_eq, decide_eq_true_eq] at contained
    unfold GraphProjection.incomingEdges GraphProjection.elementPredecessors GraphProjection.source
      GraphProjection.target
    simp only [localIndex_eq]
    -- The rows of the converse are those of the swapped ends.
    have swapped : (digraph _ _ collected.known).converse.edges =
        (builder.endpoints.map Prod.swap).map fun pair => (pair.1.toNat, pair.2.toNat) := by
      show (builder.endpoints.map _).map Prod.swap = _
      rw [map_map, map_map]
      rfl
    -- So near and far exchange their ends.
    have near (edge : Nat) : ((builder.endpoints.map Prod.swap)[edge]?).map Prod.fst =
        (builder.endpoints[edge]?).map Prod.snd := by
      rw [getElem?_map, Option.map_map]
      rfl
    have far (edge : Nat) : ((builder.endpoints.map Prod.swap)[edge]?).map Prod.snd =
        (builder.endpoints[edge]?).map Prod.fst := by
      rw [getElem?_map, Option.map_map]
      rfl
    have rows := rows_list swapped (by rwa [length_map]) contained
    simp only [near, far] at rows
    exact rows

/-- Keys that `u32` numbers are at most as many as it has values. -/
theorem Numbered.length_le {K : Type} [Ord K] [Std.TransOrd K] {items : List K}
    {index : BTreeMap K UInt32} (numbered : Numbered UInt32.toNat items index) :
    items.length ≤ 2 ^ 32 := by
  by_contra more
  obtain ⟨id, past⟩ := numbered.covered (Nat.lt_of_not_le more)
  have small := id.toNat_lt
  omega

/-- A list without repeats is as long as the set of its items is large. -/
theorem ncard_of_nodup {T : Type} [DecidableEq T] {items : List T} {set : Set T}
    (distinct : items.Nodup) (members : ∀ item, item ∈ items ↔ item ∈ set) :
    set.ncard = items.length := by
  -- Its finite set has the same items, and as many.
  have same : set = ↑items.toFinset := by
    ext item
    rw [← members, Finset.mem_coe, List.mem_toFinset]
  rw [same, Set.ncard_coe_finset, List.toFinset_card_of_nodup distinct]

/-- A set is empty when nothing is in it. -/
theorem isEmpty_set_iff {K : Type} [Ord K] [Std.TransOrd K] [Std.LawfulEqOrd K] {set : BTreeSet K} :
    set.isEmpty ↔ ∀ item, item ∉ set := by
  rw [Std.ExtTreeSet.isEmpty_iff]
  constructor
  · rintro rfl
    simp
  · intro none
    ext item
    simp [none item]

instance : Finite ElementId :=
  Finite.of_injective UInt64.toFin fun _ _ => UInt64.toFin_inj.mp

/-- The relations of some types, in id order. -/
theorem selectedBy_relations (coherent : view.Coherent) (relationTypes : BTreeSet RelationTypeId) :
    Ascending ((view.relations.filter fun relation =>
        relationSelected relation relationTypes).map RelationRecord.id) ∧
      ∀ id, id ∈ (view.relations.filter fun relation =>
        relationSelected relation relationTypes).map RelationRecord.id ↔
          id ∈ view.SelectedBy relationTypes := by
  obtain ⟨members, sorted⟩ := relations_spec coherent
  have selects (record : RelationRecord) : relationSelected record relationTypes ↔
      (∀ relationType, relationType ∉ relationTypes) ∨
        ∃ relationType ∈ relationTypes, record.relationType = some relationType := by
    unfold relationSelected
    rw [← isEmpty_set_iff]
    -- A definition without types selects every relation, typed or not.
    cases record.relationType with
    | none => simp
    | some relationType => simp [Std.ExtTreeSet.contains_iff_mem]
  -- A record is stored under its own id, so what is selected of records is selected of ids.
  refine ⟨ascending_map_filter sorted _, fun id => ?_⟩
  simp only [List.mem_map, List.mem_filter, members, selects]
  constructor
  · rintro ⟨record, ⟨visible, selected⟩, rfl⟩
    exact ⟨record, visible, selected⟩
  · rintro ⟨record, visible, selected⟩
    obtain rfl := coherent.keyed.relation visible
    exact ⟨record, ⟨visible, selected⟩, rfl⟩

/-- The relations a projection selects, in id order. -/
theorem selected_relations (coherent : view.Coherent) (definition : GraphProjectionDefinition) :
    Ascending ((view.relations.filter fun relation =>
        relationSelected relation definition.relationTypes).map RelationRecord.id) ∧
      ∀ id, id ∈ (view.relations.filter fun relation =>
        relationSelected relation definition.relationTypes).map RelationRecord.id ↔
          id ∈ view.Selected definition :=
  selectedBy_relations coherent definition.relationTypes

/-- Binary relations that `u32` can count are all pushed when it can number their ends. -/
theorem exists_pushAll_of_binary (sound : view.Sound) (binary : view.Binary definition)
    (few : (view.Selected definition).ncard < 2 ^ 32)
    (fits : (view.Projected definition).ncard ≤ 2 ^ 32) : ∃ after,
    (view.relations.filter fun relation =>
      relationSelected relation definition.relationTypes).foldlM (pushRelation view)
        (.new definition) = .ok after := by
  obtain ⟨ordered, selected⟩ := selected_relations sound.coherent definition
  have count := ncard_of_nodup ordered.nodup selected
  -- Everything that is interned is one of the elements that the relations have as their ends.
  let pool := (Set.toFinite (view.Projected definition)).toFinset
  have card : pool.card ≤ 2 ^ 32 := by
    rwa [← Set.ncard_eq_toFinset_card]
  refine @Collected.exists_pushAll (new definition) view definition sound.coherent sound.represents
    (view.relations.filter fun relation => relationSelected relation definition.relationTypes)
    collected_new pool card (fun _ member => (nomatch member)) ?_
    (by simpa [new] using ordered.nodup) ?_
  · intro record member
    have chosen := (selected record.id).mp (List.mem_map_of_mem member)
    obtain ⟨⟨source, starts⟩, target, stops⟩ := binary record.id chosen
    refine ⟨⟨source, ?_, starts⟩, target, ?_, stops⟩
    · exact (Set.Finite.mem_toFinset _).mpr ⟨record.id, chosen, .inl starts⟩
    · exact (Set.Finite.mem_toFinset _).mpr ⟨record.id, chosen, .inr stops⟩
  · rw [count, length_map] at few
    show 0 + _ ≤ 2 ^ 32
    omega

/--
A graph projection is there exactly when each selected relation has one source and one target and
`u32` can count the relations and number the elements, and then it is a faithful multigraph.
-/
theorem projection_faithful (sound : view.Sound) (definition : GraphProjectionDefinition) :
    ((∃ projection, GraphProjection.fromState view definition = pure projection) ↔
      view.Binary definition ∧ (view.Selected definition).ncard < 2 ^ 32 ∧
        (view.Projected definition).ncard ≤ 2 ^ 32) ∧
    (∀ projection, GraphProjection.fromState view definition = pure projection →
      projection.Faithful view definition) ∧
    (GraphProjection.fromState view definition).Total := by
  obtain ⟨ordered, selected⟩ := selected_relations sound.coherent definition
  -- As many relations are listed as are selected, since ids ascend.
  have count := ncard_of_nodup ordered.nodup selected
  have coherent := sound.coherent
  have represents := sound.represents
  unfold GraphProjection.fromState
  cases folded : (view.relations.filter fun relation =>
      relationSelected relation definition.relationTypes).foldlM (pushRelation view)
      (.new definition) with
  | error error =>
    -- The relations would all have been pushed, had they two ends each and enough numbers.
    refine ⟨⟨fun never => absurd never Fallible.not_exists_throw, fun conditions => ?_⟩,
      fun _ never => absurd never Fallible.throw_ne_pure, Fallible.total_throw error⟩
    obtain ⟨binary, few, fits⟩ := conditions
    obtain ⟨after, pushed⟩ := exists_pushAll_of_binary sound binary few fits
    cases folded.symm.trans pushed
  | ok builder =>
    obtain ⟨collected, relations⟩ := collected_new.pushAll coherent represents
      (by simpa [new] using ordered.nodup) folded
    rw [show (new definition).relations = [] from rfl, List.nil_append] at relations
    rw [← relations] at ordered selected count
    -- What was interned is what the selected relations have as their ends.
    have projected (element : ElementId) : element ∈ builder.elements ↔
        element ∈ view.Projected definition := by
      rw [collected.members]
      simp only [selected]
      rfl
    have few := collected.elements.length_le
    have size := collected.endpoints.length_eq
    have sizes := ncard_of_nodup collected.elements.nodup projected
    show ((∃ projection, builder.finish = pure projection) ↔ _) ∧
      (∀ projection, builder.finish = pure projection → _) ∧ builder.finish.Total
    rcases Nat.lt_or_ge builder.endpoints.length (2 ^ 32) with fits | many
    · -- The edges can be counted: the projection is finished, and what it needed was met.
      have finishes := finish_eq collected.known few fits
      refine ⟨⟨fun _ => ⟨fun id member => ?_, ?_, ?_⟩, fun _ => ⟨_, finishes⟩⟩, ?_, ?_⟩
      · obtain ⟨position, located⟩ := List.mem_iff_getElem?.mp ((selected id).mpr member)
        obtain ⟨pair, _, ⟨source, _, starts⟩, target, _, stops⟩ :=
          forall₂_getElem? collected.endpoints located
        exact ⟨⟨source, starts⟩, target, stops⟩
      · rw [count, size]
        exact fits
      · rw [sizes]
        exact few
      · intro projection built
        rw [← Fallible.pure_eq_pure.mp (finishes.symm.trans built)]
        exact finished_faithful collected fits ordered selected
      · rw [finishes]
        exact Fallible.total_pure _
    · -- One edge too many is refused, and there are as many selected relations as edges.
      obtain ⟨error, raised⟩ := finish_error collected.known few
        (size ▸ collected.relations.length_le) many
      rw [raised]
      refine ⟨⟨fun never => absurd never Fallible.not_exists_throw, fun conditions => ?_⟩,
        fun _ never => absurd never Fallible.throw_ne_pure, Fallible.total_throw error⟩
      obtain ⟨_, counted, _⟩ := conditions
      rw [count, size] at counted
      exact absurd counted (Nat.not_lt.mpr many)

end Views

/--
A store of two elements and three relations: one each way, and one parallel to the first whose
target was attached before its source.
-/
def graphWriter : Writer :=
  WriterOp.runAll [.registerRole "source", .registerRole "target", .registerRelationType "edge",
      .createElement, .createElement,
      .createRelation, .setRelationType 1 1, .createIncidence 1 2 1, .createIncidence 1 1 2,
      .createRelation, .setRelationType 2 1, .createIncidence 2 1 1, .createIncidence 2 2 2,
      .createRelation, .setRelationType 3 1, .createIncidence 3 1 2, .createIncidence 3 2 1]
    ⟨⟨0, 0, .empty .initial .empty, .empty⟩, .fromOverlay (.empty .initial .empty), 1⟩

theorem graphWriter_sound : graphWriter.merged.Sound :=
  Writer.Step.sound (WriterOp.runAll_steps _ _) LayeredState.sound_empty

/-- The projection over the edges from their sources to their targets. -/
def edgesDefinition : GraphProjectionDefinition where
  name := "edges"
  relationTypes := ∅
  sourceRole := 1
  targetRole := 2

/-- The parallel edges follow one another in the row of their source. -/
theorem projection_faithful_edges : ∃ projection,
    GraphProjection.fromState graphWriter.merged edgesDefinition = pure projection ∧
      projection.Faithful graphWriter.merged edgesDefinition ∧
      projection.elements = [2, 1] ∧ projection.outEdges = [[0, 2], [1]] := by
  obtain ⟨_, faithful, _⟩ := projection_faithful graphWriter_sound edgesDefinition
  obtain ⟨projection, built, rows⟩ := Fallible.exists_of_returns
    (show (GraphProjection.fromState graphWriter.merged edgesDefinition).returns
      (fun projection => projection.elements = [2, 1] ∧ projection.outEdges = [[0, 2], [1]]) = true
      by decide +kernel)
  obtain ⟨elements, outEdges⟩ := of_decide_eq_true rows
  exact ⟨projection, built, faithful projection built, elements, outEdges⟩

end Oxgraph
