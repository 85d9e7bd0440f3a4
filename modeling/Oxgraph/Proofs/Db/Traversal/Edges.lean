import Oxgraph.Proofs.Db.Traversal.Search

/-! The internal edges of a discovered set: the selected relations inside it, in relation order. -/

namespace Oxgraph

namespace LayeredState.IsEdge

/-- A relation is that of one edge. -/
theorem unique {view : LayeredState} {definition : GraphProjectionDefinition}
    {edge other : TraversedEdge} (one : view.IsEdge definition edge)
    (two : view.IsEdge definition other) (same : edge.relation = other.relation) :
    edge = other := by
  obtain ⟨relation, source, target⟩ := edge
  obtain ⟨relation', source', target'⟩ := other
  -- Each end is the sole one of its role, so the relation determines both.
  cases same
  cases one.2.1.unique two.2.1
  cases one.2.2.unique two.2.2
  rfl

end LayeredState.IsEdge

namespace GraphProjection

variable {view : LayeredState} {definition : GraphProjectionDefinition}
  {projection : GraphProjection} {discovered : BTreeMap ElementId ProjectionElementId}

/-- What is collected from local edges: those that lead to discovered elements, once each. -/
structure CollectedEdges (projection : GraphProjection)
    (discovered : BTreeMap ElementId ProjectionElementId)
    (state : BTreeSet RelationId × List TraversedEdge) (processed : List ProjectionRelationId) :
    Prop where
  seen : ∀ relation, relation ∈ state.1 ↔ ∃ edge ∈ state.2, edge.relation = relation
  once : (state.2.map TraversedEdge.relation).Nodup
  members : ∀ shown, shown ∈ state.2 ↔ shown.target ∈ discovered ∧
    ∃ edge ∈ processed, projection.traversedEdge edge = some shown

/-- Nothing is collected from no edges. -/
theorem CollectedEdges.nil : projection.CollectedEdges discovered (∅, []) [] :=
  ⟨by simp, List.nodup_nil, by simp⟩

namespace Faithful

variable (faithful : projection.Faithful view definition)
  {state : BTreeSet RelationId × List TraversedEdge} {processed : List ProjectionRelationId}
include faithful

/-- A shown edge is one of the view. -/
theorem isEdge_of_shown {edge : ProjectionRelationId} {shown : TraversedEdge}
    (shows : projection.traversedEdge edge = some shown) : view.IsEdge definition shown := by
  have whole := shows
  unfold traversedEdge at shows
  simp only [Option.bind_eq_bind, Option.bind_eq_some_iff] at shows
  obtain ⟨source, starts, _, _, target, stops, _⟩ := shows
  obtain ⟨again, same, isEdge, _⟩ := faithful.traversedEdge_of_ends starts stops
  cases whole.symm.trans same
  exact isEdge

/-- One more edge is collected when its target is discovered. -/
theorem collectEdge_eq (collected : projection.CollectedEdges discovered state processed)
    {edge : ProjectionRelationId} {shown : TraversedEdge}
    (shows : projection.traversedEdge edge = some shown) : ∃ after,
      projection.collectEdge discovered state edge = some after ∧
        projection.CollectedEdges discovered after (processed ++ [edge]) := by
  obtain ⟨seen, once, members⟩ := collected
  obtain ⟨relations, edges⟩ := state
  -- What has to be kept of the members, whatever happens to the edge.
  have more (other : TraversedEdge) : (other.target ∈ discovered ∧
      ∃ item ∈ processed ++ [edge], projection.traversedEdge item = some other) ↔
        other ∈ edges ∨ other = shown ∧ shown.target ∈ discovered := by
    rw [members]
    simp only [List.mem_append, List.mem_singleton, or_and_right, exists_or, exists_eq_left, shows,
      Option.some.injEq, and_or_left]
    refine or_congr_right ⟨?_, ?_⟩
    · rintro ⟨reached, rfl⟩
      exact ⟨rfl, reached⟩
    · rintro ⟨rfl, reached⟩
      exact ⟨reached, rfl⟩
  have starts : projection.collectEdge discovered (relations, edges) edge =
      if !discovered.contains shown.target then some (relations, edges)
      else if relations.contains shown.relation then some (relations, edges)
      else some (relations.insert shown.relation, edges ++ [shown]) := by
    unfold collectEdge
    rw [shows]
    rfl
  -- An edge is collected unless its target is undiscovered or its relation already seen.
  by_cases reached : shown.target ∈ discovered
  · rw [if_neg (by simpa [Std.ExtTreeMap.contains_iff_mem] using reached)] at starts
    by_cases known : shown.relation ∈ relations
    · rw [if_pos (Std.ExtTreeSet.contains_iff_mem.mpr known)] at starts
      refine ⟨_, starts, seen, once, fun other => ?_⟩
      rw [more]
      -- The relation is that of one edge, which has been collected.
      refine (or_iff_left_of_imp ?_).symm
      rintro ⟨rfl, _⟩
      obtain ⟨twin, member, same⟩ := (seen _).mp known
      obtain ⟨_, _, _, twinShows⟩ := (members twin).mp member
      have equal :=
        (faithful.isEdge_of_shown twinShows).unique (faithful.isEdge_of_shown shows) same
      exact equal ▸ member
    · rw [if_neg fun contains => known (Std.ExtTreeSet.contains_iff_mem.mp contains)] at starts
      refine ⟨_, starts, fun relation => ?_, ?_, fun other => ?_⟩
      · rw [mem_insert_set, seen]
        simp only [List.mem_append, List.mem_singleton, or_and_right, exists_or, exists_eq_left]
        exact or_comm
      · rw [List.map_append]
        refine once.append (List.nodup_singleton _) ?_
        intro relation old new
        rw [List.map_singleton, List.mem_singleton] at new
        obtain ⟨twin, member, same⟩ := List.mem_map.mp old
        exact known (new ▸ (seen _).mpr ⟨twin, member, same⟩)
      · rw [more, List.mem_append, List.mem_singleton, and_iff_left reached]
  · have missing : discovered.contains shown.target = false :=
      Bool.eq_false_iff.mpr (mt Std.ExtTreeMap.contains_iff_mem.mp reached)
    rw [missing, if_pos (by decide)] at starts
    refine ⟨_, starts, seen, once, fun other => ?_⟩
    rw [more, or_iff_left fun never => reached never.2]

/-- Edges are collected one after the other. -/
theorem collectEdges_eq (collected : projection.CollectedEdges discovered state processed)
    {edges : List ProjectionRelationId}
    (shows : ∀ edge ∈ edges, ∃ shown, projection.traversedEdge edge = some shown) : ∃ after,
      edges.foldlM (projection.collectEdge discovered) state = some after ∧
        projection.CollectedEdges discovered after (processed ++ edges) := by
  induction edges generalizing state processed with
  | nil => exact ⟨state, rfl, by rwa [List.append_nil]⟩
  | cons edge rest ih =>
    -- The state after one edge is the one the next edge starts from.
    obtain ⟨⟨shown, here⟩, others⟩ := List.forall_mem_cons.mp shows
    obtain ⟨middle, step, collectedHere⟩ := faithful.collectEdge_eq collected here
    obtain ⟨after, steps, collectedAll⟩ := ih collectedHere others
    refine ⟨after, ?_, ?_⟩
    · rw [List.foldlM_cons, step]
      exact steps
    · rwa [List.append_assoc] at collectedAll

/-- The outgoing edges of an element of the projection are those that show it as their source. -/
theorem outgoing_shows {element : ProjectionElementId} {canonical : ElementId}
    (located : projection.canonicalElementId element = some canonical) : ∃ row,
      projection.outgoingEdges element = some row ∧
        (∀ edge ∈ row, ∃ shown, projection.traversedEdge edge = some shown) ∧
        ∀ shown, (∃ edge ∈ row, projection.traversedEdge edge = some shown) ↔
          view.IsEdge definition shown ∧ shown.source = canonical := by
  obtain ⟨row, others, same, _, _, members, positions⟩ :=
    faithful.outgoing element (contained_iff.mpr ⟨canonical, located⟩)
  -- The row of targets is the row of edges read at their other ends, so every edge has one.
  have ends {edge : ProjectionRelationId} (member : edge ∈ row) :
      ∃ target, projection.target edge = some target := by
    have listed : projection.target edge ∈ others.map some :=
      positions ▸ List.mem_map_of_mem member
    obtain ⟨target, _, stops⟩ := List.mem_map.mp listed
    exact ⟨target, stops.symm⟩
  refine ⟨row, same, fun edge member => ?_, fun shown => ⟨?_, ?_⟩⟩
  · obtain ⟨target, stops⟩ := ends member
    obtain ⟨shown, shows, _⟩ := faithful.traversedEdge_of_ends ((members edge).mp member) stops
    exact ⟨shown, shows⟩
  · -- An edge of the row starts at the element the row is of.
    rintro ⟨edge, member, shows⟩
    obtain ⟨target, stops⟩ := ends member
    obtain ⟨again, showsAgain, isEdge, _, source, _⟩ :=
      faithful.traversedEdge_of_ends ((members edge).mp member) stops
    cases shows.symm.trans showsAgain
    cases source.symm.trans located
    exact ⟨isEdge, rfl⟩
  · -- A relation from the element has a local edge, which starts where the row is.
    rintro ⟨isEdge, rfl⟩
    obtain ⟨edge, source, target, starts, _, shows, there, _⟩ := faithful.exists_ends isEdge
    have alike := (faithful.elementIds.mpr there).symm.trans (faithful.elementIds.mpr located)
    cases alike
    exact ⟨edge, (members edge).mpr starts, shows⟩

/-- The rows of elements of the projection are collected one after the other. -/
theorem collectRows_eq (collected : projection.CollectedEdges discovered state processed)
    {entries : List (ElementId × ProjectionElementId)}
    (located : ∀ entry ∈ entries, projection.canonicalElementId entry.2 = some entry.1) :
    ∃ after rows,
      entries.foldlM (fun state entry => do
        let outgoing ← projection.outgoingEdges entry.2
        outgoing.foldlM (projection.collectEdge discovered) state) state = some after ∧
        projection.CollectedEdges discovered after (processed ++ rows) ∧
        ∀ shown, (∃ edge ∈ rows, projection.traversedEdge edge = some shown) ↔
          view.IsEdge definition shown ∧ ∃ entry ∈ entries, shown.source = entry.1 := by
  induction entries generalizing state processed with
  | nil => exact ⟨state, [], rfl, by rwa [List.append_nil], by simp⟩
  | cons entry rest ih =>
    obtain ⟨here, others⟩ := List.forall_mem_cons.mp located
    obtain ⟨row, same, shows, shown⟩ := faithful.outgoing_shows here
    obtain ⟨middle, step, collectedHere⟩ := faithful.collectEdges_eq collected shows
    obtain ⟨after, rows, steps, collectedAll, shownAll⟩ := ih collectedHere others
    refine ⟨after, row ++ rows, ?_, ?_, fun edge => ?_⟩
    · rw [List.foldlM_cons, same]
      show (row.foldlM (projection.collectEdge discovered) state >>= _) = _
      rw [step]
      exact steps
    · rwa [List.append_assoc] at collectedAll
    · -- An edge is in the rows when its source is the first entry or one of the others.
      simp only [List.mem_append, or_and_right, exists_or, shown, shownAll,
        List.exists_mem_cons_iff, and_or_left]

end Faithful

-- Sorting.

/-- Edges compare by their fields in turn, which is a linear order. -/
instance : Std.TransOrd TraversedEdge :=
  inferInstanceAs (Std.TransCmp (compareOn fun edge : TraversedEdge =>
    (edge.relation, edge.source, edge.target)))

/-- Edges of different relations are sorted by their relations. -/
theorem sorted_edges {edges : List TraversedEdge}
    (once : (edges.map TraversedEdge.relation).Nodup) :
    Ascending ((edges.mergeSort fun left right => (compare left right).isLE).map
      TraversedEdge.relation) := by
  have sorted := @List.pairwise_mergeSort TraversedEdge
    (fun left right => (compare left right).isLE)
    (fun _ _ _ first second => Std.TransCmp.isLE_trans first second)
    (fun left right => by
      rw [Std.OrientedOrd.eq_swap (a := right)]
      cases compare left right <;> rfl) edges
  have distinct : ((edges.mergeSort fun left right => (compare left right).isLE).map
      TraversedEdge.relation).Nodup :=
    (((List.mergeSort_perm edges _).map _).nodup_iff).mpr once
  refine List.pairwise_map.mpr (sorted.imp₂ ?_ (List.pairwise_map.mp distinct))
  intro left right before different
  have whole : compare left right = (compare left.relation right.relation).then
      (compare (left.source, left.target) (right.source, right.target)) := rfl
  rw [whole] at before
  -- The relation is the first field compared, and no two edges share one.
  cases order : compare left.relation right.relation with
  | lt => rfl
  | eq => exact absurd (Std.LawfulEqOrd.eq_of_compare order) different
  | gt =>
    rw [order] at before
    cases before

/-- The collected edges are those of the view inside the discovered elements, by relation. -/
theorem Faithful.collectInternalEdges_eq (faithful : projection.Faithful view definition)
    {reach : Set ElementId} (finds : projection.Finds discovered reach) : ∃ edges,
      projection.collectInternalEdges discovered = some edges ∧
        (∀ edge, edge ∈ edges ↔
          view.IsEdge definition edge ∧ edge.source ∈ reach ∧ edge.target ∈ reach) ∧
        Ascending (edges.map TraversedEdge.relation) := by
  have located : ∀ entry ∈ discovered.toList,
      projection.canonicalElementId entry.2 = some entry.1 := by
    rintro ⟨key, element⟩ member
    exact faithful.elementIds.mp ((finds key element).mp (mem_toList.mp member)).2
  obtain ⟨⟨seen, edges⟩, rows, collects, ⟨_, once, members⟩, shows⟩ :=
    faithful.collectRows_eq .nil located
  -- A discovered element is one in reach that is projected, as every end of an edge is.
  have found {element : ElementId} (projected : element ∈ view.Projected definition) :
      element ∈ discovered ↔ element ∈ reach := by
    obtain ⟨id, there⟩ := faithful.exists_local projected
    have here := faithful.elementIds.mpr there
    rw [Std.ExtTreeMap.mem_iff_isSome_getElem?, Option.isSome_iff_exists]
    constructor
    · rintro ⟨other, same⟩
      exact ((finds _ _).mp same).1
    · exact fun reached => ⟨id, (finds _ _).mpr ⟨reached, here⟩⟩
  refine ⟨edges.mergeSort fun left right => (compare left right).isLE, ?_, fun edge => ?_,
    sorted_edges once⟩
  · unfold collectInternalEdges
    rw [collects]
    rfl
  · rw [List.mem_mergeSort, members, List.nil_append, shows]
    constructor
    · rintro ⟨reached, isEdge, ⟨key, element⟩, member, rfl⟩
      exact ⟨isEdge, ((finds _ _).mp (mem_toList.mp member)).1,
        (found ⟨_, isEdge.1, .inr isEdge.2.2⟩).mp reached⟩
    · rintro ⟨isEdge, from_, to_⟩
      refine ⟨(found ⟨_, isEdge.1, .inr isEdge.2.2⟩).mpr to_, isEdge, ?_⟩
      -- Its source is discovered, so the edge is in the row that is read for it.
      have inside := (found ⟨_, isEdge.1, .inl isEdge.2.1⟩).mpr from_
      rw [Std.ExtTreeMap.mem_iff_isSome_getElem?, Option.isSome_iff_exists] at inside
      obtain ⟨element, here⟩ := inside
      exact ⟨(edge.source, element), mem_toList.mpr here, rfl⟩

end GraphProjection

end Oxgraph
