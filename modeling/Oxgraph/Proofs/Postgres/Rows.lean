import Mathlib.Data.List.Destutter
import Oxgraph.Proofs.Csr.Validation
import Oxgraph.Proofs.Postgres.Overlay

/-! The rows an accepted topology yields, read off its stored arrays, and its node-unique rows. -/

namespace Oxgraph.Postgres

open Layout Csr
open Fallible (adapt_eq_pure bind_eq_pure throw_ne_pure)

export LayoutIndex (toNat)

-- Accepted views.

/-- What validation makes sure of: rows of known nodes, one after the other. -/
structure Accepted (view : CsrGraph UInt32 UInt32) : Prop where
  count : view.nodeCount.toNat = view.nodeBound
  rows : ∃ rows, rows.length = view.nodeBound ∧ Indexed view.offsets view.targets rows
  known : ∀ target ∈ view.targets, target.toNat < view.nodeBound

/-- A validated view is accepted. -/
theorem accepted_of_validate {nodeCount : UInt32} {offsets targets : List UInt32}
    {view : CsrGraph UInt32 UInt32}
    (valid : (CsrGraph.validate nodeCount offsets targets :
      Fallible (CsrError UInt32 UInt32) _) = pure view) : Accepted view := by
  obtain ⟨rfl, rows, encodes⟩ := CsrGraph.encodes_of_validate valid
  refine ⟨rfl, ⟨rows, encodes.count, encodes.flat⟩, fun target member => ?_⟩
  exact encodes.flat.forall_values.mpr encodes.known _ (List.mem_map_of_mem member)

/-- A view that a snapshot opens as is accepted. -/
theorem accepted_of_snapshot {snapshot : Container.Snapshot}
    {offsetsKind targetsKind version : UInt32} {view : CsrGraph UInt32 UInt32}
    (opened : (fromSnapshotWithKinds snapshot offsetsKind targetsKind version :
      Fallible (CsrSnapshotError UInt32 UInt32) _) = pure view) : Accepted view := by
  unfold fromSnapshotWithKinds at opened
  obtain ⟨offsets, _, opened⟩ := bind_eq_pure.mp opened
  obtain ⟨targets, _, opened⟩ := bind_eq_pure.mp opened
  split at opened
  · exact absurd opened throw_ne_pure
  · simp only at opened
    split at opened
    · exact absurd opened throw_ne_pure
    · exact accepted_of_validate (adapt_eq_pure.mp opened)

/-- What opening a topology has read and checked. -/
theorem ofSnapshot_checked {snapshot : Container.Snapshot} {topology : GraphTopology}
    (viewed : GraphTopology.ofSnapshot snapshot = pure topology) : ∃ metadata,
      readMetadata snapshot = .ok metadata ∧
        (fromSnapshot snapshot : Fallible (CsrSnapshotError UInt32 UInt32) _) =
          pure topology.forward ∧
        (fromSnapshotWithKinds snapshot inboundOffsetsKind inboundTargetsKind sectionVersion :
          Fallible (CsrSnapshotError UInt32 UInt32) _) = pure topology.inbound ∧
        topology.forward.nodeBound = topology.inbound.nodeBound ∧
        topology.forward.nodeBound = metadata.nodeCount.toNat := by
  unfold GraphTopology.ofSnapshot at viewed
  obtain ⟨metadata, read, viewed⟩ := bind_eq_pure.mp viewed
  split at viewed
  · exact absurd viewed throw_ne_pure
  obtain ⟨forward, forwardOpened, viewed⟩ := bind_eq_pure.mp viewed
  obtain ⟨inbound, inboundOpened, viewed⟩ := bind_eq_pure.mp viewed
  -- None of the checks on the counts has failed.
  split at viewed
  · exact absurd viewed throw_ne_pure
  rename_i sameNodes
  split at viewed
  · exact absurd viewed throw_ne_pure
  split at viewed
  · exact absurd viewed throw_ne_pure
  rename_i counted
  split at viewed
  · exact absurd viewed throw_ne_pure
  cases Fallible.pure_eq_pure.mp viewed
  exact ⟨metadata, Fallible.ofResult_eq_pure.mp read, adapt_eq_pure.mp forwardOpened,
    adapt_eq_pure.mp inboundOpened, not_not.mp sameNodes,
    (fromUsize_eq_some.mp (not_not.mp counted)).symm⟩

namespace Accepted

variable {view : CsrGraph UInt32 UInt32} (accepted : Accepted view) {node : UInt32}
  (inside : node.toNat < view.nodeBound)

include accepted inside

/-- The words around a node's row, which is inside the targets. -/
theorem range : ∃ start stop : UInt32, view.offsets[node.toNat]? = some start ∧
    view.offsets[node.toNat + 1]? = some stop ∧ start.toNat ≤ stop.toNat ∧
    stop.toNat ≤ view.targets.length := by
  obtain ⟨rows, length, flat⟩ := accepted.rows
  have located := List.getElem?_eq_getElem (length.symm ▸ inside)
  obtain ⟨first, last, found, follow, start, stop⟩ := offset_words flat located
  have whole := (flat.bucket located).2.2.1
  rw [List.length_map] at whole
  refine ⟨first, last, found, follow, ?_, ?_⟩
  · show LayoutIndex.toNat first ≤ LayoutIndex.toNat last
    omega
  · show LayoutIndex.toNat last ≤ _
    omega

/-- The range of a node is the words around its row. -/
theorem outgoingRange_eq : view.outgoingRange node.toNat =
    some ((view.offsets.getD node.toNat 0).toNat, (view.offsets.getD (node.toNat + 1) 0).toNat) := by
  obtain ⟨start, stop, first, last, _⟩ := accepted.range inside
  unfold CsrGraph.outgoingRange
  rw [first, last, List.getD_eq_getElem?_getD, List.getD_eq_getElem?_getD, first, last]
  show (do
    let start ← indexToUsizeValidated start
    let stop ← indexToUsizeValidated stop
    return (start, stop)) = _
  rw [indexToUsizeValidated_eq, indexToUsizeValidated_eq]
  rfl

/-- The slot of a node of the view. -/
theorem slot : view.checkedNodeSlot node = some node.toNat := by
  unfold CsrGraph.checkedNodeSlot
  rw [CsrGraph.tryNodeSlot_eq accepted.count rfl, if_pos]
  · rfl
  · exact inside

/-- The edges of a node are read as its positions. -/
theorem outgoingEdges_eq : view.outgoingEdges node = some (edgePositions view node) := by
  obtain ⟨start, stop, first, last, ordered, within⟩ := accepted.range inside
  unfold CsrGraph.outgoingEdges edgePositions
  rw [accepted.slot inside]
  show (view.outgoingRange node.toNat).bind _ = _
  rw [accepted.outgoingRange_eq inside, Option.bind_some]
  rw [List.getD_eq_getElem?_getD, List.getD_eq_getElem?_getD, first, last]
  simp only [Option.getD_some]
  unfold CsrGraph.outEdges
  rw [subOrPanic, if_pos ordered]
  refine mapM_some fun place member => usizeToIndexValidated_eq ?_
  -- Every position is below the word that ends the row.
  have below := (List.mem_range'_1.mp member).2
  have fits := stop.toNat_lt
  show place < 2 ^ 32
  omega

/-- The positions of a node are those of targets. -/
theorem position_lt {edge : UInt32} (member : edge ∈ edgePositions view node) :
    edge.toNat < view.targets.length := by
  obtain ⟨start, stop, first, last, ordered, within⟩ := accepted.range inside
  unfold edgePositions at member
  rw [List.getD_eq_getElem?_getD, List.getD_eq_getElem?_getD, first, last] at member
  obtain ⟨place, inRange, rfl⟩ := List.mem_map.mp member
  have below := (List.mem_range'_1.mp inRange).2
  simp only [Option.getD_some] at below
  have fits := stop.toNat_lt
  rw [UInt32.toNat_ofNat_of_lt' (by show place < 2 ^ 32; omega)]
  omega

/-- The target of an edge of a node is the one stored at its position. -/
theorem target_eq {edge : UInt32} (member : edge ∈ edgePositions view node) :
    view.target edge = some (edgeTarget view edge) := by
  have below := accepted.position_lt inside member
  unfold CsrGraph.target CsrGraph.checkedEdgeSlot edgeTarget
  rw [CsrGraph.tryEdgeSlot_eq, if_pos]
  · show view.targets[edge.toNat]? = _
    rw [List.getElem?_eq_getElem below, List.getD_eq_getElem _ _ below]
  · exact below

/-- The successors of a node are read as its stored row. -/
theorem elementSuccessors_eq : view.elementSuccessors node = some (storedRow view node) := by
  obtain ⟨start, stop, first, last, ordered, within⟩ := accepted.range inside
  unfold CsrGraph.elementSuccessors
  rw [accepted.slot inside]
  show (view.outgoingRange node.toNat).bind _ = _
  rw [accepted.outgoingRange_eq inside, Option.bind_some]
  unfold storedRow edgePositions
  rw [List.getD_eq_getElem?_getD, List.getD_eq_getElem?_getD, first, last]
  simp only [Option.getD_some]
  rw [sliceOf, if_pos ⟨ordered, within⟩]
  congr 1
  refine List.ext_getElem ?_ ?_
  · rw [List.length_take, List.length_drop, List.length_map, List.length_map, List.length_range']
    omega
  · intro place left right
    rw [List.length_map, List.length_map, List.length_range'] at right
    have fits := stop.toNat_lt
    rw [List.getElem_take, List.getElem_drop, List.getElem_map, List.getElem_map,
      List.getElem_range', Nat.one_mul]
    unfold edgeTarget
    rw [UInt32.toNat_ofNat_of_lt' (by show start.toNat + place < 2 ^ 32; omega),
      List.getD_eq_getElem]

/-- The stored neighbours of a node are nodes. -/
theorem known_of_mem {target : UInt32} (member : target ∈ storedRow view node) :
    target.toNat < view.nodeBound := by
  obtain ⟨edge, positioned, rfl⟩ := List.mem_map.mp member
  have below := accepted.position_lt inside positioned
  unfold edgeTarget
  rw [List.getD_eq_getElem _ _ below]
  exact accepted.known _ (List.getElem_mem below)

end Accepted

-- Node-unique rows.

/-- Dropping repeats that follow each other drops no value. -/
theorem mem_destutter {T : Type} [DecidableEq T] {items : List T} {item : T} :
    item ∈ items.destutter (· ≠ ·) ↔ item ∈ items := by
  refine ⟨fun member => (List.destutter_sublist _ _).subset member, fun member => ?_⟩
  cases items with
  | nil => cases member
  | cons first rest =>
    rw [List.destutter_cons']
    induction rest generalizing first with
    | nil => exact member
    | cons second rest ih =>
      rw [List.destutter'_cons]
      by_cases apart : first ≠ second
      · rw [if_pos apart]
        rcases List.mem_cons.mp member with rfl | later
        · exact List.mem_cons_self
        · exact List.mem_cons_of_mem _ (ih second later)
      · rw [if_neg apart]
        refine ih first ?_
        rw [not_not.mp apart] at member ⊢
        rcases List.mem_cons.mp member with rfl | later
        · exact List.mem_cons_self
        · exact later

/-- Sorted ids without two equal ones in a row ascend strictly. -/
theorem ascending_of_sorted {items : List UInt32} (sorted : items.Pairwise (· ≤ ·))
    (apart : items.IsChain (· ≠ ·)) : Ascending items := by
  have strict {left right : UInt32} : compare left right = .lt ↔ left < right := Std.compare_eq_lt
  induction items with
  | nil => exact ascending_nil
  | cons first rest ih =>
    obtain ⟨below, sortedRest⟩ := List.pairwise_cons.mp sorted
    have ascending := ih sortedRest apart.tail
    refine ascending_cons.mpr ⟨fun item member => strict.mpr ?_, ascending⟩
    cases rest with
    | nil => cases member
    | cons second others =>
      -- The first id is below the second, and the second below or equal to every other.
      have next : first < second :=
        UInt32.lt_of_le_of_ne (below _ List.mem_cons_self) (List.isChain_cons_cons.mp apart).1
      rcases List.mem_cons.mp member with rfl | later
      · exact next
      · exact UInt32.lt_trans next (strict.mp ((ascending_cons.mp ascending).1 item later))

/-- The unique row is the distinct values of a row, sorted. -/
theorem uniqueRow_eq (row : List UInt32) :
    UniqueAdjacency.uniqueRow row = row.dedup.mergeSort fun left right => decide (left ≤ right) := by
  refine Ascending.ext ?_ ?_ ?_
  · -- Sorted ids with no repeat after another ascend strictly.
    have sorted := (List.pairwise_mergeSort' (· ≤ ·) row).sublist
      (List.destutter_sublist (· ≠ ·) (row.mergeSort fun left right => decide (left ≤ right)))
    exact ascending_of_sorted sorted (List.isChain_destutter _ _)
  · have distinct : (row.dedup.mergeSort fun left right => decide (left ≤ right)).Nodup :=
      (List.mergeSort_perm _ _).nodup_iff.mpr (List.nodup_dedup row)
    exact ascending_of_sorted (List.pairwise_mergeSort' (· ≤ ·) row.dedup)
      (List.Pairwise.isChain distinct)
  · intro item
    unfold UniqueAdjacency.uniqueRow
    rw [mem_destutter, List.mem_mergeSort, List.mem_mergeSort, List.mem_dedup]

namespace UniqueAdjacency

/-- Building appends the unique row of each node, where every row is read. -/
theorem buildUniqueRowsFrom_eq {neighbors : UInt32 → Option (List UInt32)}
    {row : Nat → List UInt32} {node count : Nat} {offsets : List Nat} {targets : List UInt32}
    {done : List (List UInt32)} (flat : Flattened offsets targets done)
    (all : ∀ place, node ≤ place → place < node + count →
      neighbors (.ofNat place) = some (row place)) : ∃ built,
      buildUniqueRowsFrom neighbors node count offsets targets = some built ∧
        Flattened built.1 built.2
          (done ++ (List.range' node count).map fun place => uniqueRow (row place)) := by
  induction count generalizing node offsets targets done with
  | zero =>
    refine ⟨_, rfl, ?_⟩
    rw [List.range'_zero, List.map_nil, List.append_nil]
    exact flat
  | succ count ih =>
    have here := all node (Nat.le_refl _) (by omega)
    have others (place : Nat) (after : node + 1 ≤ place) (before : place < node + 1 + count) :
        neighbors (.ofNat place) = some (row place) := all place (by omega) (by omega)
    obtain ⟨built, same, whole⟩ := ih (flat.snoc (uniqueRow (row node))) others
    refine ⟨built, ?_, ?_⟩
    · rw [buildUniqueRowsFrom, here]
      exact same
    · rw [List.range'_succ, List.map_cons]
      rw [List.append_assoc, List.singleton_append] at whole
      exact whole

/-- Each built row is read as the unique row of the node. -/
theorem buildUniqueRows_row {neighbors : UInt32 → Option (List UInt32)}
    {row : UInt32 → List UInt32} {nodeCount : Nat} (small : nodeCount < u32Bound)
    (all : ∀ node, node.toNat < nodeCount → neighbors node = some (row node)) : ∃ built,
      buildUniqueRows nodeCount neighbors = some built ∧ ∀ node : UInt32, node.toNat < nodeCount →
        UniqueAdjacency.row built.1 built.2 node = some (uniqueRow (row node)) := by
  have id {place : Nat} (below : place < nodeCount) : (UInt32.ofNat place).toNat = place :=
    UInt32.toNat_ofNat_of_lt' (Nat.lt_trans below small)
  obtain ⟨built, same, flat⟩ := @buildUniqueRowsFrom_eq neighbors (fun place => row (.ofNat place))
    0 nodeCount [0] [] [] ⟨rfl, rfl⟩
    fun place _ before => by
      rw [Nat.zero_add] at before
      exact all _ (by rw [id before]; exact before)
  refine ⟨built, ?_, fun node inside => ?_⟩
  · unfold buildUniqueRows
    rw [if_neg (Nat.not_le.mpr small)]
    exact same
  · rw [List.nil_append] at flat
    have located : ((List.range' 0 nodeCount).map fun place =>
        uniqueRow (row (.ofNat place)))[node.toNat]? = some (uniqueRow (row node)) := by
      rw [List.getElem?_map, List.getElem?_range' inside, Option.map_some, Nat.zero_add,
        Nat.one_mul, UInt32.ofNat_toNat]
    obtain ⟨start, stop, _⟩ := flat.bucket located
    unfold UniqueAdjacency.row
    rw [start, stop]
    exact flat.sliceOf_eq located

/-- The node-unique rows of accepted views are the distinct stored neighbours, sorted. -/
theorem fromTopology_rows {forward inbound : CsrGraph UInt32 UInt32} (outward : Accepted forward)
    (inward : Accepted inbound) (same : forward.nodeBound = inbound.nodeBound) : ∃ unique,
      fromTopology forward inbound = some unique ∧ ∀ node : UInt32, node.toNat < forward.nodeBound →
        unique.outgoing node = some (uniqueRow (storedRow forward node)) ∧
          unique.incoming node = some (uniqueRow (storedRow inbound node)) := by
  have small : forward.nodeBound < u32Bound := by
    rw [← outward.count]
    exact forward.nodeCount.toNat_lt
  obtain ⟨built, ran, rows⟩ := buildUniqueRows_row small
    fun node inside => outward.elementSuccessors_eq inside
  obtain ⟨other, ranOther, otherRows⟩ := buildUniqueRows_row small
    fun node inside => inward.elementSuccessors_eq (same ▸ inside)
  refine ⟨⟨built.1, built.2, other.1, other.2⟩, ?_, fun node inside => ⟨?_, ?_⟩⟩
  · unfold fromTopology
    simp only
    rw [ran, ranOther]
    rfl
  · exact rows node inside
  · exact otherRows node inside

end UniqueAdjacency

-- The rows of an overlay view.

namespace OverlayState

/-- Without edge tombstones every edge is visible. -/
theorem edgeVisible_of_none {overlay : OverlayState} (none : overlay.hasEdgeTombstones = false)
    (edge : UInt32) : overlay.edgeVisible edge = true := by
  have empty : overlay.tombstonedEdges.isEmpty = true := by
    unfold hasEdgeTombstones at none
    simpa using none
  unfold edgeVisible
  rw [Std.ExtTreeSet.isEmpty_iff.mp empty]
  simp

/-- Without node tombstones every node is visible. -/
theorem nodeVisible_of_none {overlay : OverlayState} (none : overlay.hasNodeTombstones = false)
    (node : UInt32) : overlay.nodeVisible node = true := by
  have empty : overlay.tombstonedNodes.isEmpty = true := by
    unfold hasNodeTombstones at none
    simpa using none
  unfold nodeVisible
  rw [Std.ExtTreeSet.isEmpty_iff.mp empty]
  simp

end OverlayState

/-- A view resolved under a freshness, over accepted stored views of so many nodes. -/
structure Resolved (view : OverlayView) (freshness : QueryFreshness) (nodeCount : UInt32) :
    Prop where
  outward : Accepted view.topology.forward
  inward : Accepted view.topology.inbound
  forwardCount : view.topology.forward.nodeBound = nodeCount.toNat
  inboundCount : view.topology.inbound.nodeBound = nodeCount.toNat
  count : view.nodeCount = nodeCount.toNat
  indexed : view.overlay.Indexed
  useUnique : view.flags.useUnique =
    decide (freshness = .baseOnly ∧ ¬ view.overlay.hasEdgeTombstones)
  mergeOverlay : view.flags.mergeOverlay =
    decide (freshness = .overlayAware ∧ 0 < view.overlay.overlayEdgeCount)
  checkNodes : view.flags.checkNodes = view.overlay.hasNodeTombstones
  unique : view.flags.useUnique = true → ∀ node : UInt32, node < nodeCount →
    view.unique.outgoing node =
        some (UniqueAdjacency.uniqueRow (storedRow view.topology.forward node)) ∧
      view.unique.incoming node =
        some (UniqueAdjacency.uniqueRow (storedRow view.topology.inbound node))

namespace Resolved

variable {view : OverlayView} {freshness : QueryFreshness} {nodeCount : UInt32}
  (resolved : Resolved view freshness nodeCount)

include resolved

/-- A view admits the visible nodes. -/
theorem admits_eq (node : UInt32) : view.admits node = visibleNode nodeCount view.overlay node := by
  unfold OverlayView.admits visibleNode
  rw [resolved.count, resolved.checkNodes, Bool.decide_and]
  congr 1
  cases tombstones : view.overlay.hasNodeTombstones with
  | false => rw [OverlayState.nodeVisible_of_none tombstones node]; rfl
  | true => simp

variable {node : UInt32} (inside : node < nodeCount)

include inside

/-- The base row along outgoing edges is what edge tombstones leave. -/
theorem outParallel_eq : view.outParallel node =
    some (remainingRow view.topology view.overlay .out node) := by
  have within : node.toNat < view.topology.forward.nodeBound := by
    rw [resolved.forwardCount]
    exact inside
  have kept : (fun edge => decide
      (¬ (view.overlay.hasEdgeTombstones = true ∧ ¬ view.overlay.edgeVisible edge = true))) =
        view.overlay.edgeVisible := by
    funext edge
    cases tombstones : view.overlay.hasEdgeTombstones with
    | false => rw [OverlayState.edgeVisible_of_none tombstones edge]; simp
    | true => simp
  unfold OverlayView.outParallel remainingRow
  rw [resolved.outward.outgoingEdges_eq within]
  show ((edgePositions view.topology.forward node).filter _).mapM _ = _
  rw [kept]
  refine mapM_some fun edge member => ?_
  exact resolved.outward.target_eq within (List.mem_of_mem_filter member)

omit inside in
/-- Looking for an edge that is not tombstoned reads the stored edges. -/
theorem hasVisibleForwardEdge_eq {source : UInt32} (known : source < nodeCount) (target : UInt32) :
    hasVisibleForwardEdge view.topology.forward view.overlay source target =
      some (stillJoins view.topology.forward view.overlay source target) := by
  have within : source.toNat < view.topology.forward.nodeBound := by
    rw [resolved.forwardCount]
    exact known
  unfold hasVisibleForwardEdge stillJoins
  rw [resolved.outward.outgoingEdges_eq within]
  show Option.bind ((edgePositions view.topology.forward source).mapM _) _ = _
  rw [@mapM_some UInt32 Bool _ (fun edge =>
    view.overlay.edgeVisible edge && decide (edgeTarget view.topology.forward edge = target))]
  · show some (((edgePositions view.topology.forward source).map _).any id) = _
    rw [List.any_map]
    rfl
  · intro edge member
    rw [resolved.outward.target_eq within member]
    show some (decide _) = _
    rw [Bool.decide_and, Bool.and_comm, Bool.decide_eq_true]

/-- The base row along incoming edges is what edge tombstones leave. -/
theorem inParallel_eq : view.inParallel node =
    some (remainingRow view.topology view.overlay .in node) := by
  have within : node.toNat < view.topology.inbound.nodeBound := by
    rw [resolved.inboundCount]
    exact inside
  -- Each predecessor is listed once or not at all, as its forward edge is visible.
  have joined (row : List UInt32) (keep : UInt32 → Bool) :
      (row.map fun pred => if keep pred = true then [pred] else []).flatten = row.filter keep := by
    induction row with
    | nil => rfl
    | cons pred rest ih =>
      rw [List.map_cons, List.flatten_cons, ih, List.filter_cons]
      split <;> rfl
  unfold OverlayView.inParallel remainingRow
  rw [resolved.inward.elementSuccessors_eq within]
  show Option.bind ((storedRow view.topology.inbound node).mapM _) _ = _
  rw [@mapM_some UInt32 (List UInt32) _ (fun pred =>
    if (!view.overlay.hasEdgeTombstones ||
        stillJoins view.topology.forward view.overlay pred node) = true then [pred] else [])]
  · show some ((storedRow view.topology.inbound node).map _).flatten = _
    rw [joined]
    cases tombstones : view.overlay.hasEdgeTombstones <;> simp
  · intro pred member
    have known : pred < nodeCount := by
      have below := resolved.inward.known_of_mem within member
      rw [resolved.inboundCount] at below
      exact below
    cases tombstones : view.overlay.hasEdgeTombstones with
    | false => simp
    | true =>
      simp only [if_true]
      rw [resolved.hasVisibleForwardEdge_eq known]
      cases stillJoins view.topology.forward view.overlay pred node <;> rfl

/-- The base row is the unique row, or what edge tombstones leave. -/
theorem baseRow_eq (direction : TraversalDirection) : view.baseRow direction node =
    some (if view.flags.useUnique = true then
      UniqueAdjacency.uniqueRow (storedRow (view.topology.along direction) node)
    else remainingRow view.topology view.overlay direction node) := by
  unfold OverlayView.baseRow
  cases unique : view.flags.useUnique with
  | false =>
    cases direction with
    | out => exact resolved.outParallel_eq inside
    | «in» => exact resolved.inParallel_eq inside
  | true =>
    obtain ⟨outgoing, incoming⟩ := resolved.unique unique node inside
    cases direction with
    | out => exact outgoing
    | «in» => exact incoming

omit inside in
/-- The overlay row is the inserted neighbours, where it is merged. -/
theorem overlayRow_eq (direction : TraversalDirection) (node : UInt32) :
    view.overlayRow direction node =
      if view.flags.mergeOverlay = true then insertedRow view.overlay.addedEdges direction node
      else [] := by
  unfold OverlayView.overlayRow
  split
  · cases direction with
    | out => exact resolved.indexed.targets node
    | «in» => exact resolved.indexed.sources node
  · rfl

/-- Reading the row of a node yields its visible neighbours. -/
theorem row_eq (direction : TraversalDirection) : view.row direction node =
    some ((freshRow view.topology view.overlay freshness direction node).filter
      (visibleNode nodeCount view.overlay)) := by
  have admits : view.admits = visibleNode nodeCount view.overlay := funext resolved.admits_eq
  have useUnique := resolved.useUnique
  have mergeOverlay := resolved.mergeOverlay
  unfold OverlayView.row
  rw [resolved.baseRow_eq inside, resolved.overlayRow_eq, admits]
  show some _ = _
  rw [← List.filter_append]
  congr 2
  unfold freshRow
  cases freshness with
  | baseOnly =>
    have unmerged : view.flags.mergeOverlay = false := by
      rw [mergeOverlay]
      exact decide_eq_false fun both => (nomatch both.1)
    rw [unmerged, if_neg Bool.false_ne_true, List.append_nil]
    cases tombstones : view.overlay.hasEdgeTombstones with
    | false =>
      have unique : view.flags.useUnique = true := by
        rw [useUnique, tombstones]
        exact decide_eq_true ⟨rfl, Bool.false_ne_true⟩
      rw [unique, if_pos rfl, uniqueRow_eq]
      rfl
    | true =>
      have parallel : view.flags.useUnique = false := by
        rw [useUnique, tombstones]
        exact decide_eq_false fun both => both.2 rfl
      rw [parallel]
      rfl
  | overlayAware =>
    have parallel : view.flags.useUnique = false := by
      rw [useUnique]
      exact decide_eq_false fun both => (nomatch both.1)
    rw [parallel, if_neg Bool.false_ne_true]
    congr 1
    by_cases some_edge : 0 < view.overlay.overlayEdgeCount
    · have merged : view.flags.mergeOverlay = true := by
        rw [mergeOverlay]
        exact decide_eq_true ⟨rfl, some_edge⟩
      rw [if_pos merged]
    · -- Without inserted edges there is nothing to merge.
      have none : view.overlay.addedEdges = [] :=
        List.eq_nil_of_length_eq_zero (Nat.eq_zero_of_not_pos some_edge)
      rw [none]
      cases direction <;> exact ite_self _

end Resolved

end Oxgraph.Postgres
