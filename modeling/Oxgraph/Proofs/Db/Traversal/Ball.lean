import Oxgraph.Proofs.Db.Traversal.Edges

/-! A walk lists the ball around its seeds, nearest first, up to its limit. -/

namespace Oxgraph

open Layout

section Lists

variable {A B : Type} {lookup : A → Option B} {items : List A}

/-- A map that has a value at every item has one at each in order. -/
theorem forall₂_filterMap (defined : ∀ item ∈ items, ∃ value, lookup item = some value) :
    List.Forall₂ (fun item value => lookup item = some value) items (items.filterMap lookup) := by
  induction items with
  | nil => exact .nil
  | cons item rest ih =>
    obtain ⟨⟨value, here⟩, others⟩ := List.forall_mem_cons.mp defined
    rw [List.filterMap_cons_some here]
    exact .cons here (ih others)

/-- The values of a map in order are those of a list that it has them at. -/
theorem filterMap_eq {values : List B}
    (each : List.Forall₂ (fun item value => lookup item = some value) items values) :
    items.filterMap lookup = values := by
  induction each with
  | nil => rfl
  | cons here _ ih => rw [List.filterMap_cons_some here, ih]

/-- The first values of such a map are its values at the first items. -/
theorem filterMap_take (defined : ∀ item ∈ items, ∃ value, lookup item = some value)
    (count : Nat) : (items.take count).filterMap lookup = (items.filterMap lookup).take count := by
  induction items generalizing count with
  | nil => simp
  | cons item rest ih =>
    obtain ⟨⟨value, here⟩, others⟩ := List.forall_mem_cons.mp defined
    cases count with
    | zero => rfl
    | succ count =>
      rw [List.take_succ_cons, List.filterMap_cons_some here, List.filterMap_cons_some here,
        List.take_succ_cons, ih others]

end Lists

/-- The bounds of the search of a walk. -/
def Walk.bounds (walk : Walk) : BfsBounds :=
  { maxDepth := some ((fromUsize walk.maxDepth).getD 0xFFFFFFFF)
    resultLimit := walk.limit
    includeSeeds := walk.includeStart }

/-- The search goes as deep as the walk, or as a `u32` counts. -/
theorem Walk.depthLimit_bounds (walk : Walk) :
    Bfs.Bounded.depthLimit walk.bounds = some (min walk.maxDepth 0xFFFFFFFF) := by
  unfold Bfs.Bounded.depthLimit Walk.bounds fromUsize
  -- A depth that `u32` cannot hold is cut to the largest one.
  by_cases small : walk.maxDepth < LayoutIndex.bound UInt32
  · rw [if_pos small]
    have below : walk.maxDepth < 2 ^ 32 := small
    show some (UInt32.ofNat walk.maxDepth).toNat = _
    rw [UInt32.toNat_ofNat_of_lt' below, Nat.min_eq_left (by omega)]
  · rw [if_neg small]
    have above : ¬ walk.maxDepth < 2 ^ 32 := small
    rw [Nat.min_eq_right (by omega)]
    rfl

namespace GraphProjection.Faithful

variable {view : LayeredState} {definition : GraphProjectionDefinition}
  {projection : GraphProjection} (faithful : projection.Faithful view definition)
  {seeds : List ElementId} {walk : Walk}

include faithful

/-- The entries that a walk may list. -/
abbrev entries (projection : GraphProjection) (seeds : List ElementId) (walk : Walk) :
    List (ProjectionElementId × Nat) :=
  Bfs.Bounded.shown walk.bounds (listing (projection.rowsAlong walk.direction)
    (some (min walk.maxDepth 0xFFFFFFFF)) (seeds.filterMap projection.localElementId)
    projection.elementBound)

omit faithful in
/-- The discovery reports the entries. -/
theorem discovery_eq : projection.discovery seeds walk =
    (entries projection seeds walk).filterMap projection.reported := rfl

/-- The local seeds are elements of the projection. -/
theorem contained_seed :
    ∀ seed ∈ seeds.filterMap projection.localElementId, projection.containsElement seed = true := by
  intro element member
  obtain ⟨seed, _, located⟩ := faithful.mem_seeds.mp member
  exact contained_iff.mpr ⟨seed, located⟩

/-- The entries that a walk may list are those in reach at their distance, and deep enough. -/
theorem mem_entries {element : ProjectionElementId} {depth : Nat} :
    (element, depth) ∈ entries projection seeds walk ↔
      (walk.includeStart = true ∨ 0 < depth) ∧ depth ≤ walk.maxDepth ∧
        Distance (projection.rowsAlong walk.direction)
          (seeds.filterMap projection.localElementId) depth element := by
  have seeded : ∀ seed ∈ seeds.filterMap projection.localElementId,
      projection.containsElement seed = true := faithful.contained_seed
  have complete := Bfs.Bounded.listing_complete faithful.lawful (faithful.closed walk.direction)
    seeded (some (min walk.maxDepth 0xFFFFFFFF))
  have member : (element, depth) ∈ listing (projection.rowsAlong walk.direction)
      (some (min walk.maxDepth 0xFFFFFFFF)) (seeds.filterMap projection.localElementId)
        projection.elementBound ↔ ∃ position, listed (projection.rowsAlong walk.direction)
          (some (min walk.maxDepth 0xFFFFFFFF)) (seeds.filterMap projection.localElementId)
            position = some (element, depth) := by
    refine ⟨listed_of_mem, fun ⟨position, here⟩ => mem_listing_of_listed here ?_⟩
    -- Nothing is listed past the last element.
    by_contra past
    rw [listed_ended complete (Nat.le_of_not_le past)] at here
    cases here
  unfold entries Bfs.Bounded.shown
  rw [List.mem_filter, member, listed_iff]
  simp only [Walk.bounds, Bool.or_eq_true, decide_eq_true_eq]
  constructor
  · rintro ⟨⟨far, listable⟩, admitted⟩
    exact ⟨admitted, Nat.le_trans (listable _ rfl) (Nat.min_le_left _ _), far⟩
  · rintro ⟨admitted, near, far⟩
    refine ⟨⟨far, ?_⟩, admitted⟩
    -- The search goes as deep as `u32` counts, and no distance is longer.
    rintro _ ⟨⟩
    have small := faithful.distance_small far
    exact Nat.le_min.mpr ⟨near, by omega⟩

/-- Every entry is of an element of the projection, at a depth that a `u32` counts. -/
theorem entry_valid : ∀ entry ∈ entries projection seeds walk,
    projection.containsElement entry.1 = true ∧ entry.2 < 2 ^ 32 := by
  intro entry member
  have far := (faithful.mem_entries.mp member).2.2
  refine ⟨?_, faithful.distance_small far⟩
  obtain ⟨canonical, located, _⟩ := faithful.hops_iff.mp far.1
  exact contained_iff.mpr ⟨canonical, located⟩

/-- Every seed that is projected has a local ID. -/
theorem locals_eq (projected : ∀ seed ∈ seeds, seed ∈ view.Projected definition) :
    List.Forall₂ (fun seed element => projection.localElementId seed = some element) seeds
      (seeds.filterMap projection.localElementId) := by
  refine forall₂_filterMap fun seed member => ?_
  obtain ⟨element, located⟩ := faithful.exists_local (projected seed member)
  exact ⟨element, faithful.elementIds.mpr located⟩

/-- The seeds of a walk are found before its search begins. -/
theorem seeded_eq (seeds : List ElementId) : ∃ pairs : List (ElementId × ProjectionElementId),
    List.Forall₂ (fun element entry => (projection.canonicalElementId element).map
        (fun canonical => (canonical, element)) = some entry)
      (seeds.filterMap projection.localElementId) pairs ∧
    projection.Finds (pairs.foldl (fun map entry => map.insert entry.1 entry.2) ∅)
      {key | key ∈ seeds} := by
  let pair (element : ProjectionElementId) : Option (ElementId × ProjectionElementId) :=
    (projection.canonicalElementId element).map fun canonical => (canonical, element)
  have paired : ∀ element ∈ seeds.filterMap projection.localElementId,
      ∃ entry, pair element = some entry := by
    intro element member
    obtain ⟨canonical, located⟩ := contained_iff.mp (faithful.contained_seed element member)
    exact ⟨(canonical, element), by simp [pair, located]⟩
  refine ⟨(seeds.filterMap projection.localElementId).filterMap pair, ?_, ?_⟩
  · exact forall₂_filterMap paired
  · have located : ∀ entry ∈ (seeds.filterMap projection.localElementId).filterMap pair,
        projection.canonicalElementId entry.2 = some entry.1 := by
      intro entry member
      obtain ⟨element, _, found⟩ := List.mem_filterMap.mp member
      obtain ⟨canonical, here, rfl⟩ := Option.map_eq_some_iff.mp found
      exact here
    have none : projection.Finds ∅ (∅ : Set ElementId) := by simp [Finds]
    intro key element
    refine (faithful.finds_insertAll none located key element).trans (and_congr_left fun here => ?_)
    -- A key with a local ID is that of a pair when it is a seed.
    show (key ∈ (∅ : Set ElementId) ∨ _) ↔ key ∈ seeds
    rw [or_iff_right (Set.notMem_empty key)]
    constructor
    · rintro ⟨entry, member, rfl⟩
      obtain ⟨other, listed, found⟩ := List.mem_filterMap.mp member
      obtain ⟨canonical, there, rfl⟩ := Option.map_eq_some_iff.mp found
      obtain ⟨seed, inSeeds, same⟩ := faithful.mem_seeds.mp listed
      cases there.symm.trans same
      exact inSeeds
    · intro member
      have there := faithful.elementIds.mp here
      refine ⟨(key, element), List.mem_filterMap.mpr ⟨element, ?_, ?_⟩, rfl⟩
      · exact faithful.mem_seeds.mpr ⟨key, member, there⟩
      · simp [pair, there]

/-- The first entries are reported as the first nodes. -/
theorem reported_take (count : Nat) :
    ((entries projection seeds walk).take count).filterMap (fun entry =>
      projection.reported (entry.1, (UInt32.ofNat entry.2).toNat)) =
        (projection.discovery seeds walk).take count := by
  rw [discovery_eq, ← filterMap_take]
  · refine List.filterMap_congr fun entry member => ?_
    have small := (faithful.entry_valid entry (List.mem_of_mem_take member)).2
    rw [UInt32.toNat_ofNat_of_lt' small]
  · intro entry member
    obtain ⟨canonical, located⟩ := contained_iff.mp (faithful.entry_valid entry member).1
    exact ⟨⟨canonical, entry.2⟩, by simp [reported, located]⟩

/-- What a walk from elements of the projection returns, up to the edges it collects. -/
theorem walk_eq (seeded : seeds ≠ [])
    (projected : ∀ seed ∈ seeds, seed ∈ view.Projected definition) (positive : 1 ≤ walk.limit) :
    ∃ discovered, projection.Finds discovered (projection.Reach seeds walk) ∧
      projection.walkGraphProjection seeds walk = (do
        let edges ← .orPanic (projection.collectInternalEdges discovered)
        return { nodes := (projection.discovery seeds walk).take walk.limit, edges }) := by
  -- The walk starts its map of discovered elements with the seeds.
  obtain ⟨pairs, paired, foundPairs⟩ := faithful.seeded_eq seeds
  let start : Discovery :=
    { nodes := []
      discovered := pairs.foldl (fun map entry => map.insert entry.1 entry.2) ∅ }
  have found : projection.Finds start.discovered {key | key ∈ seeds} := foundPairs
  have contained : ∀ seed ∈ seeds.filterMap projection.localElementId,
      projection.containsElement seed = true := faithful.contained_seed
  have limited : walk.bounds.maxDepth.isSome = true := rfl
  -- The search lists as the reference does, cut at the limit.
  obtain ⟨scratch, searched⟩ := faithful.searchAlong_eq found walk.direction contained limited
  have cap : Bfs.Bounded.cap walk.bounds = walk.limit := Nat.max_eq_right positive
  rw [walk.depthLimit_bounds, cap] at searched
  -- The search shows the visitor the first entries of the listing, and the visitor reports them.
  have shown : ∀ entry ∈ (entries projection seeds walk).take walk.limit,
      projection.containsElement entry.1 = true :=
    fun entry member => (faithful.entry_valid entry (List.mem_of_mem_take member)).1
  obtain ⟨after, observed, nodes, finds⟩ := faithful.observed_eq found shown
  rw [observed] at searched
  rw [faithful.reported_take] at nodes
  refine ⟨after.discovered, ?_, ?_⟩
  · -- What is found are the seeds, and the nodes that are reported.
    intro key element
    refine (finds key element).trans (and_congr_left fun _ => or_congr_right ?_)
    rw [← faithful.reported_take]
    constructor
    · rintro ⟨entry, member, located⟩
      exact ⟨⟨key, (UInt32.ofNat entry.2).toNat⟩,
        List.mem_filterMap.mpr ⟨entry, member, by simp [reported, located]⟩, rfl⟩
    · rintro ⟨node, listed, rfl⟩
      obtain ⟨entry, member, report⟩ := List.mem_filterMap.mp listed
      obtain ⟨canonical, located, rfl⟩ := Option.map_eq_some_iff.mp report
      exact ⟨entry, member, located⟩
  · -- Each step of the walk in turn: the seeds, their pairs, the search, and the report.
    unfold walkGraphProjection
    rw [if_neg (by simp [seeded]; omega)]
    refine (Fallible.bind_of_pure (Fallible.mapM_eq_pure
      ((faithful.locals_eq projected).imp fun seed element found => ?_))).trans ?_
    · rw [found]
    refine (Fallible.bind_of_pure (Fallible.mapM_eq_pure
      (paired.imp fun element entry found => Fallible.orPanic_eq_pure.mpr found))).trans ?_
    unfold Walk.bounds at searched
    simp only [start, List.nil_append] at searched nodes ⊢
    rw [searched, ← nodes]
    rfl

-- The discovery.

/-- The discovery holds the elements of the ball at their distances. -/
theorem mem_discovery (projected : ∀ seed ∈ seeds, seed ∈ view.Projected definition)
    {node : TraversedNode} : node ∈ projection.discovery seeds walk ↔
      (walk.includeStart = true ∨ node.element ∉ seeds) ∧ node.depth ≤ walk.maxDepth ∧
        view.ShortestHops definition walk.direction seeds node.depth node.element := by
  -- An element is no seed exactly when its distance is positive.
  have away (far : view.ShortestHops definition walk.direction seeds node.depth node.element) :
      0 < node.depth ↔ node.element ∉ seeds := by
    obtain ⟨reached, least⟩ := far
    constructor
    · exact fun deep => least 0 deep
    · intro absent
      rcases Nat.eq_zero_or_pos node.depth with none | deep
      · rw [none] at reached
        exact absurd reached absent
      · exact deep
  rw [discovery_eq, List.mem_filterMap]
  constructor
  · rintro ⟨⟨element, depth⟩, member, report⟩
    obtain ⟨canonical, located, rfl⟩ := Option.map_eq_some_iff.mp report
    obtain ⟨admitted, near, far⟩ := faithful.mem_entries.mp member
    have shortest := (faithful.distance_iff located).mp far
    exact ⟨admitted.imp_right (away shortest).mp, near, shortest⟩
  · rintro ⟨admitted, near, shortest⟩
    -- An element in reach is projected, so the search knows it under a local ID.
    obtain ⟨element, located⟩ := faithful.exists_local (projected_of_away projected shortest.1)
    refine ⟨(element, node.depth), faithful.mem_entries.mpr ⟨?_, near, ?_⟩, ?_⟩
    · exact admitted.imp_right (away shortest).mpr
    · exact (faithful.distance_iff located).mpr shortest
    · unfold reported
      rw [located]
      rfl

omit faithful in
/-- The elements of the discovery are those of its entries. -/
theorem discovery_elements : (projection.discovery seeds walk).map TraversedNode.element =
    ((entries projection seeds walk).map Prod.fst).filterMap projection.canonicalElementId := by
  rw [discovery_eq, List.map_filterMap, List.filterMap_map]
  refine List.filterMap_congr fun entry _ => ?_
  unfold reported
  rw [Option.map_map]
  exact Option.map_id' ..

/-- The discovery reports no element twice. -/
theorem nodup_discovery :
    ((projection.discovery seeds walk).map TraversedNode.element).Nodup := by
  rw [discovery_elements]
  -- Different local IDs stand for different elements, and no local ID is listed twice.
  refine List.Nodup.filterMap (fun first second canonical one other => ?_) ?_
  · have left := faithful.elementIds.mpr one
    have right := faithful.elementIds.mpr other
    exact Option.some.inj (left.symm.trans right)
  · exact (nodup_listing _).sublist (List.filter_sublist.map _)

omit faithful in
/-- The discovery reports the nearest elements first. -/
theorem ascending_discovery :
    ((projection.discovery seeds walk).map TraversedNode.depth).Pairwise (· ≤ ·) := by
  have sorted : ((entries projection seeds walk).map Prod.snd).Pairwise (· ≤ ·) :=
    (levelled_listing _).sorted.sublist (List.filter_sublist.map _)
  rw [List.pairwise_map] at sorted
  -- A report keeps the depth of its entry.
  rw [discovery_eq, List.pairwise_map, List.pairwise_filterMap]
  refine sorted.imp fun before first report second reportSecond => ?_
  obtain ⟨_, _, rfl⟩ := Option.map_eq_some_iff.mp report
  obtain ⟨_, _, rfl⟩ := Option.map_eq_some_iff.mp reportSecond
  exact before

/-- The discovery is as long as the ball is large. -/
theorem length_discovery (projected : ∀ seed ∈ seeds, seed ∈ view.Projected definition) :
    (projection.discovery seeds walk).length = (view.Ball definition seeds walk).ncard := by
  have distinct : ((projection.discovery seeds walk).map TraversedNode.element).Nodup :=
    faithful.nodup_discovery
  -- The elements of the discovery are the ball, once each.
  rw [ncard_of_nodup distinct, List.length_map]
  intro element
  rw [List.mem_map]
  constructor
  · rintro ⟨node, member, rfl⟩
    obtain ⟨admitted, near, shortest⟩ := (faithful.mem_discovery projected).mp member
    exact ⟨admitted, node.depth, near, shortest⟩
  · rintro ⟨admitted, depth, near, shortest⟩
    exact ⟨⟨element, depth⟩, (faithful.mem_discovery projected).mpr ⟨admitted, near, shortest⟩, rfl⟩

/-- The first nodes of the discovery list the ball up to the limit. -/
theorem listsBall (projected : ∀ seed ∈ seeds, seed ∈ view.Projected definition)
    {subgraph : Subgraph}
    (nodes : subgraph.nodes = (projection.discovery seeds walk).take walk.limit) :
    subgraph.ListsBall view definition seeds walk := by
  have inside {node : TraversedNode} (member : node ∈ subgraph.nodes) :=
    (faithful.mem_discovery projected).mp (List.mem_of_mem_take (nodes ▸ member))
  constructor
  case distinct =>
    rw [nodes, List.map_take]
    exact (List.take_sublist _ _).nodup faithful.nodup_discovery
  case ascending =>
    rw [nodes, List.map_take]
    exact ascending_discovery.sublist (List.take_sublist _ _)
  case distance => exact fun node member => (inside member).2.2
  case within => exact fun node member => (inside member).2.1
  case start => exact fun node member seed => (inside member).1.resolve_right (not_not.mpr seed)
  case length => rw [nodes, List.length_take, faithful.length_discovery projected]

/-- A walk from elements of the projection returns the first nodes and the edges it reaches. -/
theorem walk_returns (seeded : seeds ≠ [])
    (projected : ∀ seed ∈ seeds, seed ∈ view.Projected definition) (positive : 1 ≤ walk.limit) :
    ∃ subgraph, projection.walkGraphProjection seeds walk = pure subgraph ∧
      subgraph.nodes = (projection.discovery seeds walk).take walk.limit ∧
      (∀ edge, edge ∈ subgraph.edges ↔ view.IsEdge definition edge ∧
        edge.source ∈ projection.Reach seeds walk ∧ edge.target ∈ projection.Reach seeds walk) ∧
      Ascending (subgraph.edges.map TraversedEdge.relation) := by
  obtain ⟨discovered, finds, ran⟩ := faithful.walk_eq seeded projected positive
  obtain ⟨edges, collects, members, ordered⟩ := faithful.collectInternalEdges_eq finds
  refine ⟨{ nodes := (projection.discovery seeds walk).take walk.limit, edges }, ?_, rfl, members,
    ordered⟩
  rw [ran, collects]
  rfl

/-- The discovery is at most as long as `u32` numbers elements. -/
theorem length_discovery_le : (projection.discovery seeds walk).length ≤ 2 ^ 32 := by
  -- Distinct elements of the projection are at most as many as it has.
  have part : (projection.discovery seeds walk).map TraversedNode.element ⊆
      projection.elements := by
    intro canonical member
    obtain ⟨node, listed, rfl⟩ := List.mem_map.mp member
    obtain ⟨entry, _, report⟩ := List.mem_filterMap.mp listed
    obtain ⟨element, located, rfl⟩ := Option.map_eq_some_iff.mp report
    exact List.mem_of_getElem? located
  have fits := (faithful.nodup_discovery.subperm part).length_le
  rw [List.length_map] at fits
  exact Nat.le_trans fits faithful.length_elements

end GraphProjection.Faithful

/--
A walk from elements of a projection returns, and lists the ball around them: each element once, at
its shortest distance, nearest first, and as many as the limit admits, the first of those that a
walk without a limit lists.
-/
theorem walk_lists_ball {view : LayeredState} (sound : view.Sound)
    {definition : GraphProjectionDefinition} {projection : GraphProjection}
    (built : GraphProjection.fromState view definition = pure projection) {seeds : List ElementId}
    (seeded : seeds ≠ []) (projected : ∀ seed ∈ seeds, seed ∈ projection.elements) (walk : Walk)
    (positive : 1 ≤ walk.limit) :
    ∃ subgraph whole, projection.walkGraphProjection seeds walk = pure subgraph ∧
      projection.walkGraphProjection seeds { walk with limit := usizeBound - 1 } = pure whole ∧
      subgraph.ListsBall view definition seeds walk ∧
      subgraph.nodes = whole.nodes.take subgraph.nodes.length := by
  have faithful := (projection_faithful sound definition).2.1 projection built
  have inside : ∀ seed ∈ seeds, seed ∈ view.Projected definition :=
    fun seed member => (faithful.elements seed).mp (projected seed member)
  obtain ⟨subgraph, ran, nodes, _⟩ := faithful.walk_returns seeded inside positive
  obtain ⟨whole, ranWhole, wholeNodes, _⟩ := faithful.walk_returns seeded inside
    (show 1 ≤ ({ walk with limit := usizeBound - 1 } : Walk).limit by
      show 1 ≤ usizeBound - 1
      decide)
  refine ⟨subgraph, whole, ran, ranWhole, faithful.listsBall inside nodes, ?_⟩
  -- Without a limit the whole discovery is listed.
  have few : (projection.discovery seeds walk).length ≤ 2 ^ 32 := faithful.length_discovery_le
  have all : whole.nodes = projection.discovery seeds walk := by
    rw [wholeNodes]
    exact List.take_of_length_le (Nat.le_trans few (by show 2 ^ 32 ≤ usizeBound - 1; decide))
  rw [all, nodes, List.length_take, ← List.take_eq_take_min]

/-- From one element twice, the limit leaves the element itself of the two within one step. -/
theorem walk_lists_ball_edges : ∃ projection subgraph whole,
    GraphProjection.fromState graphWriter.merged edgesDefinition = pure projection ∧
      projection.walkGraphProjection [1, 1]
        { Walk.default with limit := 1, includeStart := true } = pure subgraph ∧
      projection.walkGraphProjection [1, 1]
        { Walk.default with limit := usizeBound - 1, includeStart := true } = pure whole ∧
      subgraph.ListsBall graphWriter.merged edgesDefinition [1, 1]
        { Walk.default with limit := 1, includeStart := true } ∧
      subgraph.nodes = whole.nodes.take subgraph.nodes.length := by
  obtain ⟨projection, built, rows⟩ := Fallible.exists_of_returns
    (show (GraphProjection.fromState graphWriter.merged edgesDefinition).returns
      (fun projection => projection.elements = [2, 1]) = true by decide +kernel)
  have elements := of_decide_eq_true rows
  obtain ⟨subgraph, whole, ran, unlimited, lists, first⟩ :=
    walk_lists_ball graphWriter_sound built (show ([1, 1] : List ElementId) ≠ [] by decide)
      (by simp [elements]) { Walk.default with limit := 1, includeStart := true } (by decide)
  exact ⟨projection, subgraph, whole, built, ran, unlimited, lists, first⟩

end Oxgraph
