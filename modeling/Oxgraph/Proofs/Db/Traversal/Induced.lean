import Oxgraph.Proofs.Db.Traversal.Ball

/-! The edges of a walk: when they are in the documented order, and when their ends are listed. -/

namespace Oxgraph

section Order

/-- Edges of ascending relations follow one another unless the later comes first by its ends. -/
theorem TraversedEdge.precedes_iff {first second : TraversedEdge}
    (ascends : first.relation < second.relation) : first.Precedes second ↔
      compare (second.source, second.target) (first.source, first.target) ≠ .lt := by
  have lt : compare first.relation second.relation = .lt := Std.compare_eq_lt.mpr ascends
  have whole : compare (first.source, first.target, first.relation)
      (second.source, second.target, second.relation) =
        (compare (first.source, first.target) (second.source, second.target)).then .lt := by
    -- The relation is compared last, so it decides only between equal ends.
    rw [compare_pair, compare_pair, compare_pair, lt, Ordering.then_assoc]
  unfold Precedes
  rw [whole, Std.OrientedOrd.eq_swap (a := (second.source, second.target))]
  cases compare (first.source, first.target) (second.source, second.target) <;> decide

/-- A list that ascends by a key is ordered otherwise when every two of its keys are. -/
theorem pairwise_iff_of_ascending {T K : Type} [Ord K] [Std.TransOrd K] {items : List T}
    {key : T → K} (ascending : Ascending (items.map key)) {precedes : T → T → Prop} :
    items.Pairwise precedes ↔ ∀ first ∈ items, ∀ second ∈ items,
      compare (key first) (key second) = .lt → precedes first second := by
  induction items with
  | nil => simp
  | cons head rest ih =>
    rw [List.map_cons, ascending_cons] at ascending
    obtain ⟨least, sorted⟩ := ascending
    have below {item : T} (member : item ∈ rest) : compare (key head) (key item) = .lt :=
      least _ (List.mem_map_of_mem member)
    rw [List.pairwise_cons, ih sorted]
    constructor
    · rintro ⟨front, others⟩ first memberFirst second memberSecond before
      rcases List.mem_cons.mp memberFirst with rfl | inRest
      · rcases List.mem_cons.mp memberSecond with rfl | after
        · exact absurd before (compare_self_ne_lt _)
        · exact front second after
      · rcases List.mem_cons.mp memberSecond with rfl | after
        · -- Nothing in the rest is less than the head.
          exact absurd before (not_compare_lt_symm (below inRest))
        · exact others first inRest second after before
    · intro each
      refine ⟨fun item member => ?_, fun first inFirst second inSecond => ?_⟩
      · exact each head List.mem_cons_self item (List.mem_cons_of_mem _ member) (below member)
      · exact each first (List.mem_cons_of_mem _ inFirst) second (List.mem_cons_of_mem _ inSecond)

end Order

namespace GraphProjection.Faithful

variable {view : LayeredState} {definition : GraphProjectionDefinition}
  {projection : GraphProjection} (faithful : projection.Faithful view definition)
  {seeds : List ElementId} {walk : Walk} {subgraph : Subgraph}

include faithful

/-- A walk that returns has been given elements of the projection. -/
theorem projected_of_walk (seeded : seeds ≠ []) (positive : 1 ≤ walk.limit)
    (ran : projection.walkGraphProjection seeds walk = pure subgraph) :
    ∀ seed ∈ seeds, seed ∈ view.Projected definition := by
  unfold walkGraphProjection at ran
  rw [if_neg (by simp [seeded]; omega)] at ran
  -- A walk translates its seeds before anything else.
  obtain ⟨_, translated, _⟩ := Fallible.bind_eq_pure.mp ran
  intro seed member
  obtain ⟨_, _, found⟩ := exists_of_forall₂ (Fallible.forall₂_of_mapM translated).flip member
  change _ = pure _ at found
  -- A seed without a local ID would have been an error.
  cases located : projection.localElementId seed with
  | none =>
    rw [located] at found
    exact absurd found Fallible.throw_ne_pure
  | some element =>
    have there := faithful.elementIds.mp located
    exact (faithful.elements seed).mp (List.mem_of_getElem? there)

/-- The nodes and the edges of what a walk returns. -/
theorem walk_spec (positive : 1 ≤ walk.limit)
    (ran : projection.walkGraphProjection seeds walk = pure subgraph) :
    subgraph.nodes = (projection.discovery seeds walk).take walk.limit ∧
      (∀ edge, edge ∈ subgraph.edges ↔ view.IsEdge definition edge ∧
        edge.source ∈ projection.Reach seeds walk ∧ edge.target ∈ projection.Reach seeds walk) ∧
      Ascending (subgraph.edges.map TraversedEdge.relation) := by
  by_cases seeded : seeds = []
  · -- Without seeds the walk answers at once, with nothing.
    subst seeded
    unfold walkGraphProjection at ran
    rw [if_pos (.inl rfl)] at ran
    obtain rfl := Fallible.pure_eq_pure.mp ran
    have nothing : projection.discovery [] walk = [] := by
      unfold discovery
      rw [List.filterMap_nil, listing_nil]
      rfl
    refine ⟨?_, fun edge => ?_, ascending_nil⟩
    · rw [nothing, List.take_nil]
    · simp [Reach, nothing]
  · obtain ⟨same, returned, spec⟩ := faithful.walk_returns seeded
      (faithful.projected_of_walk seeded positive ran) positive
    cases Fallible.pure_eq_pure.mp (ran.symm.trans returned)
    exact spec

omit faithful in
/-- What a walk reaches are its seeds and the nodes it lists. -/
theorem mem_reach (nodes : subgraph.nodes = (projection.discovery seeds walk).take walk.limit)
    {element : ElementId} :
    element ∈ projection.Reach seeds walk ↔ element ∈ seeds ∨ element ∈ subgraph.Listed := by
  unfold Reach Subgraph.Listed
  rw [nodes]
  rfl

/-- A discovery that includes its seeds begins with them. -/
theorem seeds_front (included : walk.includeStart = true)
    (projected : ∀ seed ∈ seeds, seed ∈ view.Projected definition) :
    firsts seeds <+: (projection.discovery seeds walk).map TraversedNode.element := by
  -- Canonical and local IDs determine each other, so the first seeds have the first local IDs.
  have unique : Relator.BiUnique fun (seed : ElementId) (element : ProjectionElementId) =>
      projection.localElementId seed = some element := by
    refine ⟨fun first second element one other => ?_, fun seed first second one other => ?_⟩
    · have left := faithful.elementIds.mp one
      have right := faithful.elementIds.mp other
      exact Option.some.inj (left.symm.trans right)
    · exact Option.some.inj (one.symm.trans other)
  have locals := forall₂_firsts unique (faithful.locals_eq projected)
  have back : List.Forall₂ (fun element seed => projection.canonicalElementId element = some seed)
      (firsts (seeds.filterMap projection.localElementId)) (firsts seeds) := by
    refine List.Forall₂.flip (locals.imp fun seed element found => ?_)
    exact faithful.elementIds.mp found
  -- The listing starts with the local seeds, all of which are shown.
  have all : entries projection seeds walk = listing (projection.rowsAlong walk.direction)
      (some (min walk.maxDepth 0xFFFFFFFF)) (seeds.filterMap projection.localElementId)
      projection.elementBound := by
    unfold entries Bfs.Bounded.shown Walk.bounds
    simp [included]
  -- Before any entry is expanded, the listing holds the seeds alone.
  have first : (listing (projection.rowsAlong walk.direction)
      (some (min walk.maxDepth 0xFFFFFFFF)) (seeds.filterMap projection.localElementId) 0).map
        Prod.fst = firsts (seeds.filterMap projection.localElementId) := by
    unfold listing firsts
    rw [map_enterAll, List.map_map, List.map_nil]
    congr 1
    exact List.map_id _
  rw [discovery_elements, all, ← filterMap_eq back, ← first]
  exact ((listing_isPrefix (Nat.zero_le _)).map _).filterMap _

/-- A walk that includes its seeds lists the first of them, and others only after all of them. -/
theorem listed_front (included : walk.includeStart = true)
    (projected : ∀ seed ∈ seeds, seed ∈ view.Projected definition)
    (nodes : subgraph.nodes = (projection.discovery seeds walk).take walk.limit) :
    (∀ element ∈ seeds,
      element ∈ subgraph.Listed ↔ element ∈ (firsts seeds).take walk.limit) ∧
    ∀ element ∈ subgraph.Listed, element ∉ seeds → (firsts seeds).length ≤ walk.limit := by
  obtain ⟨rest, whole⟩ := faithful.seeds_front included projected
  have distinct : (firsts seeds ++ rest).Nodup := whole ▸ faithful.nodup_discovery
  -- The limit takes from the seeds first, and what is left of it from the others.
  have listed (element : ElementId) : element ∈ subgraph.Listed ↔
      element ∈ (firsts seeds).take walk.limit ∨
        element ∈ rest.take (walk.limit - (firsts seeds).length) := by
    rw [← List.mem_append, ← List.take_append, whole, ← List.map_take, ← nodes, List.mem_map]
    rfl
  constructor
  · intro element member
    rw [listed]
    refine or_iff_left fun later => ?_
    exact (List.nodup_append'.mp distinct).2.2 (mem_firsts.mpr member) (List.mem_of_mem_take later)
  · intro element reached absent
    rcases (listed element).mp reached with seed | later
    · exact absurd (mem_firsts.mp (List.mem_of_mem_take seed)) absent
    · -- Were a seed cut off, nothing would be left of the limit.
      by_contra short
      rw [Nat.sub_eq_zero_of_le (by omega), List.take_zero] at later
      cases later

end GraphProjection.Faithful

/-- The projection over the edges of the store: some of its edges, and what two walks discover. -/
theorem edgesProjection : ∃ projection,
    GraphProjection.fromState graphWriter.merged edgesDefinition = pure projection ∧
      projection.Faithful graphWriter.merged edgesDefinition ∧
      (∀ seed ∈ ([1, 2] : List ElementId), seed ∈ graphWriter.merged.Projected edgesDefinition) ∧
      projection.traversedEdge 0 = some ⟨1, 2, 1⟩ ∧ projection.traversedEdge 1 = some ⟨2, 1, 2⟩ ∧
      projection.discovery [1] Walk.default = [⟨2, 1⟩] ∧
      projection.discovery [1, 2] { Walk.default with limit := 1, includeStart := true } =
        [⟨1, 0⟩, ⟨2, 0⟩] := by
  obtain ⟨projection, built, facts⟩ := Fallible.exists_of_returns
    (show (GraphProjection.fromState graphWriter.merged edgesDefinition).returns
      (fun projection => projection.elements = [2, 1] ∧
        projection.traversedEdge 0 = some ⟨1, 2, 1⟩ ∧
        projection.traversedEdge 1 = some ⟨2, 1, 2⟩ ∧
        projection.discovery [1] Walk.default = [⟨2, 1⟩] ∧
        projection.discovery [1, 2] { Walk.default with limit := 1, includeStart := true } =
          [⟨1, 0⟩, ⟨2, 0⟩]) = true by decide +kernel)
  obtain ⟨_, faithful, _⟩ := projection_faithful graphWriter_sound edgesDefinition
  obtain ⟨elements, rest⟩ := of_decide_eq_true facts
  refine ⟨projection, built, faithful projection built, fun seed member => ?_, rest⟩
  refine ((faithful projection built).elements seed).mp ?_
  rw [elements]
  rcases List.mem_cons.mp member with rfl | last
  · decide
  · cases List.mem_singleton.mp last
    decide

/--
The edges of a walk are the selected relations between its seeds and nodes, once each; they are in
the documented order exactly when their relations are numbered in the order of their ends.
-/
theorem walk_edges_induced {view : LayeredState} (sound : view.Sound)
    {definition : GraphProjectionDefinition} {projection : GraphProjection}
    (built : GraphProjection.fromState view definition = pure projection) (seeds : List ElementId)
    (walk : Walk) (positive : 1 ≤ walk.limit) {subgraph : Subgraph}
    (ran : projection.walkGraphProjection seeds walk = pure subgraph) :
    subgraph.Induced view definition seeds ↔
      view.RelationsFollowEnds definition (projection.Reach seeds walk) := by
  have faithful := (projection_faithful sound definition).2.1 projection built
  obtain ⟨nodes, members, ascending⟩ := faithful.walk_spec positive ran
  -- The edges come in the order of their relations, so the documented order is one on relations.
  have ordered : subgraph.edges.Pairwise TraversedEdge.Precedes ↔
      view.RelationsFollowEnds definition (projection.Reach seeds walk) := by
    rw [pairwise_iff_of_ascending ascending]
    simp only [Std.compare_eq_lt]
    constructor
    · intro each first second one two firstSource firstTarget secondSource secondTarget before
      have precedes := each first ((members first).mpr ⟨one, firstSource, firstTarget⟩) second
        ((members second).mpr ⟨two, secondSource, secondTarget⟩) before
      exact (TraversedEdge.precedes_iff before).mp precedes
    · intro follow first inFirst second inSecond before
      obtain ⟨one, firstSource, firstTarget⟩ := (members first).mp inFirst
      obtain ⟨two, secondSource, secondTarget⟩ := (members second).mp inSecond
      exact (TraversedEdge.precedes_iff before).mpr
        (follow first second one two firstSource firstTarget secondSource secondTarget before)
  rw [← ordered]
  refine ⟨Subgraph.Induced.ordered, fun inOrder => ⟨fun edge => ?_, ascending.nodup, inOrder⟩⟩
  rw [members, GraphProjection.Faithful.mem_reach nodes, GraphProjection.Faithful.mem_reach nodes]

/-- The store without its oldest relation: the one from the first element is now the older. -/
def orderedWriter : Writer := WriterOp.runAll [.tombstone (.relation 1)] graphWriter

/-- The two relations left follow their ends, so a walk between them lists both in order. -/
theorem walk_edges_induced_ordered : ∃ projection subgraph,
    GraphProjection.fromState orderedWriter.merged edgesDefinition = pure projection ∧
      projection.walkGraphProjection [1] Walk.default = pure subgraph ∧
      ⟨2, 1, 2⟩ ∈ subgraph.edges ∧ ⟨3, 2, 1⟩ ∈ subgraph.edges ∧
      subgraph.Induced orderedWriter.merged edgesDefinition [1] := by
  have sound : orderedWriter.merged.Sound :=
    Writer.Step.sound (WriterOp.runAll_steps _ _) graphWriter_sound
  obtain ⟨projection, built, facts⟩ := Fallible.exists_of_returns
    (show (GraphProjection.fromState orderedWriter.merged edgesDefinition).returns
      (fun projection => projection.relations = [2, 3] ∧ projection.elements = [1, 2] ∧
        projection.traversedEdge 0 = some ⟨2, 1, 2⟩ ∧
        projection.traversedEdge 1 = some ⟨3, 2, 1⟩ ∧
        projection.discovery [1] Walk.default = [⟨2, 1⟩]) = true by decide +kernel)
  obtain ⟨relations, elements, out, into, found⟩ := of_decide_eq_true facts
  have faithful := (projection_faithful sound edgesDefinition).2.1 projection built
  have older := faithful.isEdge_of_shown out
  have newer := faithful.isEdge_of_shown into
  have seeds : ∀ seed ∈ ([1] : List ElementId), seed ∈ orderedWriter.merged.Projected
      edgesDefinition := by
    refine List.forall_mem_singleton.mpr ((faithful.elements 1).mp ?_)
    rw [elements]
    exact List.mem_cons_self
  obtain ⟨subgraph, ran, _, members, _⟩ := faithful.walk_returns
    (show ([1] : List ElementId) ≠ [] by decide) seeds (show 1 ≤ Walk.default.limit by decide)
  have start : (1 : ElementId) ∈ projection.Reach [1] Walk.default := .inl List.mem_cons_self
  have next : (2 : ElementId) ∈ projection.Reach [1] Walk.default := by
    refine .inr ⟨⟨2, 1⟩, ?_, rfl⟩
    rw [found]
    decide
  refine ⟨projection, subgraph, built, ran, (members _).mpr ⟨older, start, next⟩,
    (members _).mpr ⟨newer, next, start⟩,
    (walk_edges_induced sound built [1] _ (by decide) ran).mpr ?_⟩
  -- There are no other edges.
  have edges (edge : TraversedEdge) (isEdge : orderedWriter.merged.IsEdge edgesDefinition edge) :
      edge = ⟨2, 1, 2⟩ ∨ edge = ⟨3, 2, 1⟩ := by
    have member := (faithful.relations _).mpr isEdge.1
    rw [relations, List.mem_pair] at member
    exact member.imp (isEdge.unique older) (isEdge.unique newer)
  intro first second one two _ _ _ _ before
  rcases edges first one with rfl | rfl <;> rcases edges second two with rfl | rfl <;>
    first | decide | exact absurd before (by decide)

/-- From the first element, an edge from it is listed after one to it. -/
theorem walk_edges_out_of_order : ∃ projection subgraph,
    GraphProjection.fromState graphWriter.merged edgesDefinition = pure projection ∧
      projection.walkGraphProjection [1] Walk.default = pure subgraph ∧
      ¬ subgraph.Induced graphWriter.merged edgesDefinition [1] := by
  obtain ⟨projection, built, faithful, projected, into, out, found, _⟩ := edgesProjection
  obtain ⟨subgraph, ran, _, members, ascending⟩ := faithful.walk_returns
    (show ([1] : List ElementId) ≠ [] by decide)
    (List.forall_mem_singleton.mpr (projected 1 List.mem_cons_self))
    (show 1 ≤ Walk.default.limit by decide)
  -- Both edges are collected; their relations put the later source first.
  refine ⟨projection, subgraph, built, ran, fun induced => ?_⟩
  have start : (1 : ElementId) ∈ projection.Reach [1] Walk.default := .inl List.mem_cons_self
  have next : (2 : ElementId) ∈ projection.Reach [1] Walk.default := by
    refine .inr ⟨⟨2, 1⟩, ?_, rfl⟩
    rw [found]
    decide
  have inOrder := (pairwise_iff_of_ascending ascending).mp induced.ordered ⟨1, 2, 1⟩
    ((members _).mpr ⟨faithful.isEdge_of_shown into, next, start⟩) ⟨2, 1, 2⟩
    ((members _).mpr ⟨faithful.isEdge_of_shown out, start, next⟩) (by decide)
  unfold TraversedEdge.Precedes at inOrder
  revert inOrder
  decide

/--
A walk that includes its seeds references no node it omitted exactly when no selected relation joins
two seeds of which the limit omits one.
-/
theorem walk_closed {view : LayeredState} (sound : view.Sound)
    {definition : GraphProjectionDefinition} {projection : GraphProjection}
    (built : GraphProjection.fromState view definition = pure projection) (seeds : List ElementId)
    (walk : Walk) (positive : 1 ≤ walk.limit) (included : walk.includeStart = true)
    {subgraph : Subgraph} (ran : projection.walkGraphProjection seeds walk = pure subgraph) :
    subgraph.Closed ↔
      ∀ edge, view.IsEdge definition edge → edge.source ∈ seeds → edge.target ∈ seeds →
        edge.source ∈ (firsts seeds).take walk.limit ∧
          edge.target ∈ (firsts seeds).take walk.limit := by
  have faithful := (projection_faithful sound definition).2.1 projection built
  obtain ⟨nodes, members, _⟩ := faithful.walk_spec positive ran
  have projected : ∀ seed ∈ seeds, seed ∈ view.Projected definition := by
    by_cases seeded : seeds = []
    · subst seeded
      exact fun _ member => (nomatch member)
    · exact faithful.projected_of_walk seeded positive ran
  obtain ⟨seedListed, past⟩ := faithful.listed_front included projected nodes
  constructor
  · intro closed edge isEdge source target
    obtain ⟨sourceListed, targetListed⟩ := closed edge
      ((members edge).mpr ⟨isEdge, .inl source, .inl target⟩)
    exact ⟨(seedListed _ source).mp sourceListed, (seedListed _ target).mp targetListed⟩
  · intro first edge member
    obtain ⟨isEdge, source, target⟩ := (members edge).mp member
    rw [GraphProjection.Faithful.mem_reach nodes] at source target
    -- Only an edge between two seeds can have an end that was cut off.
    by_cases both : edge.source ∈ seeds ∧ edge.target ∈ seeds
    · obtain ⟨inSource, inTarget⟩ := first edge isEdge both.1 both.2
      exact ⟨(seedListed _ both.1).mpr inSource, (seedListed _ both.2).mpr inTarget⟩
    · -- An end that is no seed is only listed after all the seeds.
      have full : (firsts seeds).length ≤ walk.limit := by
        rcases not_and_or.mp both with noSource | noTarget
        · exact past _ (source.resolve_left noSource) noSource
        · exact past _ (target.resolve_left noTarget) noTarget
      have reached (element : ElementId)
          (inside : element ∈ seeds ∨ element ∈ subgraph.Listed) : element ∈ subgraph.Listed := by
        rcases inside with seed | listed
        · rw [seedListed _ seed, List.take_of_length_le full]
          exact mem_firsts.mpr seed
        · exact listed
      exact ⟨reached _ source, reached _ target⟩

/-- A walk that lists both elements is closed, whatever joins them. -/
theorem walk_closed_both : ∃ projection subgraph,
    GraphProjection.fromState graphWriter.merged edgesDefinition = pure projection ∧
      projection.walkGraphProjection [1, 2] { Walk.default with includeStart := true } =
        pure subgraph ∧ subgraph.Closed := by
  obtain ⟨projection, built, faithful, projected, _⟩ := edgesProjection
  obtain ⟨subgraph, ran, _⟩ := faithful.walk_returns
    (show ([1, 2] : List ElementId) ≠ [] by decide) projected
    (show 1 ≤ ({ Walk.default with includeStart := true } : Walk).limit by decide)
  have closed := walk_closed graphWriter_sound built [1, 2] _ (by decide) rfl ran
  refine ⟨projection, subgraph, built, ran, closed.mpr fun edge _ source target => ?_⟩
  have all : (firsts ([1, 2] : List ElementId)).take
      ({ Walk.default with includeStart := true } : Walk).limit = [1, 2] := by
    decide
  rw [all]
  exact ⟨source, target⟩

/-- A walk from both elements that may list one of them references the other. -/
theorem walk_not_closed : ∃ projection subgraph,
    GraphProjection.fromState graphWriter.merged edgesDefinition = pure projection ∧
      projection.walkGraphProjection [1, 2]
        { Walk.default with limit := 1, includeStart := true } = pure subgraph ∧
      ¬ subgraph.Closed := by
  obtain ⟨projection, built, faithful, projected, into, _, _, found⟩ := edgesProjection
  obtain ⟨subgraph, ran, nodes, members, _⟩ := faithful.walk_returns
    (show ([1, 2] : List ElementId) ≠ [] by decide) projected
    (show 1 ≤ ({ Walk.default with limit := 1, includeStart := true } : Walk).limit by decide)
  refine ⟨projection, subgraph, built, ran, fun closed => ?_⟩
  obtain ⟨⟨node, listed, same⟩, _⟩ := closed ⟨1, 2, 1⟩
    ((members _).mpr ⟨faithful.isEdge_of_shown into, .inl (by decide), .inl (by decide)⟩)
  rw [nodes, found] at listed
  -- Only the first element is listed.
  obtain rfl := List.mem_singleton.mp listed
  exact absurd same (by decide)

end Oxgraph
