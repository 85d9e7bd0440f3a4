import Oxgraph.Proofs.Algo.Bounded
import Oxgraph.Proofs.Db.Projection.Faithful
import Oxgraph.Spec.Walk

/-! A search over a projection goes where the relations of its view lead, and finds what it reaches. -/

namespace Oxgraph

open Layout

namespace GraphProjection

variable {view : LayeredState} {definition : GraphProjectionDefinition}
  {projection : GraphProjection}

-- Local and canonical IDs.

namespace Faithful

variable (faithful : projection.Faithful view definition)
include faithful

/-- The elements of a projection are at most as many as `u32` numbers. -/
theorem length_elements : projection.elements.length ≤ 2 ^ 32 := by
  -- A longer list would have a local ID past every `u32`.
  by_contra more
  obtain ⟨id, past⟩ := faithful.elementCovered (Nat.lt_of_not_le more)
  rw [localIndex_eq] at past
  have small := id.toNat_lt
  omega

variable {element : ProjectionElementId}

omit faithful in
/-- A local element is one of the projection when it has a canonical ID. -/
theorem contained_iff :
    projection.containsElement element = true ↔
      ∃ canonical, projection.canonicalElementId element = some canonical := by
  unfold containsElement canonicalElementId
  rw [decide_eq_true_eq]
  constructor
  · intro inside
    exact ⟨_, List.getElem?_eq_getElem inside⟩
  · rintro ⟨canonical, located⟩
    exact (List.getElem?_eq_some_iff.mp located).1

variable {canonical : ElementId}

/-- A projected element has a local ID. -/
theorem exists_local (projected : canonical ∈ view.Projected definition) :
    ∃ element, projection.canonicalElementId element = some canonical := by
  obtain ⟨position, located⟩ :=
    List.mem_iff_getElem?.mp ((faithful.elements canonical).mpr projected)
  obtain ⟨element, rfl⟩ := faithful.elementCovered (List.getElem?_eq_some_iff.mp located).1
  exact ⟨element, located⟩

/-- A local edge shows a selected relation between the elements at its ends. -/
theorem traversedEdge_of_ends {edge : ProjectionRelationId} {source target : ProjectionElementId}
    (starts : projection.source edge = some source)
    (stops : projection.target edge = some target) :
    ∃ shown, projection.traversedEdge edge = some shown ∧ view.IsEdge definition shown ∧
      projection.canonicalRelationId edge = some shown.relation ∧
      projection.canonicalElementId source = some shown.source ∧
      projection.canonicalElementId target = some shown.target := by
  obtain ⟨pair, ends, _⟩ := Option.map_eq_some_iff.mp starts
  have inside := (List.getElem?_eq_some_iff.mp ends).1
  rw [faithful.endpoints] at inside
  have located : projection.canonicalRelationId edge =
      some projection.relations[localIndex edge] := List.getElem?_eq_getElem inside
  -- The local ends of the edge stand for the ends of the relation.
  obtain ⟨source', from_, starts', canonicalSource, sourceEnd⟩ := faithful.source located
  obtain ⟨target', to_, stops', canonicalTarget, targetEnd⟩ := faithful.target located
  cases starts.symm.trans starts'
  cases stops.symm.trans stops'
  have selected := (faithful.relations _).mp (List.mem_of_getElem? located)
  refine ⟨⟨_, from_, to_⟩, ?_, ⟨selected, sourceEnd, targetEnd⟩, located, canonicalSource,
    canonicalTarget⟩
  unfold traversedEdge
  rw [starts, stops, located]
  simp [canonicalSource, canonicalTarget]

/-- A selected relation is shown by a local edge. -/
theorem exists_ends {shown : TraversedEdge} (isEdge : view.IsEdge definition shown) :
    ∃ edge source target, projection.source edge = some source ∧
      projection.target edge = some target ∧ projection.traversedEdge edge = some shown ∧
      projection.canonicalElementId source = some shown.source ∧
      projection.canonicalElementId target = some shown.target := by
  obtain ⟨selected, sourceEnd, targetEnd⟩ := isEdge
  obtain ⟨position, located⟩ := List.mem_iff_getElem?.mp ((faithful.relations _).mpr selected)
  -- The relation has a place in the list, and the place is a local edge.
  obtain ⟨edge, rfl⟩ := faithful.relationCovered (List.getElem?_eq_some_iff.mp located).1
  obtain ⟨source, from_, starts, canonicalSource, sourceEnd'⟩ := faithful.source located
  obtain ⟨target, to_, stops, canonicalTarget, targetEnd'⟩ := faithful.target located
  -- The ends of a relation are unique.
  obtain rfl := sourceEnd.unique sourceEnd'
  obtain rfl := targetEnd.unique targetEnd'
  obtain ⟨again, shows, _, relation, source', target'⟩ :=
    faithful.traversedEdge_of_ends starts stops
  have same : again = shown := by
    cases again
    cases shown
    cases relation.symm.trans located
    cases source'.symm.trans canonicalSource
    cases target'.symm.trans canonicalTarget
    rfl
  exact ⟨edge, source, target, starts, stops, same ▸ shows, canonicalSource, canonicalTarget⟩

omit faithful in
/-- The other ends that a row lists. -/
theorem mem_others {near far : ProjectionRelationId → Option ProjectionElementId}
    {edges : ProjectionElementId → Option (List ProjectionRelationId)}
    {ends : ProjectionElementId → Option (List ProjectionElementId)}
    (lists : projection.Lists near far edges ends) {element other : ProjectionElementId}
    (contained : projection.containsElement element = true) :
    other ∈ (ends element).getD [] ↔ ∃ edge, near edge = some element ∧ far edge = some other := by
  obtain ⟨row, others, _, same, _, members, positions⟩ := lists element contained
  rw [same, Option.getD_some]
  -- The row of ends is the row of edges read at their far ends.
  have listed : other ∈ others ↔ some other ∈ row.map far := by
    rw [positions]
    simp
  rw [listed, List.mem_map]
  simp only [members]

variable {direction : Direction}

/-- A row of a direction lists the elements one step on. -/
theorem mem_rowsAlong {element other : ProjectionElementId}
    (located : projection.canonicalElementId element = some canonical) :
    other ∈ projection.rowsAlong direction element ↔
      ∃ next, projection.canonicalElementId other = some next ∧
        view.StepsTo definition direction canonical next := by
  have contained := contained_iff.mpr ⟨canonical, located⟩
  -- An edge from a local element to another, and the relation that it shows.
  have leads {source target : ProjectionElementId} {first second : ElementId}
      (one : projection.canonicalElementId source = some first)
      (two : projection.canonicalElementId target = some second) :
      (∃ edge, projection.source edge = some source ∧ projection.target edge = some target) ↔
        view.Leads definition first second := by
    constructor
    · rintro ⟨edge, starts, stops⟩
      obtain ⟨shown, _, isEdge, _, source', target'⟩ := faithful.traversedEdge_of_ends starts stops
      cases one.symm.trans source'
      cases two.symm.trans target'
      exact ⟨shown.relation, isEdge⟩
    · rintro ⟨relation, isEdge⟩
      obtain ⟨edge, source', target', starts, stops, _, first', second'⟩ :=
        faithful.exists_ends isEdge
      have sources := (faithful.elementIds.mpr first').symm.trans (faithful.elementIds.mpr one)
      have targets := (faithful.elementIds.mpr second').symm.trans (faithful.elementIds.mpr two)
      cases sources
      cases targets
      exact ⟨edge, starts, stops⟩
  -- Both ends of a local edge have canonical IDs.
  have known {edge : ProjectionRelationId} {source target : ProjectionElementId}
      (starts : projection.source edge = some source)
      (stops : projection.target edge = some target) :
      (∃ first, projection.canonicalElementId source = some first) ∧
        ∃ second, projection.canonicalElementId target = some second := by
    obtain ⟨shown, _, _, _, source', target'⟩ := faithful.traversedEdge_of_ends starts stops
    exact ⟨⟨_, source'⟩, _, target'⟩
  have out : other ∈ projection.rowsAlong .outgoing element ↔
      ∃ next, projection.canonicalElementId other = some next ∧
        view.Leads definition canonical next := by
    refine (mem_others faithful.outgoing contained).trans ⟨?_, ?_⟩
    · rintro ⟨edge, starts, stops⟩
      obtain ⟨_, next, there⟩ := known starts stops
      exact ⟨next, there, (leads located there).mp ⟨edge, starts, stops⟩⟩
    · rintro ⟨next, there, led⟩
      exact (leads located there).mpr led
  have back : other ∈ projection.rowsAlong .incoming element ↔
      ∃ next, projection.canonicalElementId other = some next ∧
        view.Leads definition next canonical := by
    -- The same with the ends of the edge exchanged.
    refine (mem_others faithful.incoming contained).trans ⟨?_, ?_⟩
    · rintro ⟨edge, stops, starts⟩
      obtain ⟨⟨next, there⟩, _⟩ := known starts stops
      exact ⟨next, there, (leads there located).mp ⟨edge, starts, stops⟩⟩
    · rintro ⟨next, there, led⟩
      obtain ⟨edge, starts, stops⟩ := (leads there located).mpr led
      exact ⟨edge, stops, starts⟩
  cases direction with
  | outgoing => exact out
  | incoming => exact back
  | both =>
    -- The row of both directions is the one row after the other.
    refine List.mem_append.trans ((or_congr out back).trans ?_)
    simp only [LayeredState.StepsTo, ← exists_or, ← and_or_left]

/-- A search may run on the projection. -/
theorem lawful : projection.topologyView.Lawful := by
  have closed {direction : Direction} {element target : ProjectionElementId}
      (contained : projection.containsElement element = true)
      (member : target ∈ projection.rowsAlong direction element) :
      projection.containsElement target = true := by
    obtain ⟨canonical, located⟩ := contained_iff.mp contained
    obtain ⟨next, there, _⟩ := (faithful.mem_rowsAlong located).mp member
    exact contained_iff.mpr ⟨next, there⟩
  refine ⟨fun contained => ?_, fun {left right} _ _ same => ?_, fun contained target member => ?_,
    fun contained target member => ?_⟩
  · exact of_decide_eq_true contained
  · -- Elements with one index are one element.
    change localIndex left = localIndex right at same
    rw [localIndex_eq, localIndex_eq] at same
    exact UInt32.toNat_inj.mp same
  · exact @closed .outgoing _ target contained member
  · exact @closed .incoming _ target contained member

/-- The rows of a direction lead to elements of the projection. -/
theorem closed (direction : Direction) {element : ProjectionElementId}
    (contained : projection.topologyView.containsElement element = true) :
    ∀ target ∈ projection.rowsAlong direction element,
      projection.topologyView.containsElement target = true := by
  intro target member
  obtain ⟨canonical, located⟩ := contained_iff.mp contained
  obtain ⟨next, there, _⟩ := (faithful.mem_rowsAlong located).mp member
  exact contained_iff.mpr ⟨next, there⟩

-- Hops and steps.

omit faithful in
/-- Both ends of a step are projected. -/
theorem projected_of_stepsTo {near far : ElementId}
    (step : view.StepsTo definition direction near far) :
    near ∈ view.Projected definition ∧ far ∈ view.Projected definition := by
  have ends {source target : ElementId} (led : view.Leads definition source target) :
      source ∈ view.Projected definition ∧ target ∈ view.Projected definition := by
    obtain ⟨relation, selected, starts, stops⟩ := led
    exact ⟨⟨relation, selected, .inl starts⟩, relation, selected, .inr stops⟩
  cases direction with
  | outgoing => exact ends step
  | incoming => exact (ends step).symm
  | both => exact step.elim ends fun back => (ends back).symm

variable {seeds : List ElementId} {hops : Nat}

omit faithful in
/-- Every element that steps lead to from projected seeds is projected. -/
theorem projected_of_away (projected : ∀ seed ∈ seeds, seed ∈ view.Projected definition)
    {element : ElementId} (away : view.Away definition direction seeds hops element) :
    element ∈ view.Projected definition := by
  cases hops with
  | zero => exact projected element away
  | succ hops =>
    obtain ⟨before, _, step⟩ := away
    exact (projected_of_stepsTo step).2

/-- The local seeds are those whose canonical IDs are seeds. -/
theorem mem_seeds :
    element ∈ seeds.filterMap projection.localElementId ↔
      ∃ seed ∈ seeds, projection.canonicalElementId element = some seed := by
  rw [List.mem_filterMap]
  simp only [faithful.elementIds]

/-- So many rows of a direction lead to the elements so many of its steps away. -/
theorem hops_iff :
    Hops (projection.rowsAlong direction) (seeds.filterMap projection.localElementId) hops
        element ↔
      ∃ canonical, projection.canonicalElementId element = some canonical ∧
        view.Away definition direction seeds hops canonical := by
  induction hops generalizing element with
  | zero =>
    refine faithful.mem_seeds.trans ⟨?_, ?_⟩
    · rintro ⟨seed, member, located⟩
      exact ⟨seed, located, member⟩
    · rintro ⟨seed, located, member⟩
      exact ⟨seed, member, located⟩
  | succ hops ih =>
    constructor
    · rintro ⟨before, reached, inRow⟩
      obtain ⟨near, located, away⟩ := ih.mp reached
      obtain ⟨far, there, step⟩ := (faithful.mem_rowsAlong located).mp inRow
      exact ⟨far, there, near, away, step⟩
    · rintro ⟨far, there, near, away, step⟩
      -- The element before is one end of an edge, so it has a local ID.
      obtain ⟨before, located⟩ := faithful.exists_local (projected_of_stepsTo step).1
      exact ⟨before, ih.mpr ⟨near, located, away⟩,
        (faithful.mem_rowsAlong located).mpr ⟨far, there, step⟩⟩

/-- The distance of a local element is the least number of steps to its canonical ID. -/
theorem distance_iff (located : projection.canonicalElementId element = some canonical) :
    Distance (projection.rowsAlong direction) (seeds.filterMap projection.localElementId) hops
        element ↔ view.ShortestHops definition direction seeds hops canonical := by
  have reached (hops : Nat) : Hops (projection.rowsAlong direction)
      (seeds.filterMap projection.localElementId) hops element ↔
        view.Away definition direction seeds hops canonical := by
    -- The canonical ID of the element is the one that was given.
    rw [faithful.hops_iff]
    constructor
    · rintro ⟨_, same, away⟩
      cases located.symm.trans same
      exact away
    · exact fun away => ⟨canonical, located, away⟩
  simp only [Distance, LayeredState.ShortestHops, reached]

/-- Distances are less than the number of elements, which `u32` numbers. -/
theorem distance_small (far : Distance (projection.rowsAlong direction)
      (seeds.filterMap projection.localElementId) hops element) : hops < 2 ^ 32 := by
  have inside {hops : Nat} {node : ProjectionElementId}
      (reached : Hops (projection.rowsAlong direction)
        (seeds.filterMap projection.localElementId) hops node) :
      node ∈ projection.elements.filterMap projection.localElementId := by
    obtain ⟨canonical, located, _⟩ := faithful.hops_iff.mp reached
    exact List.mem_filterMap.mpr
      ⟨canonical, List.mem_of_getElem? located, faithful.elementIds.mpr located⟩
  -- A shortest way visits no element twice.
  have below := distance_lt_length inside far
  have fewer := List.length_filterMap_le projection.localElementId projection.elements
  have few := faithful.length_elements
  omega

end Faithful

-- What a search shows its visitor.

/-- The node that a listed element is reported as. -/
def reported (projection : GraphProjection) (entry : ProjectionElementId × Nat) :
    Option TraversedNode :=
  (projection.canonicalElementId entry.1).map fun element => { element, depth := entry.2 }

/-- A map finds the local IDs of some elements. -/
def Finds (projection : GraphProjection) (discovered : BTreeMap ElementId ProjectionElementId)
    (reach : Set ElementId) : Prop :=
  ∀ canonical element, discovered[canonical]? = some element ↔
    canonical ∈ reach ∧ projection.localElementId canonical = some element

namespace Faithful

variable (faithful : projection.Faithful view definition)
include faithful

/-- One more element is found. -/
theorem finds_insert {discovered : BTreeMap ElementId ProjectionElementId} {reach : Set ElementId}
    (finds : projection.Finds discovered reach) {canonical : ElementId}
    {element : ProjectionElementId}
    (located : projection.canonicalElementId element = some canonical) :
    projection.Finds (discovered.insert canonical element)
      {key | key ∈ reach ∨ key = canonical} := by
  intro key other
  rw [get_insert, Set.mem_ofPred_eq]
  have known := faithful.elementIds.mpr located
  -- The new key finds its element; every other key finds what it found.
  by_cases same : canonical = key
  · subst same
    rw [if_pos rfl, known]
    simp
  · rw [if_neg same, finds key other, or_iff_left fun equal => same equal.symm]

/-- Any number of elements are found. -/
theorem finds_insertAll {discovered : BTreeMap ElementId ProjectionElementId}
    {reach : Set ElementId} (finds : projection.Finds discovered reach)
    {entries : List (ElementId × ProjectionElementId)}
    (located : ∀ entry ∈ entries, projection.canonicalElementId entry.2 = some entry.1) :
    projection.Finds (entries.foldl (fun map entry => map.insert entry.1 entry.2) discovered)
      {key | key ∈ reach ∨ ∃ entry ∈ entries, entry.1 = key} := by
  induction entries generalizing discovered reach with
  | nil => simpa using @finds
  | cons entry rest ih =>
    obtain ⟨here, others⟩ := List.forall_mem_cons.mp located
    -- What is found so far is carried along, one element more at each step.
    have later := ih (faithful.finds_insert finds here) others
    intro key element
    refine (later key element).trans ?_
    simp only [Set.mem_ofPred_eq, List.exists_mem_cons_iff, or_assoc, eq_comm]

/-- A visitor that is shown elements of the projection reports them, and finds them later. -/
theorem observed_eq {start : Discovery} {reach : Set ElementId}
    (finds : projection.Finds start.discovered reach) {entries : List (ProjectionElementId × Nat)}
    (contained : ∀ entry ∈ entries, projection.containsElement entry.1 = true) : ∃ after,
      Bfs.Bounded.observed projection.observe (some start) entries = some after ∧
        after.nodes = start.nodes ++ entries.filterMap (fun entry =>
          projection.reported (entry.1, (UInt32.ofNat entry.2).toNat)) ∧
        projection.Finds after.discovered {key | key ∈ reach ∨
          ∃ entry ∈ entries, projection.canonicalElementId entry.1 = some key} := by
  induction entries generalizing start reach with
  | nil => exact ⟨start, rfl, (List.append_nil _).symm, by simpa using finds⟩
  | cons entry rest ih =>
    obtain ⟨here, others⟩ := List.forall_mem_cons.mp contained
    obtain ⟨canonical, located⟩ := contained_iff.mp here
    have step : projection.observe (some start) entry.1 (UInt32.ofNat entry.2) =
        (.continue, some {
          nodes := start.nodes ++ [⟨canonical, (UInt32.ofNat entry.2).toNat⟩]
          discovered := start.discovered.insert canonical entry.1 }) := by
      unfold observe
      rw [located]
    -- What is carried along is what was found so far; the entry just shown is found from now on.
    obtain ⟨after, shown, nodes, found⟩ := @ih
      ⟨start.nodes ++ [⟨canonical, (UInt32.ofNat entry.2).toNat⟩],
        start.discovered.insert canonical entry.1⟩ _ (faithful.finds_insert finds located) others
    refine ⟨after, ?_, ?_, ?_⟩
    · unfold Bfs.Bounded.observed at *
      rw [List.foldl_cons, step]
      exact shown
    · have first : projection.reported (entry.1, (UInt32.ofNat entry.2).toNat) =
          some ⟨canonical, (UInt32.ofNat entry.2).toNat⟩ := by
        unfold reported
        rw [located]
        rfl
      rw [nodes, List.filterMap_cons, first]
      exact List.append_assoc _ _ _
    · intro key element
      refine (found key element).trans ?_
      simp only [Set.mem_ofPred_eq, List.exists_mem_cons_iff, or_assoc, located, Option.some.injEq,
        eq_comm]

/-- The visitor of a walk never stops a search. -/
theorem continues {start : Discovery} {reach : Set ElementId}
    (finds : projection.Finds start.discovered reach) :
    Bfs.Bounded.Continues projection.topologyView projection.observe (some start) := by
  intro entries element depth contained inside
  obtain ⟨after, shown, _⟩ := faithful.observed_eq finds contained
  obtain ⟨canonical, located⟩ := contained_iff.mp inside
  rw [shown]
  unfold observe
  rw [located]

omit faithful in
/-- A row of the topology view of a projection is a row along a direction. -/
theorem searchAlong_rows (direction : Direction) (seeds : List ProjectionElementId)
    (bounds : BfsBounds) (scratch : BfsEpochScratch ProjectionElementId)
    (sink : Option Discovery) :
    projection.searchAlong direction seeds bounds scratch sink =
      boundedSearch projection.topologyView (projection.rowsAlong direction) seeds bounds
        projection.observe scratch sink := by
  cases direction <;> rfl

/-- A search from elements of the projection over new scratch shows the listing up to the cap. -/
theorem searchAlong_eq {start : Discovery} {reach : Set ElementId}
    (finds : projection.Finds start.discovered reach) (direction : Direction)
    {seeds : List ProjectionElementId}
    (contained : ∀ seed ∈ seeds, projection.containsElement seed = true) {bounds : BfsBounds}
    (limited : bounds.maxDepth.isSome) : ∃ after,
      projection.searchAlong direction seeds bounds
          (.new (List.replicate projection.elementBound 0)
            (List.replicate projection.elementBound 0)) (some start) =
        (.ok (), after, Bfs.Bounded.observed projection.observe (some start)
          ((Bfs.Bounded.shown bounds (listing (projection.rowsAlong direction)
            (Bfs.Bounded.depthLimit bounds) seeds projection.elementBound)).take
              (Bfs.Bounded.cap bounds))) := by
  have usable := Bfs.uses_usable (List.replicate projection.elementBound 0)
    (List.replicate projection.elementBound (0 : ProjectionElementId)) []
  have marks := usable.marks
  have queue := usable.queue
  rw [List.length_replicate] at marks queue
  rw [searchAlong_rows]
  exact Bfs.Bounded.boundedSearch_observes faithful.lawful (faithful.closed direction) contained
    usable.settled (Nat.le_of_eq marks.symm) (Nat.le_of_eq queue.symm) bounds
    (Bfs.Bounded.reportable_of_depthsFit faithful.lawful (faithful.closed direction) contained
      (.inr ⟨faithful.length_elements, limited⟩)) (faithful.continues finds)

end Faithful

end GraphProjection

end Oxgraph
