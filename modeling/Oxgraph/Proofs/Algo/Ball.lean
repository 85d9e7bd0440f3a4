import Oxgraph.Proofs.Algo.Bounded
import Oxgraph.Proofs.Algo.Sssp
import Oxgraph.Spec.Search

/-! A bounded search emits the ball around its seeds as far as its limit, if that is no zero. -/

namespace Oxgraph

namespace Bfs

namespace Bounded

variable {Id : Type} [DecidableEq Id] {graph : TopologyView Id} {rows : Id → List Id}
  {seeds : List Id} {bounds : BfsBounds}

/-- What is shown of a listing has ascending depths. -/
theorem sorted_shown (count : Nat) :
    ((shown bounds (listing rows (depthLimit bounds) seeds count)).map Prod.snd).Pairwise (· ≤ ·) :=
  (levelled_listing count).sorted.sublist (List.filter_sublist.map Prod.snd)

/-- The first pair that is shown is a seed or one hop away. -/
theorem first_shown {count : Nat} {entry : Id × Nat}
    (first : entry ∈ (shown bounds (listing rows (depthLimit bounds) seeds count)).take 1) :
    entry.2 ≤ 1 := by
  by_contra far
  have shownFirst := List.mem_of_mem_take first
  have member := (List.mem_filter.mp shownFirst).1
  obtain ⟨position, found⟩ := List.mem_iff_getElem?.mp member
  have here := getElem?_listing found
  obtain ⟨distance, listable⟩ := listed_iff.mp ⟨position, here⟩
  -- Some element is one hop away, and it is listed before.
  obtain ⟨other, near⟩ := exists_distance_below distance (show 1 ≤ entry.2 by omega)
  have nearListable : Listable (depthLimit bounds) 1 := by
    intro most limit
    have := listable most limit
    omega
  obtain ⟨place, there⟩ := listed_iff.mpr ⟨near, nearListable⟩
  have before : place < position := by
    by_contra after
    have ascending := listed_sorted (Nat.le_of_not_lt after) here there
    dsimp only at ascending
    omega
  have inside : place < (listing rows (depthLimit bounds) seeds count).length :=
    Nat.lt_trans before (List.getElem?_eq_some_iff.mp found).1
  have read := List.getElem?_eq_getElem inside
  have same := getElem?_listing read
  rw [there] at same
  have listedNear : (other, 1) ∈ listing rows (depthLimit bounds) seeds count := by
    rw [Option.some.inj same]
    exact List.getElem_mem inside
  have shownNear := @mem_shown Id bounds _ _ listedNear Nat.zero_lt_one
  -- The first pair that is shown has the least depth of all.
  have sorted := @sorted_shown Id _ rows seeds bounds count
  cases all : shown bounds (listing rows (depthLimit bounds) seeds count) with
  | nil =>
    rw [all] at shownNear
    cases shownNear
  | cons head rest =>
    rw [all] at first shownNear sorted
    rw [List.mem_singleton.mp first] at far
    rcases List.mem_cons.mp shownNear with rfl | later
    · exact far (Nat.le_refl 1)
    · have least := (List.pairwise_cons.mp sorted).1 1 (List.mem_map.mpr ⟨_, later, rfl⟩)
      exact far least

/-- What is shown of any listing is in front of what is shown of the complete one. -/
theorem shown_isPrefix {complete : Nat}
    (ended : listed rows (depthLimit bounds) seeds complete = none) (count : Nat) :
    shown bounds (listing rows (depthLimit bounds) seeds count) <+:
      shown bounds (listing rows (depthLimit bounds) seeds complete) := by
  refine List.IsPrefix.filter _ ?_
  rcases Nat.le_total count complete with before | after
  · exact listing_isPrefix before
  · obtain ⟨more, rfl⟩ := Nat.exists_eq_add_of_le after
    rw [listing_ended ended]

-- The listing of a bounded search is the ball.

section Sequence

variable (lawful : graph.Lawful)
  (closed : ∀ {element}, graph.containsElement element = true →
    ∀ target ∈ rows element, graph.containsElement target = true)
  (contained : ∀ seed ∈ seeds, graph.containsElement seed = true)

include lawful closed contained

/-- What is shown of the complete listing is the ball around the seeds. -/
theorem shown_ball (bounds : BfsBounds) :
    Ball rows seeds bounds.maxDepth bounds.includeSeeds
      (shown bounds (listing rows (depthLimit bounds) seeds graph.elementBound)) := by
  -- The listing is complete, so what is within the limit is at some position of it.
  have complete := listing_complete lawful closed contained (depthLimit bounds)
  have limits (depth : Nat) : Listable (depthLimit bounds) depth ↔
      ∀ most, bounds.maxDepth = some most → depth ≤ most.toNat := by
    unfold Listable depthLimit
    cases bounds.maxDepth <;> simp
  constructor
  case once => exact (nodup_listing _).sublist (List.filter_sublist.map Prod.fst)
  case sorted => exact sorted_shown _
  case member =>
    intro element depth
    unfold Within shown
    rw [List.mem_filter, Bool.or_eq_true, decide_eq_true_eq, ← limits, ← and_assoc,
      ← listed_iff]
    refine and_congr_left fun _ => ?_
    constructor
    · exact listed_of_mem
    · rintro ⟨position, here⟩
      refine mem_listing_of_listed here ?_
      by_contra past
      rw [listed_ended complete (by omega)] at here
      cases here
  case seeds =>
    intro included
    have all : shown bounds (listing rows (depthLimit bounds) seeds graph.elementBound) =
        listing rows (depthLimit bounds) seeds graph.elementBound := by
      refine List.filter_eq_self.mpr fun entry _ => ?_
      rw [included, Bool.true_or]
    rw [all, ← @listing_zero Id _ rows (depthLimit bounds)]
    exact listing_isPrefix (Nat.zero_le _)

end Sequence

/-- A search that shows the depths of reportable entries emits them as far as its cap. -/
theorem boundedSearch_emits (lawful : graph.Lawful)
    (closed : ∀ {element}, graph.containsElement element = true →
      ∀ target ∈ rows element, graph.containsElement target = true)
    (contained : ∀ seed ∈ seeds, graph.containsElement seed = true) {scratch : BfsEpochScratch Id}
    (settled : Settled scratch.marks scratch.epoch)
    (marksFit : graph.elementBound ≤ scratch.marks.length)
    (queueFits : graph.elementBound ≤ scratch.queue.length)
    (reportable : Reportable rows seeds bounds) :
    Emits (fun visit visitor => boundedSearch graph rows seeds bounds visit scratch visitor)
      ((shown bounds (listing rows (depthLimit bounds) seeds graph.elementBound)).take
        (cap bounds)) := by
  refine ⟨((shown bounds (listing rows (depthLimit bounds) seeds graph.elementBound)).take
    (cap bounds)).map fun entry => (entry.1, UInt32.ofNat entry.2), ?_, ?_⟩
  · rw [List.map_map]
    refine (List.map_congr_left fun entry member => ?_).trans (List.map_id _)
    have small := reportable _ entry member
    exact Prod.ext rfl (UInt32.toNat_ofNat_of_lt' small)
  · intro V visit visitor never
    -- A visitor that never breaks observes all that is shown below the cap.
    have continues : NeverBreaks visit := never
    obtain ⟨after, ran⟩ := boundedSearch_observes lawful closed contained settled marksFit queueFits
      bounds reportable (continues.continues visitor)
    refine ⟨after, ran.trans ?_⟩
    rw [List.foldl_map]
    rfl

omit [DecidableEq Id] in
/-- A search emits one sequence only. -/
theorem emits_unique {search : {V : Type} → BfsVisitor Id V → V →
    Except BfsHalt Unit × BfsEpochScratch Id × V} {left right : List (Id × Nat)}
    (one : Emits search left) (other : Emits search right) : left = right := by
  obtain ⟨lefts, rfl, emitsLeft⟩ := one
  obtain ⟨rights, rfl, emitsRight⟩ := other
  -- A visitor that records what it observes tells the two apart.
  let record : BfsVisitor Id (List (Id × UInt32)) :=
    fun seen element depth => (.continue, seen ++ [(element, depth)])
  have records (pairs : List (Id × UInt32)) :
      pairs.foldl (fun seen pair => (record seen pair.1 pair.2).2) [] = pairs := by
    show pairs.foldl (fun seen pair => seen ++ [pair]) [] = pairs
    rw [List.foldl_append_eq_append, ← List.flatMap_def]
    exact List.flatMap_singleton' pairs
  obtain ⟨_, ranLeft⟩ := emitsLeft _ record [] fun _ _ _ => rfl
  obtain ⟨_, ranRight⟩ := emitsRight _ record [] fun _ _ _ => rfl
  rw [records] at ranLeft ranRight
  rw [ranLeft] at ranRight
  have same : lefts = rights := (Prod.ext_iff.mp (Prod.ext_iff.mp ranRight).2).2
  rw [same]

section Exact

variable {maxDepth : Option UInt32} {includeSeeds : Bool} {sequence : List (Id × Nat)}

/-- The depths among the first of a ball fit a word just when enough elements are near enough. -/
theorem reportable_iff (ball : Ball rows seeds maxDepth includeSeeds sequence)
    (resultLimit : Nat) : (∀ pair ∈ sequence.take resultLimit, pair.2 < 2 ^ 32) ↔
      DepthsReportable rows seeds maxDepth includeSeeds resultLimit := by
  have ascending {left right : Nat} {near far : Id × Nat} (before : left ≤ right)
      (one : sequence[left]? = some near) (other : sequence[right]? = some far) :
      near.2 ≤ far.2 := by
    rcases Nat.lt_or_eq_of_le before with below | rfl
    · have sorted := List.pairwise_map.mp ball.sorted
      rw [List.pairwise_iff_getElem] at sorted
      obtain ⟨inside, rfl⟩ := List.getElem?_eq_some_iff.mp one
      obtain ⟨insideOther, rfl⟩ := List.getElem?_eq_some_iff.mp other
      exact sorted left right inside insideOther below
    · cases one.symm.trans other
      exact Nat.le_refl _
  constructor
  · intro fits element depth within deep
    -- A deep element is past the limit, so that the limit is reached before.
    have past : (element, depth) ∉ sequence.take resultLimit := by
      intro early
      exact Nat.not_lt.mpr deep (fits _ early)
    have long : resultLimit ≤ sequence.length := by
      by_contra short
      rw [List.take_of_length_le (by omega)] at past
      exact past ((ball.member element depth).mpr within)
    refine ⟨(sequence.take resultLimit).map Prod.fst,
      ball.once.sublist ((List.take_sublist _ _).map Prod.fst), ?_, ?_⟩
    · rw [List.length_map, List.length_take_of_le long]
    · intro other member
      obtain ⟨⟨_, near⟩, early, rfl⟩ := List.mem_map.mp member
      exact ⟨near, fits _ early, (ball.member _ _).mp (List.mem_of_mem_take early)⟩
  · intro enough pair early
    by_contra deep
    obtain ⟨position, found⟩ := List.mem_iff_getElem?.mp early
    have below : position < resultLimit := by
      have := (List.getElem?_eq_some_iff.mp found).1
      rw [List.length_take] at this
      omega
    rw [List.getElem?_take_of_lt below] at found
    have within := (ball.member pair.1 pair.2).mp (List.mem_of_getElem? found)
    obtain ⟨nearer, distinct, length, near⟩ := enough pair.1 pair.2 within (Nat.not_lt.mp deep)
    -- Every nearer element comes before the deep one.
    have before : nearer ⊆ (sequence.take position).map Prod.fst := by
      intro other member
      obtain ⟨depth, shallow, withinOther⟩ := near other member
      have listedOther := (ball.member other depth).mpr withinOther
      obtain ⟨place, there⟩ := List.mem_iff_getElem?.mp listedOther
      have first : place < position := by
        by_contra after
        have := ascending (Nat.not_lt.mp after) found there
        dsimp only at this
        omega
      refine List.mem_map.mpr ⟨(other, depth), List.mem_iff_getElem?.mpr ⟨place, ?_⟩, rfl⟩
      rw [List.getElem?_take_of_lt first]
      exact there
    have count := (distinct.subperm before).length_le
    rw [List.length_map, List.length_take] at count
    omega

/-- In a view of at most `2 ^ 32` indexes every depth fits a word. -/
theorem depthsReportable_of_small (lawful : graph.Lawful)
    (closed : ∀ {element}, graph.containsElement element = true →
      ∀ target ∈ rows element, graph.containsElement target = true)
    (contained : ∀ seed ∈ seeds, graph.containsElement seed = true)
    (small : graph.elementBound ≤ 2 ^ 32) (resultLimit : Nat) :
    DepthsReportable rows seeds maxDepth includeSeeds resultLimit := by
  let bounds : BfsBounds := { maxDepth, resultLimit, includeSeeds }
  have ball := shown_ball lawful closed contained bounds
  refine (reportable_iff ball resultLimit).mp fun pair early => ?_
  have listedPair := (List.mem_filter.mp (List.mem_of_mem_take early)).1
  exact Nat.lt_of_lt_of_le (depth_lt_bound lawful closed contained listedPair) small

/--
A bounded search emits what is shown as far as the limit, exactly when there is a limit to reach
or nothing to emit, and the depths fit a word.
-/
theorem boundedSearch_emits_iff (lawful : graph.Lawful)
    (closed : ∀ {element}, graph.containsElement element = true →
      ∀ target ∈ rows element, graph.containsElement target = true)
    (contained : ∀ seed ∈ seeds, graph.containsElement seed = true) {scratch : BfsEpochScratch Id}
    (settled : Settled scratch.marks scratch.epoch)
    (marksFit : graph.elementBound ≤ scratch.marks.length)
    (queueFits : graph.elementBound ≤ scratch.queue.length) (bounds : BfsBounds) :
    Emits (fun visit visitor => boundedSearch graph rows seeds bounds visit scratch visitor)
        ((shown bounds (listing rows (depthLimit bounds) seeds graph.elementBound)).take
          bounds.resultLimit) ↔
      (0 < bounds.resultLimit ∨
        ∀ element depth, ¬ Within rows seeds bounds.maxDepth bounds.includeSeeds element depth) ∧
      DepthsReportable rows seeds bounds.maxDepth bounds.includeSeeds bounds.resultLimit := by
  have ball := shown_ball lawful closed contained bounds
  have complete := listing_complete lawful closed contained (depthLimit bounds)
  have emits := @boundedSearch_emits Id _ graph rows seeds bounds lawful closed contained _ settled
    marksFit queueFits
  rw [← reportable_iff ball]
  constructor
  · intro capped
    refine ⟨?_, ?_⟩
    · by_contra neither
      obtain ⟨unlimited, some⟩ := not_or.mp neither
      have zero : bounds.resultLimit = 0 := by omega
      have one : cap bounds = 1 := by
        unfold cap
        rw [zero]
        rfl
      -- One pair is emitted before the limit is looked at, and its depth is no more than one.
      have emitted := emits fun count entry first => by
        rw [one] at first
        exact Nat.lt_of_le_of_lt (first_shown first) (by decide)
      have same := emits_unique emitted capped
      rw [one, zero, List.take_zero, List.take_eq_nil_iff] at same
      have nothing := same.resolve_left Nat.one_ne_zero
      refine some fun element depth within => ?_
      have member := (ball.member element depth).mpr within
      rw [nothing] at member
      cases member
    · obtain ⟨pairs, same, _⟩ := capped
      intro pair member
      rw [← same] at member
      obtain ⟨⟨_, depth⟩, _, rfl⟩ := List.mem_map.mp member
      exact depth.toNat_lt
  · rintro ⟨limited, fits⟩
    have alike : (shown bounds (listing rows (depthLimit bounds) seeds graph.elementBound)).take
        (cap bounds) = (shown bounds
          (listing rows (depthLimit bounds) seeds graph.elementBound)).take bounds.resultLimit := by
      rcases limited with positive | nothing
      · unfold cap
        rw [Nat.max_eq_right positive]
      · have empty : shown bounds (listing rows (depthLimit bounds) seeds graph.elementBound) =
            [] := by
          refine List.eq_nil_iff_forall_not_mem.mpr fun pair member => ?_
          exact nothing pair.1 pair.2 ((ball.member pair.1 pair.2).mp member)
        rw [empty, List.take_nil, List.take_nil]
    rw [← alike]
    refine emits fun count entry member => fits entry ?_
    rw [← alike]
    have front := (shown_isPrefix complete count).take (cap bounds)
    exact front.subset member

end Exact

end Bounded

end Bfs

/-- The rows of a search over a lawful view lead from contained elements to contained ones. -/
theorem BoundedSearch.rows_closed {Id : Type} {graph : TopologyView Id} (lawful : graph.Lawful)
    (search : BoundedSearch) {element : Id} (inside : graph.containsElement element = true) :
    ∀ target ∈ search.rows graph element, graph.containsElement target = true := by
  intro target member
  cases search with
  | forward => exact lawful.successors inside target member
  | reverse => exact lawful.predecessors inside target member
  | both =>
    rcases List.mem_append.mp member with along | back
    · exact lawful.successors inside target along
    · exact lawful.predecessors inside target back

/--
Bounded searches emit the capped ball, exactly when they can stop before they emit too much.

The searches emit an element before they compare with the limit, so that a limit of zero is no
limit where there is something to emit; and they count the depth in 32 bits.
-/
theorem bounded_emits_ball {Id : Type} [DecidableEq Id] {graph : TopologyView Id}
    (lawful : graph.Lawful) (search : BoundedSearch) {seeds : List Id}
    (contained : ∀ seed ∈ seeds, graph.containsElement seed = true) (maxDepth : Option UInt32)
    (includeSeeds : Bool) : ∃ sequence,
      Ball (search.rows graph) seeds maxDepth includeSeeds sequence ∧
      (∀ resultLimit marks queue (uses : List (ScratchUse Id)),
        graph.elementBound ≤ marks.length → graph.elementBound ≤ queue.length →
          (Emits (fun visit => search.run graph seeds { maxDepth, resultLimit, includeSeeds } visit
              (uses.foldl (fun scratch use => use.run scratch) (.new marks queue)))
            (sequence.take resultLimit) ↔
          (0 < resultLimit ∨ ∀ element depth,
            ¬ Within (search.rows graph) seeds maxDepth includeSeeds element depth) ∧
          DepthsReportable (search.rows graph) seeds maxDepth includeSeeds resultLimit)) ∧
      ∀ start, seeds = [start] → includeSeeds = true → maxDepth = none →
        (∀ direction, search = .along direction → ∃ frontier,
          breadthFirstSearch graph start = .ok frontier ∧
            Bfs.Yields graph direction frontier fun call => (sequence[call]?).map Prod.fst) ∧
        (search = .forward → ∀ elements,
          (∀ element, element ∈ elements ↔ graph.containsElement element = true) →
            shortestPathLengths graph start elements = some sequence) := by
  have closed {element : Id} (inside : graph.containsElement element = true) :
      ∀ target ∈ search.rows graph element, graph.containsElement target = true :=
    search.rows_closed lawful inside
  refine ⟨Bfs.Bounded.shown { maxDepth, resultLimit := 0, includeSeeds }
    (listing (search.rows graph) (maxDepth.map UInt32.toNat) seeds graph.elementBound),
    Bfs.Bounded.shown_ball lawful closed contained { maxDepth, resultLimit := 0, includeSeeds },
    ?_, ?_⟩
  · intro resultLimit marks queue uses marksFit queueFits
    obtain ⟨settled, marksLength, queueLength⟩ := Bfs.uses_usable marks queue uses
    have exact := Bfs.Bounded.boundedSearch_emits_iff lawful closed contained settled
      (by omega) (by omega) { maxDepth, resultLimit, includeSeeds }
    cases search with
    | forward => exact exact
    | reverse => exact exact
    | both => exact exact
  · rintro start rfl rfl rfl
    have all (entries : List (Id × Nat)) : Bfs.Bounded.shown
        { maxDepth := none, resultLimit := 0, includeSeeds := true } entries = entries :=
      List.filter_eq_self.mpr fun _ _ => rfl
    rw [all]
    have inside := contained start List.mem_cons_self
    constructor
    · rintro direction rfl
      obtain ⟨frontier, created, yields⟩ := Bfs.owned_yields lawful direction inside
      refine ⟨frontier, created, ?_⟩
      have rows : direction.expand graph = (BoundedSearch.along direction).rows graph := by
        cases direction <;> rfl
      have complete := Bfs.Bounded.listing_complete lawful closed contained none
      have same : breadthFirst (direction.expand graph) start = fun call =>
          ((listing ((BoundedSearch.along direction).rows graph) none [start]
            graph.elementBound)[call]?).map Prod.fst := by
        funext call
        rw [getElem?_complete complete, rows]
        rfl
      rw [same] at yields
      exact yields
    · rintro rfl elements every
      have requested : graph.Requested elements start :=
        ⟨(every start).mpr inside, lawful.indexed inside⟩
      have apart : graph.TellsApart elements :=
        lawful.tellsApart fun element requested => (every element).mp requested.1
      rw [shortestPathLengths_eq apart requested]
      -- Every successor of a contained element is requested, so that none is left out.
      refine congrArg some (Eq.symm ?_)
      refine listing_congr contained (fun node inside => closed inside) (fun node inside => ?_) _
      refine (List.filter_eq_self.mpr fun successor member => ?_).symm
      have follows := closed inside successor member
      exact decide_eq_true ⟨(every successor).mpr follows, lawful.indexed follows⟩

/-- Over the fork, a search from both ends stops after two of the three elements. -/
theorem bounded_emits_ball_fork : ∃ sequence,
    Ball (BoundedSearch.both.rows Bfs.fork) [1, 2, 1] none true sequence ∧
      Emits (fun visit => BoundedSearch.both.run Bfs.fork [1, 2, 1]
        { maxDepth := none, resultLimit := 2, includeSeeds := true } visit
          (.new [0, 0, 0] [0, 0, 0])) (sequence.take 2) := by
  have contained : ∀ seed ∈ [1, 2, 1], Bfs.fork.containsElement seed = true := by decide
  obtain ⟨sequence, ball, emits, _⟩ :=
    bounded_emits_ball Bfs.fork_lawful .both contained none true
  have reportable : DepthsReportable (BoundedSearch.both.rows Bfs.fork) [1, 2, 1] none true 2 :=
    Bfs.Bounded.depthsReportable_of_small Bfs.fork_lawful
      (fun inside => BoundedSearch.both.rows_closed Bfs.fork_lawful inside) contained (by decide) 2
  exact ⟨sequence, ball,
    (emits 2 [0, 0, 0] [0, 0, 0] [] (by decide) (by decide)).mpr ⟨.inl (by decide), reportable⟩⟩

/-- With a limit of zero, a search over the fork emits its seed. -/
theorem bounded_exceeds_zero_limit : ¬ ∃ sequence,
    Ball (BoundedSearch.forward.rows Bfs.fork) [0] none true sequence ∧
      Emits (fun visit => BoundedSearch.forward.run Bfs.fork [0]
        { maxDepth := none, resultLimit := 0, includeSeeds := true } visit
          (.new [0, 0, 0] [0, 0, 0])) (sequence.take 0) := by
  rintro ⟨sequence, _, pairs, same, emits⟩
  have none := List.map_eq_nil_iff.mp same
  -- A visitor that counts what it observes counts one.
  obtain ⟨after, ran⟩ := emits Nat (fun count _ _ => (.continue, count + 1)) 0 fun _ _ _ => rfl
  rw [none] at ran
  have counted : 1 = 0 := congrArg (fun outcome => outcome.2.2) ran
  cases counted

end Oxgraph
