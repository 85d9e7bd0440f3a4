import Mathlib.Data.Finset.Max
import Mathlib.Data.List.Dedup
import Oxgraph.Lib.Kahn

/-!
The order of Kahn's algorithm: level by level, and by the release within a level.

It lists the first node that is ready, by places, exactly when no node that it lists while another
is ready has the later place; which nodes these are is read off the depths and the rows.
-/

namespace Oxgraph

namespace Kahn

variable {N : Type} [DecidableEq N] {nodes : List N} {row : N → List N} {place : N → Nat}

-- Depths.

/-- The most edges on a way to a node, of the ways with no more than so many. -/
def depthWithin (nodes : List N) (row : N → List N) : Nat → N → Nat
  | 0, _ => 0
  | edges + 1, node =>
    ((nodes.filter fun source => node ∈ row source).map fun source =>
      depthWithin nodes row edges source + 1).foldr max 0

/-- The most edges on a way to a node. -/
def depth (nodes : List N) (row : N → List N) (node : N) : Nat :=
  depthWithin nodes row nodes.length node

-- What is listed first.

/-- Each listed node comes first, by its place, of those that are ready when it is listed. -/
def FirstReady (nodes : List N) (row : N → List N) (place : N → Nat) (order : List N) : Prop :=
  ∀ earlier node later, order = earlier ++ node :: later → ∀ other ∈ nodes, other ∉ earlier →
    (∀ source, Edge nodes row source other → source ∈ earlier) → place node ≤ place other

/-- The last, by its place, of the predecessors of a node that are one less deep. -/
structure Closes (nodes : List N) (row : N → List N) (place : N → Nat) (source node : N) :
    Prop where
  edge : Edge nodes row source node
  deep : depth nodes row source + 1 = depth nodes row node
  last : ∀ other, Edge nodes row other node →
    depth nodes row other + 1 = depth nodes row node → place other ≤ place source

/-- A node that is listed while another is ready, if each level is listed by places. -/
inductive Overtakes (nodes : List N) (row : N → List N) (place : N → Nat) (node other : N) : Prop
  -- It waited in the level of what released the other, and behind that.
  | waited {source : N} (member : node ∈ nodes) (closes : Closes nodes row place source other)
    (level : depth nodes row node = depth nodes row source) (behind : place source < place node)
  -- It is in the other's level, and was released sooner.
  | sooner {source otherSource : N} (closes : Closes nodes row place source node)
    (otherCloses : Closes nodes row place otherSource other)
    (level : depth nodes row node = depth nodes row other)
    (before : place source < place otherSource)
  -- It was released together with the other, its last edge in the row before the other's last.
  | together {source : N} (closes : Closes nodes row place source node)
    (otherCloses : Closes nodes row place source other)
    (before : (row source).dedup.idxOf node < (row source).dedup.idxOf other)

/-- No node overtakes another of an earlier place. -/
def OvertakesByPlace (nodes : List N) (row : N → List N) (place : N → Nat) : Prop :=
  ∀ node other, Overtakes nodes row place node other → place node < place other

-- Depths, along an order.

theorem le_foldr_max {values : List Nat} {value : Nat} (member : value ∈ values) :
    value ≤ values.foldr max 0 := by
  induction values with
  | nil => cases member
  | cons head rest ih =>
    rw [List.foldr_cons]
    rcases List.mem_cons.mp member with rfl | later
    · exact Nat.le_max_left _ _
    · exact Nat.le_trans (ih later) (Nat.le_max_right _ _)

theorem foldr_max_mem {values : List Nat} (some : values ≠ []) : values.foldr max 0 ∈ values := by
  induction values with
  | nil => exact absurd rfl some
  | cons head rest ih =>
    rw [List.foldr_cons]
    rcases Nat.le_total (rest.foldr max 0) head with above | below
    · rw [Nat.max_eq_left above]
      exact List.mem_cons_self
    · rw [Nat.max_eq_right below]
      -- An empty rest has no maximum above the head but zero, which is the head then.
      cases rest with
      | nil =>
        rw [Nat.le_zero.mp below]
        exact List.mem_cons_self
      | cons next others => exact List.mem_cons_of_mem _ (ih (List.cons_ne_nil _ _))

section

variable {order : List N} (forward : Forward (Edge nodes row) order)
  (listed : ∀ node, node ∈ order ↔ node ∈ nodes)
include forward listed

/-- Longer ways than there are places before a node do not make it deeper. -/
theorem depthWithin_succ (within : ∀ {source target}, target ∈ row source → target ∈ nodes)
    {edges : Nat} {node : N} (room : order.idxOf node < edges) :
    depthWithin nodes row (edges + 1) node = depthWithin nodes row edges node := by
  induction edges generalizing node with
  | zero => exact absurd room (Nat.not_lt_zero _)
  | succ edges ih =>
    rw [depthWithin, depthWithin]
    congr 1
    refine List.map_congr_left fun source member => ?_
    obtain ⟨inside, leads⟩ := List.mem_filter.mp member
    have edge : Edge nodes row source node := ⟨inside, of_decide_eq_true leads⟩
    have before := forward.idxOf_lt ((listed source).mpr inside)
      ((listed node).mpr (within edge.2)) edge
    rw [ih (by omega)]

variable (length : order.length = nodes.length)
  (within : ∀ {source target}, target ∈ row source → target ∈ nodes)
include length within

/-- A node is one deeper than the deepest of its predecessors. -/
theorem depth_eq {node : N} (member : node ∈ nodes) : depth nodes row node =
    ((nodes.filter fun source => node ∈ row source).map fun source =>
      depth nodes row source + 1).foldr max 0 := by
  have room : order.idxOf node < nodes.length := by
    rw [← length]
    exact List.idxOf_lt_length_of_mem ((listed node).mpr member)
  unfold depth
  rw [← depthWithin_succ forward listed within room, depthWithin]

/-- Edges lead deeper. -/
theorem depth_lt {source node : N} (edge : Edge nodes row source node) :
    depth nodes row source < depth nodes row node := by
  rw [depth_eq forward listed length within (within edge.2)]
  refine le_foldr_max (List.mem_map.mpr ⟨source, List.mem_filter.mpr ⟨edge.1, ?_⟩, rfl⟩)
  exact decide_eq_true edge.2

/-- A node without predecessors is not deep. -/
theorem depth_eq_zero {node : N} (member : node ∈ nodes)
    (none : ∀ source, ¬ Edge nodes row source node) : depth nodes row node = 0 := by
  have empty : (nodes.filter fun source => node ∈ row source) = [] := by
    rw [List.filter_eq_nil_iff]
    exact fun source inside leads => none source ⟨inside, of_decide_eq_true leads⟩
  rw [depth_eq forward listed length within member, empty]
  rfl

/-- A node with predecessors is one deeper than some of them. -/
theorem exists_depth_succ {source node : N} (edge : Edge nodes row source node) :
    ∃ deepest, Edge nodes row deepest node ∧
      depth nodes row deepest + 1 = depth nodes row node := by
  have some : ((nodes.filter fun source => node ∈ row source).map fun source =>
      depth nodes row source + 1) ≠ [] := by
    refine List.ne_nil_of_mem (List.mem_map_of_mem (List.mem_filter.mpr ⟨edge.1, ?_⟩))
    exact decide_eq_true edge.2
  obtain ⟨deepest, member, equal⟩ := List.mem_map.mp (foldr_max_mem some)
  obtain ⟨inside, leads⟩ := List.mem_filter.mp member
  refine ⟨deepest, ⟨inside, of_decide_eq_true leads⟩, ?_⟩
  rw [equal, ← depth_eq forward listed length within (within edge.2)]

end

-- Releases.

/-- The predecessor of a node that an order lists last. -/
structure LastOf (nodes : List N) (row : N → List N) (order : List N) (source node : N) :
    Prop where
  edge : Edge nodes row source node
  last : ∀ other, Edge nodes row other node → order.idxOf other ≤ order.idxOf source

/-- A node is released before another: by an earlier node, or by the same and from its row. -/
inductive ReleasedBefore (nodes : List N) (row : N → List N) (place : N → Nat) (order : List N)
    (node other : N) : Prop
  | start (none : ∀ source, ¬ Edge nodes row source node)
    (otherNone : ∀ source, ¬ Edge nodes row source other) (before : place node < place other)
  | first {source : N} (none : ∀ source, ¬ Edge nodes row source node)
    (edge : Edge nodes row source other)
  | sooner {source otherSource : N} (last : LastOf nodes row order source node)
    (otherLast : LastOf nodes row order otherSource other)
    (before : order.idxOf source < order.idxOf otherSource)
  | together {source : N} (last : LastOf nodes row order source node)
    (otherLast : LastOf nodes row order source other)
    (before : (row source).dedup.idxOf node < (row source).dedup.idxOf other)

/-- Some predecessor is listed last, if there is any. -/
theorem exists_lastOf (order : List N) {source node : N} (edge : Edge nodes row source node) :
    ∃ last, LastOf nodes row order last node := by
  obtain ⟨last, member, most⟩ := Finset.exists_max_image
    (nodes.toFinset.filter fun source => node ∈ row source) (fun source => order.idxOf source)
    ⟨source, Finset.mem_filter.mpr ⟨List.mem_toFinset.mpr edge.1, edge.2⟩⟩
  obtain ⟨inside, leads⟩ := Finset.mem_filter.mp member
  refine ⟨last, ⟨List.mem_toFinset.mp inside, leads⟩, fun other otherEdge => most other ?_⟩
  exact Finset.mem_filter.mpr ⟨List.mem_toFinset.mpr otherEdge.1, otherEdge.2⟩

/-- A target is queued when its count comes down to zero. -/
theorem queue_release {counts after : Counts N} {target : N}
    (released : release counts target = some after) : after.queue =
      if after.indegree target = 0 then counts.queue ++ [target] else counts.queue := by
  unfold release at released
  split at released
  · cases released
  · cases released
    simp only [Function.update_self]

/-- Releasing a row queues its nodes without pending edges, each at its last occurrence. -/
theorem Counting.queue_releaseAll {order rest : List N} {counts after : Counts N}
    (counting : Counting nodes row order rest counts) (inside : ∀ target ∈ rest, target ∈ nodes)
    (released : rest.foldlM Kahn.release counts = some after) :
    after.queue = counts.queue ++ rest.dedup.filter fun node => after.indegree node = 0 := by
  induction rest generalizing counts with
  | nil =>
    cases released
    exact (List.append_nil _).symm
  | cons target rest ih =>
    obtain ⟨own, others⟩ := List.forall_mem_cons.mp inside
    obtain ⟨next, one, counted⟩ := counting.release own
    obtain ⟨final, all, done⟩ := counted.releaseAll others
    have rest_ : rest.foldlM Kahn.release next = some after := by
      rw [List.foldlM_cons, one] at released
      exact released
    cases all.symm.trans rest_
    have left := counted.counted target own
    have leftAfter := done.counted target own
    rw [List.count_nil, Nat.add_zero] at leftAfter
    rw [ih counted others rest_, queue_release one]
    by_cases again : target ∈ rest
    · -- A later occurrence is still counted, so this one queues nothing.
      have more : next.indegree target ≠ 0 := by
        have counted := List.count_pos_iff.mpr again
        omega
      rw [if_neg more, List.dedup_cons_of_mem again]
    · rw [List.count_eq_zero.mpr again, Nat.add_zero, ← leftAfter] at left
      rw [left, List.dedup_cons_of_notMem again, List.filter_cons]
      by_cases zero : after.indegree target = 0
      · rw [if_pos zero, if_pos (decide_eq_true zero), List.append_assoc, List.singleton_append]
      · rw [if_neg zero, if_neg (by simpa using zero)]

/-- What is ordered or queued comes first in the result. -/
theorem Counting.drain_prefix (within : ∀ {source target}, target ∈ row source → target ∈ nodes)
    {order result : List N} {counts : Counts N} (counting : Counting nodes row order [] counts)
    {fuel : Nat} (drained : Kahn.drain row fuel counts order = some result) :
    order ++ counts.queue <+: result := by
  induction fuel generalizing order counts with
  | zero => cases drained
  | succ fuel ih =>
    unfold Kahn.drain at drained
    cases front : counts.queue with
    | nil =>
      rw [front] at drained
      cases drained
      rw [List.append_nil]
    | cons node queue =>
      obtain ⟨next, released, counted⟩ :=
        (counting.pop front).releaseAll fun _ member => within member
      have queued := (counting.pop front).queue_releaseAll (fun _ member => within member) released
      rw [front] at drained
      dsimp only at drained
      rw [released] at drained
      have later := ih counted drained
      rw [queued, List.append_assoc, List.singleton_append] at later
      refine List.IsPrefix.trans ?_ later
      exact (List.prefix_append_right_inj order).mpr (List.prefix_append (node :: queue) _)

/-- In a list without repeats the positions ascend. -/
theorem pairwise_idxOf {items : List N} (distinct : items.Nodup) :
    items.Pairwise fun node other => items.idxOf node < items.idxOf other := by
  refine List.pairwise_iff_getElem.mpr fun first second inside insideOther before => ?_
  rw [distinct.idxOf_getElem, distinct.idxOf_getElem]
  exact before

/-- What is ready has only ordered predecessors. -/
theorem Counting.ordered {order : List N} {counts : Counts N}
    (counting : Counting nodes row order [] counts) {node source : N}
    (ready : node ∈ order ++ counts.queue) (edge : Edge nodes row source node) :
    source ∈ order := by
  obtain ⟨inside, zero⟩ := (counting.ready node).mp ready
  have none := counting.counted node inside
  rw [zero, List.count_nil, Nat.add_zero] at none
  by_contra late
  exact pending_eq_zero.mp none.symm source edge.1 late edge.2

/-- Draining keeps what is ordered or queued sorted by the releases. -/
theorem Counting.drain_sorted (within : ∀ {source target}, target ∈ row source → target ∈ nodes)
    {order result : List N} {counts : Counts N} (counting : Counting nodes row order [] counts)
    (sorted : (order ++ counts.queue).Pairwise (ReleasedBefore nodes row place result)) {fuel : Nat}
    (drained : Kahn.drain row fuel counts order = some result) :
    result.Pairwise (ReleasedBefore nodes row place result) := by
  induction fuel generalizing order counts with
  | zero => cases drained
  | succ fuel ih =>
    unfold Kahn.drain at drained
    cases front : counts.queue with
    | nil =>
      rw [front] at drained sorted
      cases drained
      rwa [List.append_nil] at sorted
    | cons node queue =>
      have popped := counting.pop front
      obtain ⟨next, released, counted⟩ := popped.releaseAll fun _ member => within member
      have queued := popped.queue_releaseAll (fun _ member => within member) released
      rw [front] at drained sorted
      dsimp only at drained
      rw [released] at drained
      refine ih counted ?_ drained
      rw [queued, ← List.append_assoc]
      have old : order ++ [node] ++ queue = order ++ node :: queue := by
        rw [List.append_assoc, List.singleton_append]
      -- The positions of what is ordered are those in the result.
      have prefixed := counted.drain_prefix within drained
      obtain ⟨later, whole⟩ := List.IsPrefix.trans (List.prefix_append _ _) prefixed
      have position {other : N} (member : other ∈ order ++ [node]) :
          result.idxOf other = (order ++ [node]).idxOf other := by
        rw [← whole, List.idxOf_append_of_mem member]
      have fresh : node ∉ order := by
        have apart := counted.forward.distinct
        exact fun member => List.disjoint_of_nodup_append apart member List.mem_cons_self
      have here : result.idxOf node = order.length := by
        rw [position (List.mem_append_right _ List.mem_cons_self),
          List.idxOf_append_of_notMem fresh, List.idxOf_cons_self, Nat.add_zero]
      have earlier {other : N} (member : other ∈ order) : result.idxOf other < order.length := by
        rw [position (List.mem_append_left _ member), List.idxOf_append_of_mem member]
        exact List.idxOf_lt_length_of_mem member
      -- What is queued now has this node as its last predecessor.
      have closed {other : N}
          (member : other ∈ (row node).dedup.filter fun node => next.indegree node = 0) :
          LastOf nodes row result node other := by
        obtain ⟨reached, zero⟩ := List.mem_filter.mp member
        have leads := List.mem_dedup.mp reached
        have inside : node ∈ nodes := ((counting.ready node).mp (by rw [front]; simp)).1
        have ready : other ∈ (order ++ [node]) ++ next.queue :=
          (counted.ready other).mpr ⟨within leads, of_decide_eq_true zero⟩
        refine ⟨⟨inside, leads⟩, fun before edge => ?_⟩
        rw [here]
        rcases List.mem_append.mp (counted.ordered ready edge) with done | last
        · exact Nat.le_of_lt (earlier done)
        · rw [List.mem_singleton.mp last, here]
      refine List.pairwise_append.mpr ⟨?_, ?_, ?_⟩
      · rw [old]
        exact sorted
      · -- Within the row, by the last occurrences.
        refine ((pairwise_idxOf (List.nodup_dedup (row node))).filter _).imp_of_mem ?_
        exact fun member otherMember before => .together (closed member) (closed otherMember) before
      · intro other ready released member
        rw [old, ← front] at ready
        by_cases any : ∃ source, Edge nodes row source other
        · obtain ⟨source, edge⟩ := any
          obtain ⟨last, lastOf⟩ := exists_lastOf result edge
          refine .sooner lastOf (closed member) ?_
          rw [here]
          exact earlier (counting.ordered ready lastOf.edge)
        · exact .first (not_exists.mp any) (closed member).edge

/-- The result is sorted by the releases. -/
theorem sorted_of_sort (within : ∀ {source target}, target ∈ row source → target ∈ nodes)
    (ascending : nodes.Pairwise fun node other => place node < place other) {order : List N}
    (sorted : sort nodes row = some order) :
    order.Pairwise (ReleasedBefore nodes row place order) := by
  have places : (nodes.map place).Nodup := List.pairwise_map.mpr (ascending.imp Nat.ne_of_lt)
  have distinct : nodes.Nodup := List.Nodup.of_map place places
  refine (Counting.start distinct).drain_sorted within ?_ sorted
  rw [List.nil_append]
  -- What is queued at first has no predecessors.
  have none {node source : N} (member : node ∈ nodes.filter fun node =>
      indegree nodes row node == 0) : ¬ Edge nodes row source node := by
    intro edge
    have done := (Counting.start distinct).ordered member edge
    cases done
  refine (ascending.filter _).imp_of_mem fun member otherMember before => ?_
  exact .start (fun _ => none member) (fun _ => none otherMember) before

-- Levels.

section

variable {order : List N} (forward : Forward (Edge nodes row) order)
  (listed : ∀ node, node ∈ order ↔ node ∈ nodes) (length : order.length = nodes.length)
  (within : ∀ {source target}, target ∈ row source → target ∈ nodes)
  (sorted : order.Pairwise (ReleasedBefore nodes row place order))

include sorted in
/-- Of two nodes, the one that is listed before was released before. -/
theorem releasedBefore_of_lt {node other : N} (otherMember : other ∈ order)
    (before : order.idxOf node < order.idxOf other) :
    ReleasedBefore nodes row place order node other := by
  have insideOther := List.idxOf_lt_length_of_mem otherMember
  have inside : order.idxOf node < order.length := Nat.lt_trans before insideOther
  have pair := List.pairwise_iff_getElem.mp sorted _ _ inside insideOther before
  rwa [List.getElem_idxOf, List.getElem_idxOf] at pair

include forward listed length within sorted

/-- Nodes are listed by their depths. -/
theorem depth_le_of_lt {node other : N} (otherMember : other ∈ order)
    (before : order.idxOf node < order.idxOf other) :
    depth nodes row node ≤ depth nodes row other := by
  -- By induction on the position of the later node, since what released it stands before it.
  induction position : order.idxOf other using Nat.strong_induction_on generalizing node other with
  | _ place_ ih =>
    subst position
    have member : node ∈ order :=
      List.idxOf_lt_length_iff.mp (Nat.lt_trans before (List.idxOf_lt_length_of_mem otherMember))
    have mono {first second : N} (secondMember : second ∈ order)
        (bounded : order.idxOf second < order.idxOf other)
        (le : order.idxOf first ≤ order.idxOf second) :
        depth nodes row first ≤ depth nodes row second := by
      rcases Nat.lt_or_eq_of_le le with lt | same
      · exact ih _ bounded secondMember lt rfl
      · have equal : second = first := (List.idxOf_inj secondMember).mp same.symm
        rw [equal]
    -- The last predecessor of a node this far is its deepest.
    have deep {source next : N} (lastOf : LastOf nodes row order source next)
        (nextBound : order.idxOf next ≤ order.idxOf other) (nextMember : next ∈ order) :
        depth nodes row source + 1 = depth nodes row next := by
      have sourceMember := (listed source).mpr lastOf.edge.1
      have ahead := forward.idxOf_lt sourceMember nextMember lastOf.edge
      obtain ⟨deepest, edge, succ⟩ := exists_depth_succ forward listed length within lastOf.edge
      have atMost := mono sourceMember (Nat.lt_of_lt_of_le ahead nextBound) (lastOf.last _ edge)
      have below := depth_lt forward listed length within lastOf.edge
      omega
    cases releasedBefore_of_lt sorted otherMember before with
    | start none =>
      rw [depth_eq_zero forward listed length within ((listed node).mp member) none]
      exact Nat.zero_le _
    | first none =>
      rw [depth_eq_zero forward listed length within ((listed node).mp member) none]
      exact Nat.zero_le _
    | @sooner source otherSource last otherLast earlier =>
      have otherSourceMember := (listed otherSource).mpr otherLast.edge.1
      have ahead := forward.idxOf_lt otherSourceMember otherMember otherLast.edge
      have sources := mono otherSourceMember ahead (Nat.le_of_lt earlier)
      have own := deep last (Nat.le_of_lt before) member
      have others := deep otherLast (Nat.le_refl _) otherMember
      omega
    | @together source last otherLast _ =>
      have own := deep last (Nat.le_of_lt before) member
      have others := deep otherLast (Nat.le_refl _) otherMember
      omega

/-- Of two nodes of different depths, the less deep one is listed before. -/
theorem lt_of_depth_lt {node other : N} (member : node ∈ order)
    (shallower : depth nodes row node < depth nodes row other) :
    order.idxOf node < order.idxOf other := by
  by_contra after
  rcases Nat.lt_or_eq_of_le (Nat.le_of_not_lt after) with before | same
  · have back := depth_le_of_lt forward listed length within sorted member before
    omega
  · have inside := List.idxOf_lt_length_of_mem member
    rw [← same] at inside
    have equal : other = node := (List.idxOf_inj (List.idxOf_lt_length_iff.mp inside)).mp same
    rw [equal] at shallower
    exact Nat.lt_irrefl _ shallower

/-- The last predecessor that is listed is one less deep. -/
theorem LastOf.deep {source node : N} (lastOf : LastOf nodes row order source node) :
    depth nodes row source + 1 = depth nodes row node := by
  obtain ⟨deepest, edge, succ⟩ := exists_depth_succ forward listed length within lastOf.edge
  have below := depth_lt forward listed length within lastOf.edge
  have sourceMember := (listed source).mpr lastOf.edge.1
  -- A deeper predecessor would be listed after it.
  rcases Nat.lt_or_ge (depth nodes row source) (depth nodes row deepest) with deeper | least
  · have after := lt_of_depth_lt forward listed length within sorted sourceMember deeper
    have last := lastOf.last deepest edge
    omega
  · omega

/-- Within each level nodes are listed by their places. -/
def LevelsByPlace (nodes : List N) (row : N → List N) (place : N → Nat) (order : List N) : Prop :=
  ∀ node ∈ order, ∀ other ∈ order, depth nodes row node = depth nodes row other →
    order.idxOf node < order.idxOf other → place node < place other

/-- What waits behind the node that releases another has an earlier place than that. -/
def WaitingByPlace (nodes : List N) (row : N → List N) (place : N → Nat) (order : List N) : Prop :=
  ∀ node ∈ order, ∀ source other, LastOf nodes row order source other →
    depth nodes row node = depth nodes row source → order.idxOf source < order.idxOf node →
      place node < place other

omit forward length within sorted in
/-- Listing first what is ready, said of positions. -/
theorem firstReady_iff (distinct : order.Nodup) : FirstReady nodes row place order ↔
    ∀ node ∈ order, ∀ other ∈ order, order.idxOf node ≤ order.idxOf other →
      (∀ source, Edge nodes row source other → order.idxOf source < order.idxOf node) →
        place node ≤ place other := by
  constructor
  · intro first node member other otherMember notBefore ready
    have inside := List.idxOf_lt_length_of_mem member
    have split : order = order.take (order.idxOf node) ++
        node :: order.drop (order.idxOf node + 1) := by
      conv_lhs => rw [← List.take_append_drop (order.idxOf node) order]
      rw [List.drop_eq_getElem_cons inside, List.getElem_idxOf]
    refine first _ node _ split other ((listed other).mp otherMember) ?_ fun source edge => ?_
    · rw [List.mem_take_iff_idxOf_lt otherMember]
      exact Nat.not_lt.mpr notBefore
    · rw [List.mem_take_iff_idxOf_lt ((listed source).mpr edge.1)]
      exact ready source edge
  · intro first earlier node later split other member absent ready
    have apart : node ∉ earlier := by
      rw [split] at distinct
      exact fun inside => List.disjoint_of_nodup_append distinct inside List.mem_cons_self
    have here : order.idxOf node = earlier.length := by
      rw [split, List.idxOf_append_of_notMem apart, List.idxOf_cons_self, Nat.add_zero]
    refine first node ?_ other ((listed other).mpr member) ?_ fun source edge => ?_
    · rw [split]
      simp
    · rw [here, split, List.idxOf_append_of_notMem absent]
      exact Nat.le_add_right _ _
    · have inside := ready source edge
      rw [here, split, List.idxOf_append_of_mem inside]
      exact List.idxOf_lt_length_of_mem inside

variable (injective : ∀ node ∈ nodes, ∀ other ∈ nodes, place node = place other → node = other)
include injective

/-- The first ready node is always listed when levels, and what waits, are listed by places. -/
theorem firstReady_iff_levels : FirstReady nodes row place order ↔
    LevelsByPlace nodes row place order ∧ WaitingByPlace nodes row place order := by
  have shallow {node other : N} (member : node ∈ order) :=
    @lt_of_depth_lt N _ nodes row place order forward listed length within sorted node other member
  -- A later node with another place that may not come before has a later place.
  have strict {node other : N} (member : node ∈ order) (otherMember : other ∈ order)
      (before : order.idxOf node < order.idxOf other) (le : place node ≤ place other) :
      place node < place other := by
    refine Nat.lt_of_le_of_ne le fun same => ?_
    rw [injective node ((listed node).mp member) other ((listed other).mp otherMember) same] at before
    exact Nat.lt_irrefl _ before
  rw [firstReady_iff listed forward.distinct]
  constructor
  · intro first
    constructor
    · intro node member other otherMember level before
      refine strict member otherMember before
        (first node member other otherMember (Nat.le_of_lt before) fun source edge => ?_)
      have below := depth_lt forward listed length within edge
      exact shallow ((listed source).mpr edge.1) (by omega)
    · intro node member source other lastOf level behind
      have otherMember := (listed other).mpr (within lastOf.edge.2)
      have deep := lastOf.deep forward listed length within sorted
      have before := shallow member (show depth nodes row node < depth nodes row other by omega)
      refine strict member otherMember before
        (first node member other otherMember (Nat.le_of_lt before) fun earlier edge => ?_)
      exact Nat.lt_of_le_of_lt (lastOf.last earlier edge) behind
  · rintro ⟨levels, waiting⟩ node member other otherMember notBefore ready
    rcases Nat.lt_or_eq_of_le notBefore with before | same
    · refine Nat.le_of_lt ?_
      have deeper := depth_le_of_lt forward listed length within sorted otherMember before
      rcases Nat.lt_or_eq_of_le deeper with below | level
      · -- Some predecessor released the deeper node before this one was listed.
        by_cases any : ∃ source, Edge nodes row source other
        · obtain ⟨source, edge⟩ := any
          obtain ⟨last, lastOf⟩ := exists_lastOf order edge
          have deep := lastOf.deep forward listed length within sorted
          have ahead := ready last lastOf.edge
          have depths := depth_le_of_lt forward listed length within sorted member ahead
          exact waiting node member last other lastOf (by omega) ahead
        · have zero := depth_eq_zero forward listed length within ((listed other).mp otherMember)
            (not_exists.mp any)
          omega
      · exact levels node member other otherMember level before
    · rw [(List.idxOf_inj member).mp same]

/-- When levels are listed by places up to a depth, what closes a node at most one deeper is the
last of its predecessors that is listed. -/
theorem closes_iff_lastOf {bound : Nat} (levels : ∀ node ∈ order, ∀ other ∈ order,
      depth nodes row node ≤ bound → depth nodes row node = depth nodes row other →
        order.idxOf node < order.idxOf other → place node < place other)
    {source node : N} (shallow : depth nodes row node ≤ bound + 1) :
    Closes nodes row place source node ↔ LastOf nodes row order source node := by
  have forth {source : N} (lastOf : LastOf nodes row order source node) :
      Closes nodes row place source node := by
    have deep := lastOf.deep forward listed length within sorted
    refine ⟨lastOf.edge, deep, fun other edge otherDeep => ?_⟩
    rcases Nat.lt_or_eq_of_le (lastOf.last other edge) with before | same
    · exact Nat.le_of_lt (levels other ((listed other).mpr edge.1) source
        ((listed source).mpr lastOf.edge.1) (by omega) (by omega) before)
    · have equal := (List.idxOf_inj ((listed other).mpr edge.1)).mp same
      rw [equal]
  refine ⟨fun closes => ?_, forth⟩
  -- Both are the one predecessor of the latest place that is one less deep.
  obtain ⟨last, lastOf⟩ := exists_lastOf order closes.edge
  have other := forth lastOf
  have same : place source = place last :=
    Nat.le_antisymm (other.last source closes.edge closes.deep)
      (closes.last last other.edge other.deep)
  rw [injective source closes.edge.1 last other.edge.1 same]
  exact lastOf

/-- Levels are listed by places up to every depth, if nothing overtakes what has an earlier place. -/
theorem levels_of_overtakes (byPlace : OvertakesByPlace nodes row place) (bound : Nat) :
    ∀ node ∈ order, ∀ other ∈ order, depth nodes row node ≤ bound →
      depth nodes row node = depth nodes row other → order.idxOf node < order.idxOf other →
        place node < place other := by
  induction bound with
  | zero =>
    intro node member other otherMember shallow level before
    cases releasedBefore_of_lt sorted otherMember before with
    | start _ _ earlier => exact earlier
    | first _ edge =>
      have below := depth_lt forward listed length within edge
      omega
    | sooner last _ _ | together last _ _ =>
      have below := depth_lt forward listed length within last.edge
      omega
  | succ bound ih =>
    intro node member other otherMember shallow level before
    have closes {source next : N} (small : depth nodes row next ≤ bound + 1)
        (lastOf : LastOf nodes row order source next) : Closes nodes row place source next :=
      (closes_iff_lastOf forward listed length within sorted injective ih small).mpr lastOf
    cases releasedBefore_of_lt sorted otherMember before with
    | start _ _ earlier => exact earlier
    | first none edge =>
      have zero := depth_eq_zero forward listed length within ((listed node).mp member) none
      have below := depth_lt forward listed length within edge
      omega
    | @sooner source otherSource last otherLast earlier =>
      have deep := last.deep forward listed length within sorted
      have otherDeep := otherLast.deep forward listed length within sorted
      -- What released the two is one level up, so that it is listed by places.
      have places := ih source ((listed source).mpr last.edge.1) otherSource
        ((listed otherSource).mpr otherLast.edge.1) (by omega) (by omega) earlier
      exact byPlace node other (.sooner (closes shallow last) (closes (by omega) otherLast) level
        places)
    | @together source last otherLast earlier =>
      exact byPlace node other (.together (closes shallow last) (closes (by omega) otherLast)
        earlier)

/-- Levels, and what waits, are listed by places when nothing overtakes what has an earlier one. -/
theorem levels_iff_overtakes :
    LevelsByPlace nodes row place order ∧ WaitingByPlace nodes row place order ↔
      OvertakesByPlace nodes row place := by
  constructor
  · rintro ⟨levels, waiting⟩ node other overtakes
    have closes {source next : N} : Closes nodes row place source next ↔
        LastOf nodes row order source next :=
      closes_iff_lastOf forward listed length within sorted injective
        (fun node member other otherMember _ => levels node member other otherMember)
        (Nat.le_succ _)
    -- Of two nodes of one level the one with the earlier place is listed before.
    have byPlace {first second : N} (member : first ∈ order) (secondMember : second ∈ order)
        (level : depth nodes row first = depth nodes row second)
        (before : place first < place second) : order.idxOf first < order.idxOf second := by
      rcases Nat.lt_trichotomy (order.idxOf first) (order.idxOf second) with ahead | same | after
      · exact ahead
      · rw [(List.idxOf_inj member).mp same] at before
        exact absurd before (Nat.lt_irrefl _)
      · have back := levels second secondMember first member level.symm after
        omega
    -- Of two nodes of one level the one that was released before is listed before.
    have listedBefore {first second : N} (member : first ∈ order) (secondMember : second ∈ order)
        (level : depth nodes row first = depth nodes row second)
        (never : ¬ ReleasedBefore nodes row place order second first) (apart : first ≠ second) :
        place first < place second := by
      refine levels first member second secondMember level ?_
      rcases Nat.lt_trichotomy (order.idxOf first) (order.idxOf second) with ahead | same | after
      · exact ahead
      · exact absurd ((List.idxOf_inj member).mp same) apart
      · exact absurd (releasedBefore_of_lt sorted member after) never
    cases overtakes with
    | @waited source member closesOther level behind =>
      have lastOf := closes.mp closesOther
      have sourceMember := (listed source).mpr lastOf.edge.1
      exact waiting node ((listed node).mpr member) source other lastOf level
        (byPlace sourceMember ((listed node).mpr member) level.symm behind)
    | @sooner source otherSource closesNode closesOther level before =>
      have last := closes.mp closesNode
      have otherLast := closes.mp closesOther
      have deep := closesNode.deep
      have otherDeep := closesOther.deep
      have ahead := byPlace ((listed source).mpr last.edge.1)
        ((listed otherSource).mpr otherLast.edge.1) (by omega) before
      have unique {first second next : N} (one : LastOf nodes row order first next)
          (two : LastOf nodes row order second next) :
          order.idxOf first = order.idxOf second :=
        Nat.le_antisymm (two.last _ one.edge) (one.last _ two.edge)
      refine listedBefore ((listed node).mpr (within last.edge.2))
        ((listed other).mpr (within otherLast.edge.2)) level (fun released => ?_) (fun same => ?_)
      · cases released with
        | start none => exact none _ otherLast.edge
        | first none => exact none _ otherLast.edge
        | sooner lastAgain otherAgain earlier =>
          have one := unique otherLast lastAgain
          have two := unique last otherAgain
          omega
        | together lastAgain otherAgain =>
          have one := unique otherLast lastAgain
          have two := unique last otherAgain
          omega
      · subst same
        have one := unique last otherLast
        omega
    | @together source closesNode closesOther before =>
      have last := closes.mp closesNode
      have otherLast := closes.mp closesOther
      have deep := closesNode.deep
      have otherDeep := closesOther.deep
      have unique {second next : N} (one : LastOf nodes row order source next)
          (two : LastOf nodes row order second next) : source = second :=
        (List.idxOf_inj ((listed source).mpr one.edge.1)).mp
          (Nat.le_antisymm (two.last _ one.edge) (one.last _ two.edge))
      refine listedBefore ((listed node).mpr (within last.edge.2))
        ((listed other).mpr (within otherLast.edge.2)) (by omega) (fun released => ?_)
        (fun same => ?_)
      · cases released with
        | start none => exact none _ otherLast.edge
        | first none => exact none _ otherLast.edge
        | sooner lastAgain otherAgain earlier =>
          rw [← unique otherLast lastAgain, ← unique last otherAgain] at earlier
          exact Nat.lt_irrefl _ earlier
        | together lastAgain otherAgain earlier =>
          rw [← unique otherLast lastAgain] at earlier
          omega
      · rw [same] at before
        exact Nat.lt_irrefl _ before
  · intro byPlace
    have levels (bound : Nat) :=
      levels_of_overtakes forward listed length within sorted injective byPlace bound
    have byLevel : LevelsByPlace nodes row place order :=
      fun node member other otherMember =>
        levels (depth nodes row node) node member other otherMember (Nat.le_refl _)
    refine ⟨byLevel, fun node member source other lastOf level behind => ?_⟩
    have sourceMember := (listed source).mpr lastOf.edge.1
    have closes := (closes_iff_lastOf forward listed length within sorted injective
      (levels (depth nodes row other)) (Nat.le_succ _)).mpr lastOf
    exact byPlace node other (.waited ((listed node).mp member) closes level
      (byLevel source sourceMember node member level.symm behind))

end

/-- A complete order lists the first ready node always when nothing overtakes an earlier place. -/
theorem firstReady_iff_overtakes
    (within : ∀ {source target}, target ∈ row source → target ∈ nodes)
    (ascending : nodes.Pairwise fun node other => place node < place other) {order : List N}
    (sorted : sort nodes row = some order) (complete : order.length = nodes.length) :
    FirstReady nodes row place order ↔ OvertakesByPlace nodes row place := by
  have places : (nodes.map place).Nodup := List.pairwise_map.mpr (ascending.imp Nat.ne_of_lt)
  have distinct : nodes.Nodup := List.Nodup.of_map place places
  obtain ⟨again, same, inside, forward, _⟩ := sort_spec distinct within
  cases sorted.symm.trans same
  have listed (node : N) : node ∈ order ↔ node ∈ nodes :=
    (List.Subperm.perm_of_length_le (forward.distinct.subperm inside)
      (Nat.le_of_eq complete.symm)).mem_iff
  have released := sorted_of_sort within ascending sorted
  have injective : ∀ node ∈ nodes, ∀ other ∈ nodes, place node = place other → node = other :=
    fun node member other otherMember equal => List.inj_on_of_nodup_map places member otherMember equal
  rw [firstReady_iff_levels forward listed complete within released injective,
    levels_iff_overtakes forward listed complete within released injective]

end Kahn

end Oxgraph
