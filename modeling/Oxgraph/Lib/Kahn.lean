import Mathlib.Algebra.BigOperators.Group.Finset.Basic
import Mathlib.Algebra.GroupWithZero.Nat
import Mathlib.Algebra.Order.BigOperators.Group.Finset
import Mathlib.Data.Fintype.Card
import Mathlib.Data.List.Nodup
import Mathlib.Data.Set.Finite.List
import Mathlib.Logic.Relation
import Mathlib.Order.WellFounded

/-! Acyclic relations, and Kahn's algorithm, which orders their nodes. -/

namespace Oxgraph

variable {N : Type} {edge : N → N → Prop} {order : List N}

/-- No way of one edge or more leads from a node back to it. -/
def Acyclic (edge : N → N → Prop) : Prop := ∀ node, ¬ Relation.TransGen edge node node

/-- The edges between the nodes of a list go forward in it. -/
structure Forward (edge : N → N → Prop) (order : List N) : Prop where
  distinct : order.Nodup
  forward : order.Pairwise fun earlier later => ¬ edge later earlier
  loopless : ∀ node ∈ order, ¬ edge node node

/-- A node that no edge leads to from itself or an earlier node may be appended. -/
theorem Forward.push (before : Forward edge order) {node : N} (fresh : node ∉ order)
    (back : ∀ earlier ∈ order, ¬ edge node earlier) (loop : ¬ edge node node) :
    Forward edge (order ++ [node]) := by
  refine ⟨?_, ?_, ?_⟩
  · exact before.distinct.append (List.nodup_singleton node) (by simpa using fresh)
  · refine List.pairwise_append.mpr ⟨before.forward, List.pairwise_singleton _ _, ?_⟩
    intro earlier member later last
    rw [List.mem_singleton.mp last]
    exact back earlier member
  · intro other member
    rcases List.mem_append.mp member with old | new
    · exact before.loopless other old
    · rw [List.mem_singleton.mp new]
      exact loop

section Positions

variable [DecidableEq N]

/-- An edge leads to a later position. -/
theorem Forward.idxOf_lt (along : Forward edge order) {source target : N}
    (sourceIn : source ∈ order) (targetIn : target ∈ order) (leads : edge source target) :
    order.idxOf source < order.idxOf target := by
  have sourceInside := List.idxOf_lt_length_of_mem sourceIn
  have targetInside := List.idxOf_lt_length_of_mem targetIn
  rcases Nat.lt_trichotomy (order.idxOf source) (order.idxOf target) with before | same | after
  · exact before
  · -- Both are the same node, which would be a loop.
    have equal := (List.idxOf_inj sourceIn).mp same
    rw [equal] at leads
    exact absurd leads (along.loopless target targetIn)
  · have back := (List.pairwise_iff_getElem.mp along.forward) _ _ targetInside sourceInside after
    rw [List.getElem_idxOf, List.getElem_idxOf] at back
    exact absurd leads back

/-- A list of all nodes of the edges in which they go forward leaves no way back. -/
theorem Forward.acyclic (along : Forward edge order)
    (among : ∀ {source target}, edge source target → source ∈ order ∧ target ∈ order) :
    Acyclic edge := by
  -- Along every way the positions ascend.
  have ascends {source target : N} (way : Relation.TransGen edge source target) :
      order.idxOf source < order.idxOf target := by
    induction way with
    | single leads =>
      obtain ⟨sourceIn, targetIn⟩ := among leads
      exact along.idxOf_lt sourceIn targetIn leads
    | tail _ leads ih =>
      obtain ⟨sourceIn, targetIn⟩ := among leads
      exact Nat.lt_trans ih (along.idxOf_lt sourceIn targetIn leads)
  exact fun node way => Nat.lt_irrefl _ (ascends way)

end Positions

/-- Some node of a list has no predecessor in it, if there is no way back. -/
theorem Acyclic.exists_source (acyclic : Acyclic edge) {nodes : List N} (some : nodes ≠ []) :
    ∃ node ∈ nodes, ∀ before ∈ nodes, ¬ edge before node := by
  -- Ways among the nodes of the list descend to a minimum.
  let way (first last : { node // node ∈ nodes }) : Prop := Relation.TransGen edge first last
  have : IsTrans { node // node ∈ nodes } way :=
    ⟨fun _ _ _ first second => Relation.TransGen.trans first second⟩
  have : Std.Irrefl way := ⟨fun node cycle => acyclic node cycle⟩
  have : Finite { node // node ∈ nodes } := (List.finite_toSet nodes).to_subtype
  have descends : WellFounded way := Finite.wellFounded_of_trans_of_irrefl way
  obtain ⟨first, inside⟩ := List.exists_mem_of_ne_nil nodes some
  obtain ⟨node, _, least⟩ := descends.has_min Set.univ ⟨⟨first, inside⟩, trivial⟩
  refine ⟨node, node.2, fun before member leads => ?_⟩
  exact least ⟨before, member⟩ trivial (.single leads)

end Oxgraph

-- Kahn's algorithm over any rows: in-degrees count down, and what reaches zero is ready.

namespace Oxgraph

namespace Kahn

variable {N : Type} [DecidableEq N]

/-- The in-degrees from nodes that have not been ordered, and the nodes that are ready. -/
structure Counts (N : Type) where
  indegree : N → Nat
  queue : List N

/-- Counts down one edge to a target, which is ready after the last; below zero is `none`. -/
def release (counts : Counts N) (target : N) : Option (Counts N) :=
  match counts.indegree target with
  | 0 => none
  | count + 1 => some
      { indegree := Function.update counts.indegree target count
        queue := if count = 0 then counts.queue ++ [target] else counts.queue }

/-- Orders nodes that are ready and releases their rows until none is left. -/
def drain (row : N → List N) : Nat → Counts N → List N → Option (List N)
  | 0, _, _ => none
  | fuel + 1, counts, order =>
    match counts.queue with
    | [] => some order
    | node :: queue => do
      let released ← (row node).foldlM release { counts with queue }
      drain row fuel released (order ++ [node])

/-- The edges into a node, with their multiplicities. -/
def indegree (nodes : List N) (row : N → List N) (node : N) : Nat :=
  (nodes.map fun source => (row source).count node).sum

/-- The nodes that can be ordered, in order. -/
def sort (nodes : List N) (row : N → List N) : Option (List N) :=
  drain row (nodes.length + 1)
    { indegree := indegree nodes row
      queue := nodes.filter fun node => indegree nodes row node == 0 } []

variable {nodes : List N} {row : N → List N}

/-- The edges of one more node are counted besides those of the others. -/
theorem indegree_cons (source : N) (nodes : List N) (row : N → List N) (node : N) :
    indegree (source :: nodes) row node = (row source).count node + indegree nodes row node := by
  unfold indegree
  rw [List.map_cons, List.sum_cons]

/-- Edges between given nodes. -/
def Edge (nodes : List N) (row : N → List N) (source target : N) : Prop :=
  source ∈ nodes ∧ target ∈ row source

/-- The edges into a node from those that have not been ordered. -/
def pending (nodes : List N) (row : N → List N) (order : List N) (node : N) : Nat :=
  ∑ source ∈ nodes.toFinset \ order.toFinset, (row source).count node

/-- At first every edge is pending. -/
theorem indegree_eq_pending (distinct : nodes.Nodup) (node : N) :
    indegree nodes row node = pending nodes row [] node := by
  unfold indegree pending
  rw [List.toFinset_nil, Finset.sdiff_empty, List.sum_toFinset _ distinct]

variable {order : List N}

/-- No edge is pending from a node that has been ordered, and those of the others still are. -/
theorem pending_push {source : N} (inside : source ∈ nodes) (fresh : source ∉ order) (node : N) :
    pending nodes row order node =
      pending nodes row (order ++ [source]) node + (row source).count node := by
  have rest : nodes.toFinset \ (order ++ [source]).toFinset =
      (nodes.toFinset \ order.toFinset).erase source := by
    ext other
    simp only [Finset.mem_sdiff, List.mem_toFinset, List.mem_append, List.mem_singleton,
      Finset.mem_erase]
    tauto
  have member : source ∈ nodes.toFinset \ order.toFinset := by
    rw [Finset.mem_sdiff, List.mem_toFinset, List.mem_toFinset]
    exact ⟨inside, fresh⟩
  unfold pending
  rw [rest, Finset.sum_erase_add _ _ member]

/-- Nothing pending means that no edge leads to the node from one that has not been ordered. -/
theorem pending_eq_zero {node : N} :
    pending nodes row order node = 0 ↔
      ∀ source ∈ nodes, source ∉ order → node ∉ row source := by
  unfold pending
  rw [Finset.sum_eq_zero_iff]
  simp only [Finset.mem_sdiff, List.mem_toFinset, List.count_eq_zero, and_imp]

/--
The in-degrees count the pending edges and the rest of a row, and what is ready or ordered are the
nodes at zero.
-/
structure Counting (nodes : List N) (row : N → List N) (order rest : List N)
    (counts : Counts N) : Prop where
  counted : ∀ node ∈ nodes,
    counts.indegree node = pending nodes row order node + rest.count node
  ready : ∀ node, node ∈ order ++ counts.queue ↔ node ∈ nodes ∧ counts.indegree node = 0
  distinct : (order ++ counts.queue).Nodup
  forward : Forward (Edge nodes row) order

/-- At first the in-degrees count all edges, and the nodes without any are ready. -/
theorem Counting.start (distinct : nodes.Nodup) : Counting nodes row [] []
    { indegree := indegree nodes row
      queue := nodes.filter fun node => indegree nodes row node == 0 } := by
  constructor
  case counted =>
    intro node _
    exact indegree_eq_pending distinct node
  case ready =>
    intro node
    rw [List.nil_append, List.mem_filter, beq_iff_eq]
  case distinct => exact distinct.filter _
  case forward => exact ⟨List.nodup_nil, .nil, fun _ none => (nomatch none)⟩

variable {counts : Counts N} {order rest : List N}

/-- Counting down an edge that is still counted succeeds. -/
theorem Counting.release {target : N}
    (counting : Counting nodes row order (target :: rest) counts) (inside : target ∈ nodes) :
    ∃ after, release counts target = some after ∧ Counting nodes row order rest after := by
  have here := counting.counted target inside
  rw [List.count_cons_self] at here
  unfold Kahn.release
  -- The edge is counted still, so the count is not zero.
  cases left : counts.indegree target with
  | zero => omega
  | succ count =>
    refine ⟨_, rfl, ?_⟩
    have waiting : target ∉ order ++ counts.queue := by
      intro ready
      have zero := ((counting.ready target).mp ready).2
      omega
    constructor
    case forward => exact counting.forward
    case counted =>
      intro node member
      by_cases same : node = target
      · subst same
        show Function.update counts.indegree node count node = _
        rw [Function.update_self]
        omega
      · show Function.update counts.indegree target count node = _
        rw [Function.update_of_ne same, counting.counted node member,
          List.count_cons_of_ne (Ne.symm same)]
    case ready =>
      intro node
      show node ∈ order ++ (if count = 0 then counts.queue ++ [target] else counts.queue) ↔
        node ∈ nodes ∧ Function.update counts.indegree target count node = 0
      by_cases same : node = target
      · subst same
        rw [Function.update_self]
        split
        · rename_i last
          simp [inside, last]
        · rename_i more
          simpa [inside, more] using waiting
      · rw [Function.update_of_ne same, ← counting.ready node]
        split <;> simp [same]
    case distinct =>
      show (order ++ (if count = 0 then counts.queue ++ [target] else counts.queue)).Nodup
      split
      · rw [← List.append_assoc]
        exact counting.distinct.append (List.nodup_singleton target) (by simpa using waiting)
      · exact counting.distinct

/-- Releasing the whole rest counts down every edge of it. -/
theorem Counting.releaseAll (counting : Counting nodes row order rest counts)
    (inside : ∀ target ∈ rest, target ∈ nodes) :
    ∃ after, rest.foldlM Kahn.release counts = some after ∧
      Counting nodes row order [] after := by
  induction rest generalizing counts with
  | nil => exact ⟨counts, rfl, counting⟩
  | cons target rest ih =>
    obtain ⟨own, others⟩ := List.forall_mem_cons.mp inside
    obtain ⟨next, released, counted⟩ := counting.release own
    obtain ⟨after, all, done⟩ := ih counted others
    refine ⟨after, ?_, done⟩
    rw [List.foldlM_cons, released]
    exact all

/-- A node that is ready is ordered: no edge leads to it, and its own row is released next. -/
theorem Counting.pop {order queue : List N} {node : N}
    (counting : Counting nodes row order [] counts) (front : counts.queue = node :: queue) :
    Counting nodes row (order ++ [node]) (row node) { counts with queue } := by
  have same : order ++ [node] ++ queue = order ++ counts.queue := by
    rw [front, List.append_assoc, List.singleton_append]
  have inside : node ∈ nodes := by
    refine ((counting.ready node).mp ?_).1
    rw [front]
    simp
  have fresh : node ∉ order := by
    have apart := counting.distinct
    rw [front] at apart
    exact fun member => (List.disjoint_of_nodup_append apart) member List.mem_cons_self
  -- No edge leads to what is ordered or ready from nodes that have not been ordered.
  have back {earlier : N} (ready : earlier ∈ order ++ counts.queue) :
      ¬ Edge nodes row node earlier := by
    obtain ⟨known, zero⟩ := (counting.ready earlier).mp ready
    have none := counting.counted earlier known
    rw [zero, List.count_nil, Nat.add_zero] at none
    exact fun leads => pending_eq_zero.mp none.symm node inside fresh leads.2
  constructor
  case counted =>
    intro other member
    show counts.indegree other = _
    rw [counting.counted other member, List.count_nil, Nat.add_zero, pending_push inside fresh]
  case ready =>
    intro other
    rw [same]
    exact counting.ready other
  case distinct =>
    rw [same]
    exact counting.distinct
  case forward =>
    refine counting.forward.push fresh (fun earlier member => ?_) (back ?_)
    · exact back (List.mem_append_left _ member)
    · rw [front]
      simp

/-- No more nodes are ordered than there are. -/
theorem Counting.length_le (counting : Counting nodes row order rest counts) :
    order.length ≤ nodes.length := by
  refine (counting.forward.distinct.subperm fun node member => ?_).length_le
  exact ((counting.ready node).mp (List.mem_append_left _ member)).1

/-- Draining ends with an empty queue. -/
theorem Counting.drain (within : ∀ {source target}, target ∈ row source → target ∈ nodes)
    (counting : Counting nodes row order [] counts) {fuel : Nat}
    (enough : nodes.length < order.length + fuel) : ∃ result after,
      Kahn.drain row fuel counts order = some result ∧ after.queue = [] ∧
        Counting nodes row result [] after := by
  induction fuel generalizing order counts with
  | zero =>
    have := counting.length_le
    omega
  | succ fuel ih =>
    unfold Kahn.drain
    cases front : counts.queue with
    | nil => exact ⟨order, counts, rfl, front, counting⟩
    | cons node queue =>
      obtain ⟨next, released, counted⟩ :=
        (counting.pop front).releaseAll fun _ member => within member
      dsimp only
      rw [released]
      refine ih counted ?_
      rw [List.length_append, List.length_singleton]
      omega

/-- An acyclic relation leaves nothing waiting. -/
theorem Counting.complete (counting : Counting nodes row order [] counts)
    (empty : counts.queue = []) (acyclic : Acyclic (Edge nodes row)) :
    ∀ node ∈ nodes, node ∈ order := by
  intro node member
  by_contra waiting
  -- Some node that waits has no predecessor that waits, so that its in-degree is zero.
  have some : nodes.filter (fun node => decide (node ∉ order)) ≠ [] := by
    refine List.ne_nil_of_mem (a := node) (List.mem_filter.mpr ⟨member, ?_⟩)
    exact decide_eq_true waiting
  obtain ⟨first, waits, least⟩ := acyclic.exists_source some
  obtain ⟨inside, unordered⟩ := List.mem_filter.mp waits
  have none : pending nodes row order first = 0 := by
    refine pending_eq_zero.mpr fun source sourceIn late leads => ?_
    exact least source (List.mem_filter.mpr ⟨sourceIn, decide_eq_true late⟩) ⟨sourceIn, leads⟩
  have zero := counting.counted first inside
  rw [none, List.count_nil] at zero
  have ready := (counting.ready first).mpr ⟨inside, zero⟩
  rw [empty, List.append_nil] at ready
  exact of_decide_eq_true unordered ready

/-- All nodes are ordered exactly when there is no way back, and then edges go forward. -/
theorem sort_spec (distinct : nodes.Nodup)
    (within : ∀ {source target}, target ∈ row source → target ∈ nodes) : ∃ order,
      sort nodes row = some order ∧ order ⊆ nodes ∧ Forward (Edge nodes row) order ∧
        (order.length = nodes.length ↔ Acyclic (Edge nodes row)) := by
  obtain ⟨order, after, drained, empty, counting⟩ :=
    (Counting.start distinct).drain within (show nodes.length < 0 + (nodes.length + 1) by omega)
  have inside : order ⊆ nodes := by
    intro node member
    exact ((counting.ready node).mp (List.mem_append_left _ member)).1
  refine ⟨order, drained, inside, counting.forward, ?_⟩
  constructor
  · intro all
    have complete : nodes ⊆ order := by
      refine (List.Subperm.perm_of_length_le ?_ (Nat.le_of_eq all.symm)).symm.subset
      exact counting.forward.distinct.subperm inside
    refine counting.forward.acyclic fun leads => ?_
    exact ⟨complete leads.1, complete (within leads.2)⟩
  · intro acyclic
    refine Nat.le_antisymm counting.length_le ?_
    exact (distinct.subperm (counting.complete empty acyclic)).length_le

end Kahn

end Oxgraph
