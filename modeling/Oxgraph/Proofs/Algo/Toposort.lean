import Oxgraph.Algo.Toposort
import Oxgraph.Lib.Kahn
import Oxgraph.Lib.ReleaseOrder
import Oxgraph.Proofs.Algo.History
import Oxgraph.Proofs.Algo.Induced

/-!
Topological sort is Kahn's algorithm on the induced rows, and so sound and complete.

It is also compared with its documented tie-break: input order among what has no predecessor left.
-/

namespace Oxgraph

namespace TopologyView

variable {Id : Type} [DecidableEq Id] (graph : TopologyView Id) (elements : List Id)

/-- A requested element all of whose induced predecessors are listed, and not it. -/
structure Ready (earlier : List Id) (element : Id) : Prop where
  requested : graph.Requested elements element
  unlisted : element ∉ earlier
  predecessors : ∀ source, graph.InducedEdge elements source element → source ∈ earlier

/-- At every position the listed element is the one of those ready that comes first in the input. -/
def ListsFirstReady (order : List Id) : Prop :=
  ∀ earlier element later, order = earlier ++ element :: later →
    graph.Ready elements earlier element ∧
      ∀ other, graph.Ready elements earlier other → elements.idxOf element ≤ elements.idxOf other

/-- No requested element overtakes one that comes earlier in the input. -/
def OvertakesInInputOrder : Prop :=
  Kahn.OvertakesByPlace (graph.nodes elements) (graph.inducedRow elements) elements.idxOf

end TopologyView

end Oxgraph

-- Sorting is Kahn's algorithm.

namespace Oxgraph

namespace Toposort

variable {Id : Type} [DecidableEq Id] {graph : TopologyView Id} {elements : List Id}

/-- The in-degrees by index are those of a run over the induced rows, with the same queue. -/
structure Tracks (graph : TopologyView Id) (elements : List Id) (state : Toposort Id)
    (counts : Kahn.Counts Id) : Prop where
  indegree : graph.Holds elements state.indegree counts.indegree
  queue : state.queue = counts.queue

variable {member : List Bool} (apart : graph.TellsApart elements)
  (marked : graph.Holds elements member fun element => decide (element ∈ graph.nodes elements))

include apart marked

/-- Counting the edges of a requested node adds those to requested targets. -/
theorem foldl_count {node : Id} (requested : graph.Requested elements node) {indegree : List Nat}
    {counts : Id → Nat} (holds : graph.Holds elements indegree counts) :
    graph.Holds elements ((graph.elementSuccessors node).foldl (count graph member) indegree)
      fun element => counts element + (graph.inducedRow elements node).count element := by
  -- Successors that are no members are passed over, which the induced row leaves out.
  have general {successors : List Id} (reached : ∀ successor ∈ successors,
      successor ∈ graph.elementSuccessors node) {indegree : List Nat} {counts : Id → Nat}
      (holds : graph.Holds elements indegree counts) :
      graph.Holds elements (successors.foldl (count graph member) indegree)
        fun element => counts element +
          (successors.filter (graph.isMember member)).count element := by
    induction successors generalizing indegree counts with
    | nil => exact holds
    | cons successor rest ih =>
      obtain ⟨own, others⟩ := List.forall_mem_cons.mp reached
      rw [List.foldl_cons, List.filter_cons, count]
      by_cases asked : graph.isMember member successor = true
      · have known := TopologyView.isMember_successor marked requested own
        rw [asked, eq_comm, decide_eq_true_eq] at known
        have meets := (TopologyView.mem_nodes.mp known).meets
        rw [if_pos asked, if_pos asked]
        have more := ih others (holds.modify apart meets (· + 1))
        intro element met
        rw [more element met]
        dsimp only
        by_cases same : element = successor
        · subst same
          rw [Function.update_self, List.count_cons_self]
          congr 1
          omega
        · rw [Function.update_of_ne same, List.count_cons_of_ne (Ne.symm same)]
      · rw [if_neg asked, if_neg asked]
        exact ih others holds
  have all := general (fun _ reached => reached) holds
  rw [TopologyView.filter_isMember marked requested] at all
  exact all

/-- The in-degrees by index are those of the induced rows. -/
theorem countAll_holds : graph.Holds elements (countAll graph member (graph.nodes elements))
    (Kahn.indegree (graph.nodes elements) (graph.inducedRow elements)) := by
  have general {nodes : List Id} (requested : ∀ node ∈ nodes, graph.Requested elements node)
      {indegree : List Nat} {counts : Id → Nat} (holds : graph.Holds elements indegree counts) :
      graph.Holds elements
        (nodes.foldl (fun indegree node =>
          (graph.elementSuccessors node).foldl (count graph member) indegree) indegree)
        fun element => counts element + Kahn.indegree nodes (graph.inducedRow elements) element := by
    induction nodes generalizing indegree counts with
    | nil => exact holds
    | cons node rest ih =>
      obtain ⟨own, others⟩ := List.forall_mem_cons.mp requested
      intro element met
      rw [List.foldl_cons, ih others (foldl_count apart marked own holds) element met]
      show some (counts element + _ + _) = some (counts element + _)
      rw [Nat.add_assoc, Kahn.indegree_cons]
  have all := general (fun _ member => TopologyView.mem_nodes.mp member)
    (TopologyView.Holds.replicate graph elements 0)
  intro element met
  refine (all element met).trans (congrArg some (Nat.zero_add _))

/-- Releasing the successors of a requested node releases its induced row. -/
theorem Tracks.releaseAll {node : Id} (requested : graph.Requested elements node)
    {state : Toposort Id} {counts after : Kahn.Counts Id} (tracks : Tracks graph elements state counts)
    (released : (graph.inducedRow elements node).foldlM Kahn.release counts = some after) :
    ∃ next, (graph.elementSuccessors node).foldlM (release graph member) state = some next ∧
      Tracks graph elements next after := by
  have general {successors : List Id} (reached : ∀ successor ∈ successors,
      successor ∈ graph.elementSuccessors node) {state : Toposort Id} {counts : Kahn.Counts Id}
      (tracks : Tracks graph elements state counts)
      (released : (successors.filter (graph.isMember member)).foldlM Kahn.release counts =
        some after) :
      ∃ next, successors.foldlM (release graph member) state = some next ∧
        Tracks graph elements next after := by
    induction successors generalizing state counts with
    | nil =>
      cases released
      exact ⟨state, rfl, tracks⟩
    | cons successor rest ih =>
      obtain ⟨own, others⟩ := List.forall_mem_cons.mp reached
      rw [List.filter_cons] at released
      rw [List.foldlM_cons, release]
      by_cases asked : graph.isMember member successor = true
      · have known := TopologyView.isMember_successor marked requested own
        rw [asked, eq_comm, decide_eq_true_eq] at known
        have meets := (TopologyView.mem_nodes.mp known).meets
        rw [if_pos asked, List.foldlM_cons, Kahn.release] at released
        rw [if_pos asked, tracks.indegree successor meets]
        -- Both count down from the same in-degree.
        cases count : counts.indegree successor with
        | zero =>
          rw [count] at released
          cases released
        | succ left =>
          rw [count] at released
          refine ih others ⟨?_, ?_⟩ released
          · exact tracks.indegree.set apart meets left
          · show (if left = 0 then _ else _) = if left = 0 then _ else _
            rw [tracks.queue]
      · rw [if_neg asked] at released ⊢
        exact ih others tracks released
  rw [← TopologyView.filter_isMember marked requested] at released
  exact general (fun _ reached => reached) tracks released

/-- Draining takes the nodes that a run over the induced rows takes. -/
theorem Tracks.drain {state : Toposort Id} {counts : Kahn.Counts Id}
    (tracks : Tracks graph elements state counts) {order : List Id}
    (counting : Kahn.Counting (graph.nodes elements) (graph.inducedRow elements) order [] counts)
    (fuel : Nat) : Toposort.drain graph member fuel state order =
      Kahn.drain (graph.inducedRow elements) fuel counts order := by
  induction fuel generalizing state counts order with
  | zero => rfl
  | succ fuel ih =>
    unfold Kahn.drain Toposort.drain
    rw [tracks.queue]
    -- A node in the queue is counted down to zero, so its row can be released.
    cases front : counts.queue with
    | nil => rfl
    | cons node queue =>
      have inside : node ∈ graph.nodes elements := by
        refine ((counting.ready node).mp ?_).1
        rw [front]
        simp
      obtain ⟨after, released, counted⟩ := (counting.pop front).releaseAll
        fun _ member => TopologyView.mem_nodes.mpr (TopologyView.mem_inducedRow.mp member).2
      have popped : Tracks graph elements { state with queue } { counts with queue } :=
        ⟨tracks.indegree, rfl⟩
      obtain ⟨next, ran, tracked⟩ :=
        popped.releaseAll apart marked (TopologyView.mem_nodes.mp inside) released
      dsimp only
      rw [released, ran]
      exact ih tracked counted

end Toposort

variable {Id : Type} [DecidableEq Id] {graph : TopologyView Id} {elements : List Id}

/-- Topological sort orders as many of the requested elements as Kahn's algorithm does. -/
theorem topologicalSort_eq (apart : graph.TellsApart elements) :
    topologicalSort graph elements =
      (Kahn.sort (graph.nodes elements) (graph.inducedRow elements)).map fun order =>
        if order.length = (graph.nodes elements).length then .ok order else .error .cycle := by
  obtain ⟨collected, marked⟩ := TopologyView.collectMembers_spec apart
  have counted := Toposort.countAll_holds apart marked
  let counts : Kahn.Counts Id :=
    { indegree := Kahn.indegree (graph.nodes elements) (graph.inducedRow elements)
      queue := (graph.nodes elements).filter fun node =>
        Kahn.indegree (graph.nodes elements) (graph.inducedRow elements) node == 0 }
  -- The slots hold the in-degrees, so both runs start from the same queue.
  have ready : ((graph.nodes elements).filter fun node =>
      (Toposort.countAll graph (collectMembers graph elements).1
        (graph.nodes elements))[graph.elementIndex node]? == some 0) = counts.queue := by
    refine List.filter_congr fun node member => ?_
    rw [counted node (TopologyView.mem_nodes.mp member).meets]
    rfl
  have tracks : Toposort.Tracks graph elements
      { indegree := Toposort.countAll graph (collectMembers graph elements).1 (graph.nodes elements)
        queue := counts.queue } counts := ⟨counted, rfl⟩
  unfold topologicalSort
  dsimp only
  rw [collected, ready, tracks.drain apart marked (Kahn.Counting.start TopologyView.nodup_nodes)]
  exact (Option.map_eq_bind ..).symm

/-- The edges of the induced subgraph are those of the induced rows. -/
theorem edge_inducedRow {source target : Id} :
    Kahn.Edge (graph.nodes elements) (graph.inducedRow elements) source target ↔
      graph.InducedEdge elements source target := by
  unfold Kahn.Edge TopologyView.InducedEdge
  rw [TopologyView.mem_nodes, TopologyView.mem_inducedRow, and_comm (a := target ∈ _)]

/-- Topological sort orders all requested elements, or there is a cycle. -/
theorem topologicalSort_cases (apart : graph.TellsApart elements) :
    (Acyclic (graph.InducedEdge elements) ∧ ∃ order,
      topologicalSort graph elements = some (.ok order) ∧
        (∀ element, element ∈ order ↔ graph.Requested elements element) ∧
          Forward (graph.InducedEdge elements) order) ∨
    (¬ Acyclic (graph.InducedEdge elements) ∧
      topologicalSort graph elements = some (.error .cycle)) := by
  obtain ⟨order, sorted, inside, forward, complete⟩ :=
    Kahn.sort_spec (@TopologyView.nodup_nodes Id graph elements _) TopologyView.inducedRow_within
  have edges : Kahn.Edge (graph.nodes elements) (graph.inducedRow elements) =
      graph.InducedEdge elements := by
    funext source target
    exact propext edge_inducedRow
  rw [edges] at forward complete
  rw [topologicalSort_eq apart, sorted, Option.map_some]
  -- The order is complete exactly when there is no cycle.
  by_cases all : order.length = (graph.nodes elements).length
  · refine .inl ⟨complete.mp all, order, by rw [if_pos all], fun element => ?_, forward⟩
    rw [← TopologyView.mem_nodes]
    refine (List.Subperm.perm_of_length_le ?_ (Nat.le_of_eq all.symm)).mem_iff
    exact forward.distinct.subperm inside
  · exact .inr ⟨mt complete.mpr all, by rw [if_neg all]⟩

end Oxgraph

-- When the tie-break is kept.

namespace Oxgraph

variable {Id : Type} [DecidableEq Id] {graph : TopologyView Id} {elements : List Id}

namespace TopologyView

/-- The nodes are in input order. -/
theorem pairwise_nodes (graph : TopologyView Id) (elements : List Id) :
    (graph.nodes elements).Pairwise (elements.idxOf · < elements.idxOf ·) :=
  pairwise_firsts _ _

/-- An order of the requested elements lists the first ready one when it does so over the rows. -/
theorem listsFirstReady_iff {order : List Id}
    (all : ∀ element, element ∈ order ↔ graph.Requested elements element)
    (forward : Forward (graph.InducedEdge elements) order) :
    graph.ListsFirstReady elements order ↔
      Kahn.FirstReady (graph.nodes elements) (graph.inducedRow elements) elements.idxOf order := by
  constructor
  · intro lists earlier element later split other member absent ready
    refine (lists earlier element later split).2 other ⟨mem_nodes.mp member, absent, ?_⟩
    exact fun source edge => ready source (edge_inducedRow.mpr edge)
  · intro first earlier element later split
    have distinct := forward.distinct
    rw [split] at distinct
    have absent : element ∉ earlier := fun member =>
      (List.nodup_append'.mp distinct).2.2 member List.mem_cons_self
    refine ⟨⟨(all element).mp ?_, absent, ?_⟩, fun other ready => ?_⟩
    · rw [split]
      exact List.mem_append_right _ List.mem_cons_self
    · -- What points at an element forward comes before it, and so earlier.
      intro source edge
      have before := forward.idxOf_lt ((all source).mpr edge.1) ((all element).mpr edge.2.1) edge
      by_contra behind
      rw [split, List.idxOf_append_of_notMem absent, List.idxOf_append_of_notMem behind,
        List.idxOf_cons_self] at before
      exact absurd before (Nat.not_lt.mpr (Nat.add_le_add_left (Nat.zero_le _) _))
    · refine first earlier element later split other (mem_nodes.mpr ready.requested) ready.unlisted ?_
      exact fun source edge => ready.predecessors source (edge_inducedRow.mp edge)

end TopologyView

/--
A topological order lists the first ready element of the input exactly if none overtakes another.

The queue lists level by level, and within a level as the elements are released: what is released
late waits behind what was ready before, also if it comes earlier in the input.
-/
theorem topologicalSort_firstReady_iff (apart : graph.TellsApart elements) {order : List Id}
    (sorted : topologicalSort graph elements = some (.ok order)) :
    graph.ListsFirstReady elements order ↔ graph.OvertakesInInputOrder elements := by
  rcases topologicalSort_cases apart with ⟨_, listed, same, all, forward⟩ | ⟨_, failed⟩
  · rw [sorted] at same
    cases same
    rw [TopologyView.listsFirstReady_iff all forward]
    rw [topologicalSort_eq apart] at sorted
    obtain ⟨ran, sorts, result⟩ := Option.map_eq_some_iff.mp sorted
    split at result
    · rename_i complete
      cases result
      exact Kahn.firstReady_iff_overtakes TopologyView.inducedRow_within
        (TopologyView.pairwise_nodes graph elements) sorts complete
    · cases result
  · rw [sorted] at failed
    cases failed

/-- An edge from the second of three elements to the first. -/
def Toposort.backEdge : TopologyView Nat where
  elementBound := 3
  elementIndex element := element
  containsElement element := decide (element < 3)
  elementSuccessors element := if element = 1 then [0] else []
  elementPredecessors element := if element = 0 then [1] else []

/-- With the request in the order of release, the first ready element is always listed. -/
theorem topologicalSort_firstReady_iff_backEdge :
    Toposort.backEdge.ListsFirstReady [1, 2, 0] [1, 2, 0] ↔
      Toposort.backEdge.OvertakesInInputOrder [1, 2, 0] :=
  topologicalSort_firstReady_iff (fun _ _ _ _ same => same) (by decide +kernel)

/-- The first element is released once the second is listed, and yet the third comes before it. -/
theorem topologicalSort_not_firstReady :
    ¬ ∀ (graph : TopologyView Nat) (elements order : List Nat), graph.TellsApart elements →
      topologicalSort graph elements = some (.ok order) → graph.ListsFirstReady elements order := by
  intro claimed
  have lists := claimed Toposort.backEdge [0, 1, 2] [1, 2, 0] (fun _ _ _ _ same => same)
    (by decide +kernel)
  have ready : Toposort.backEdge.Ready [0, 1, 2] [1] 0 := by
    refine ⟨⟨by decide, by decide⟩, by decide, fun source edge => ?_⟩
    have leads := edge.2.2
    change 0 ∈ (if source = 1 then [0] else ([] : List Nat)) at leads
    split at leads
    · rename_i same
      rw [same]
      exact List.mem_cons_self
    · cases leads
  exact absurd ((lists [1] 2 [0] rfl).2 0 ready) (by decide)

end Oxgraph
