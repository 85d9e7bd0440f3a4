import Oxgraph.Algo.Bounded
import Oxgraph.Algo.Sssp
import Oxgraph.Algo.Topology
import Oxgraph.Lib.BreadthFirst

/-! What searches yield: breadth-first orders, the ball around seeds, and induced subgraphs. -/

namespace Oxgraph

/-- A sequence of results is the breadth-first order from a start. -/
structure BreadthFirst {Id : Type} [DecidableEq Id] (row : Id → List Id) (start : Id)
    (results : Nat → Option Id) : Prop where
  first : results 0 = some start
  once : ∀ {left right element}, results left = some element → results right = some element →
    left = right
  reaches : ∀ {element},
    (∃ call, results call = some element) ↔ ∃ hops, Hops row [start] hops element
  sorted : ∀ {left right one other near far}, left ≤ right → results left = some one →
    results right = some other → Distance row [start] near one → Distance row [start] far other →
    near ≤ far
  -- Each result is the next of the start and the rows of the results before it, without repeats.
  order : ∀ call, results call =
    (firsts (start :: ((List.range call).filterMap results).flatMap row))[call]?
  ended : ∀ {call later}, call ≤ later → results call = none → results later = none

/-- Every run of the iterator yields a sequence of results, and none of them panics. -/
def Bfs.Yields {Id S : Type} [BfsStep Id S] (graph : TopologyView Id)
    (direction : ExpansionDirection) (frontier : S) (results : Nat → Option Id) : Prop :=
  ∀ count, (Bfs.calls graph direction count frontier).1 = .ok ((List.range count).map results)

/-- One earlier use of epoch scratch: a search dropped after some calls, or a bounded one. -/
inductive ScratchUse (Id : Type) : Type 1 where
  | search (graph : TopologyView Id) (direction : ExpansionDirection) (start : Id) (calls : Nat)
  | bounded {V : Type} (graph : TopologyView Id) (rows : Id → List Id) (seeds : List Id)
    (bounds : BfsBounds) (visit : BfsVisitor Id V) (visitor : V)

/-- The scratch after a use of it, whether that succeeded, failed or panicked. -/
def ScratchUse.run {Id : Type} (scratch : BfsEpochScratch Id) : ScratchUse Id → BfsEpochScratch Id
  | .search graph direction start calls =>
    match breadthFirstSearchWithEpochScratch graph start scratch with
    | (.error _, scratch) => scratch
    | (.ok frontier, scratch) =>
      scratch.reclaim (Bfs.calls graph direction calls frontier).2
  | .bounded graph rows seeds bounds visit visitor =>
    (boundedSearch graph rows seeds bounds visit scratch visitor).2.1

/-- One earlier use of a workspace: a search dropped after some calls. -/
structure WorkspaceUse (Id : Type) where
  graph : TopologyView Id
  direction : ExpansionDirection
  start : Id
  calls : Nat

/-- The workspace after a use of it, whether that succeeded, failed or panicked. -/
def WorkspaceUse.run {Id : Type} (workspace : BfsWorkspace Id) (use : WorkspaceUse Id) :
    BfsWorkspace Id :=
  match breadthFirstSearchWithWorkspace use.graph use.start workspace with
  | (.error _, workspace) => workspace
  | (.ok frontier, workspace) =>
    workspace.reclaim (Bfs.calls use.graph use.direction use.calls frontier).2

end Oxgraph

-- The ball around seeds, and what the three bounded searches emit of it.

namespace Oxgraph

/-- The bounded entry points. -/
inductive BoundedSearch where
  | forward
  | reverse
  | both
  deriving DecidableEq, Repr

namespace BoundedSearch

variable {Id : Type}

/-- The elements that a search reaches from an element in one hop. -/
def rows (graph : TopologyView Id) : BoundedSearch → Id → List Id
  | .forward => graph.elementSuccessors
  | .reverse => graph.elementPredecessors
  | .both => fun element => graph.elementSuccessors element ++ graph.elementPredecessors element

/-- The bounded search along one direction. -/
def along : ExpansionDirection → BoundedSearch
  | .forward => .forward
  | .reverse => .reverse

/-- Runs a bounded search. -/
def run {V : Type} : BoundedSearch → TopologyView Id → List Id → BfsBounds → BfsVisitor Id V →
    BfsEpochScratch Id → V → Except BfsHalt Unit × BfsEpochScratch Id × V
  | .forward => breadthFirstSearchBounded
  | .reverse => reverseBreadthFirstSearchBounded
  | .both => breadthFirstSearchBoundedBoth

end BoundedSearch

section Ball

variable {Id : Type} (rows : Id → List Id) (seeds : List Id) (maxDepth : Option UInt32)
  (includeSeeds : Bool)

/-- An element is this far away, within the depth limit, and no seed unless seeds are included. -/
def Within (element : Id) (depth : Nat) : Prop :=
  Distance rows seeds depth element ∧ (∀ most, maxDepth = some most → depth ≤ most.toNat) ∧
    (includeSeeds = true ∨ 0 < depth)

/-- Every element within the depth limit once, at its distance, and the nearer ones first. -/
structure Ball [DecidableEq Id] (sequence : List (Id × Nat)) : Prop where
  once : (sequence.map Prod.fst).Nodup
  member : ∀ element depth,
    (element, depth) ∈ sequence ↔ Within rows seeds maxDepth includeSeeds element depth
  sorted : (sequence.map Prod.snd).Pairwise (· ≤ ·)
  -- Seeds come first, in the order of the caller.
  seeds : includeSeeds = true → (firsts seeds).map (fun seed => (seed, 0)) <+: sequence

/-- As many elements as the limit are near enough for their depths to fit a word, or all are. -/
def DepthsReportable (resultLimit : Nat) : Prop :=
  ∀ element depth, Within rows seeds maxDepth includeSeeds element depth → 2 ^ 32 ≤ depth →
    ∃ nearer : List Id, nearer.Nodup ∧ nearer.length = resultLimit ∧
      ∀ other ∈ nearer, ∃ near < 2 ^ 32, Within rows seeds maxDepth includeSeeds other near

end Ball

/-- A search returns and shows every visitor that never breaks the given pairs, one by one. -/
def Emits {Id : Type} (search : {V : Type} → BfsVisitor Id V → V →
    Except BfsHalt Unit × BfsEpochScratch Id × V) (sequence : List (Id × Nat)) : Prop :=
  ∃ pairs : List (Id × UInt32), pairs.map (fun pair => (pair.1, pair.2.toNat)) = sequence ∧
    ∀ (V : Type) (visit : BfsVisitor Id V) (visitor : V),
      (∀ visitor element depth, (visit visitor element depth).1 = .continue) →
        ∃ after, search visit visitor = (.ok (), after,
          pairs.foldl (fun visitor pair => (visit visitor pair.1 pair.2).2) visitor)

end Oxgraph

-- The subgraph that requested elements induce.

namespace Oxgraph

namespace TopologyView

variable {Id : Type} (graph : TopologyView Id) (elements : List Id)

/-- An element that is requested and in bound; any other request is ignored. -/
def Requested (element : Id) : Prop :=
  element ∈ elements ∧ graph.elementIndex element < graph.elementBound

/-- An element that an algorithm over the requested ones meets: one of them or of their successors. -/
def Meets (element : Id) : Prop :=
  graph.elementIndex element < graph.elementBound ∧
    (element ∈ elements ∨
      ∃ node, graph.Requested elements node ∧ element ∈ graph.elementSuccessors node)

/-- The dense indexes tell apart the elements that are met, as they do all valid elements. -/
def TellsApart : Prop :=
  ∀ left right, graph.Meets elements left → graph.Meets elements right →
    graph.elementIndex left = graph.elementIndex right → left = right

/-- An edge of the induced subgraph. -/
def InducedEdge (source target : Id) : Prop :=
  graph.Requested elements source ∧ graph.Requested elements target ∧
    target ∈ graph.elementSuccessors source

/-- The successors that are requested themselves, with their multiplicities. -/
def inducedRow [DecidableEq Id] (node : Id) : List Id :=
  (graph.elementSuccessors node).filter fun successor =>
    decide (successor ∈ elements ∧ graph.elementIndex successor < graph.elementBound)

variable {graph elements}

theorem Requested.meets {element : Id} (requested : graph.Requested elements element) :
    graph.Meets elements element :=
  ⟨requested.2, .inl requested.1⟩

theorem Requested.meets_successor {node successor : Id} (requested : graph.Requested elements node)
    (member : successor ∈ graph.elementSuccessors node)
    (inBound : graph.elementIndex successor < graph.elementBound) :
    graph.Meets elements successor :=
  ⟨inBound, .inr ⟨node, requested, member⟩⟩

/-- A lawful view tells apart what is met from elements that are contained. -/
theorem Lawful.tellsApart (lawful : graph.Lawful)
    (contained : ∀ element, graph.Requested elements element →
      graph.containsElement element = true) : graph.TellsApart elements := by
  have met {element : Id} (meets : graph.Meets elements element) :
      graph.containsElement element = true := by
    obtain ⟨inBound, requested | ⟨node, requested, member⟩⟩ := meets
    · exact contained element ⟨requested, inBound⟩
    · exact lawful.successors (contained node requested) element member
  exact fun left right meetsLeft meetsRight => lawful.distinct (met meetsLeft) (met meetsRight)

end TopologyView

end Oxgraph
