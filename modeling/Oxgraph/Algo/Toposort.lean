import Oxgraph.Algo.Topology

/-! Topological ordering of an induced subgraph, and the longest path through it. -/

namespace Oxgraph

variable {Id : Type}

/-- Error of requested elements that cannot be totally ordered. -/
inductive ToposortError where
  -- The induced subgraph has a cycle.
  | cycle
  deriving DecidableEq, Repr

/-- The in-degrees by index that are left, and the elements without a remaining predecessor. -/
structure Toposort (Id : Type) where
  indegree : List Nat
  queue : List Id

namespace Toposort

/-- Counts an edge to a member in the in-degree of its target. -/
def count (graph : TopologyView Id) (member : List Bool) (indegree : List Nat) (successor : Id) :
    List Nat :=
  if graph.isMember member successor = true then
    indegree.modify (graph.elementIndex successor) (· + 1)
  else indegree

/-- Counts the edges between nodes that are members. -/
def countAll (graph : TopologyView Id) (member : List Bool) (nodes : List Id) : List Nat :=
  nodes.foldl
    (fun indegree node => (graph.elementSuccessors node).foldl (count graph member) indegree)
    (List.replicate graph.elementBound 0)

/-- Counts down an edge to a member; an in-degree that would underflow is `none`. -/
def release (graph : TopologyView Id) (member : List Bool) (state : Toposort Id)
    (successor : Id) : Option (Toposort Id) :=
  let target := graph.elementIndex successor
  if graph.isMember member successor = true then
    match state.indegree[target]? with
    | some (left + 1) => some
        { indegree := state.indegree.set target left
          queue := if left = 0 then state.queue ++ [successor] else state.queue }
    | _ => none
  else some state

/--
Takes nodes from the queue and releases their successors until it is empty.

Every round orders another node, so that fuel for one more round than there are nodes is enough;
running out of it is `none`.
-/
def drain (graph : TopologyView Id) (member : List Bool) :
    Nat → Toposort Id → List Id → Option (List Id)
  | 0, _, _ => none
  | fuel + 1, state, order =>
    match state.queue with
    | [] => some order
    | node :: queue => do
      let released ← (graph.elementSuccessors node).foldlM (release graph member)
        { state with queue }
      drain graph member fuel released (order ++ [node])

end Toposort

/-- An order of the requested elements along their connections; a panic is `none`. -/
def topologicalSort (graph : TopologyView Id) (elements : List Id) :
    Option (Except ToposortError (List Id)) := do
  let (member, nodes) := collectMembers graph elements
  let indegree := Toposort.countAll graph member nodes
  let queue := nodes.filter fun node => indegree[graph.elementIndex node]? == some 0
  let order ← Toposort.drain graph member (nodes.length + 1) { indegree, queue } []
  return if order.length = nodes.length then .ok order else .error .cycle

end Oxgraph

-- The longest path.

namespace Oxgraph

variable {Id : Type}

/--
The longest chain that ends at each index, and the end of the longest so far.

Successors that were not requested have slots too, which no other slot is read from.
-/
structure LongestPath (Id : Type) where
  lengths : List Nat
  predecessor : List (Option Id)
  bestEnd : Option Id
  bestLength : Nat

namespace LongestPath

/-- Extends the chain of a node to a successor that it makes longer. -/
def relax (graph : TopologyView Id) (node : Id) (nodeLength : Nat) (state : LongestPath Id)
    (successor : Id) : Option (LongestPath Id) := do
  let target := graph.elementIndex successor
  if target < graph.elementBound then
    let length ← state.lengths[target]?
    if length < nodeLength + 1 then
      return { state with
        lengths := state.lengths.set target (nodeLength + 1)
        predecessor := state.predecessor.set target (some node) }
    else return state
  else return state

/-- Compares the chain of a node with the best, and extends it to its successors. -/
def visit (graph : TopologyView Id) (state : LongestPath Id) (node : Id) :
    Option (LongestPath Id) := do
  let nodeLength ← state.lengths[graph.elementIndex node]?
  let offered :=
    if state.bestEnd.isNone ∨ nodeLength > state.bestLength then
      { state with bestEnd := some node, bestLength := nodeLength }
    else state
  (graph.elementSuccessors node).foldlM (relax graph node nodeLength) offered

/-- Goes back from the best end; the chain meets no index twice, so that the bound is enough. -/
def backtrack (graph : TopologyView Id) (predecessor : List (Option Id)) :
    Nat → Option Id → List Id → Option (List Id)
  | 0, _, _ => none
  | _ + 1, none, path => some path
  | fuel + 1, some node, path => do
    let cursor ← predecessor[graph.elementIndex node]?
    backtrack graph predecessor fuel cursor (path ++ [node])

end LongestPath

end Oxgraph
