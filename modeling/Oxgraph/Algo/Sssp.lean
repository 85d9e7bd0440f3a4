import Oxgraph.Algo.Topology

/-! Single-source shortest path lengths over the subgraph that requested elements induce. -/

namespace Oxgraph

variable {Id : Type}

/-- The marks of the visited elements, and the queued ones with their distances. -/
structure ShortestPaths (Id : Type) where
  visited : List Bool
  queue : List (Id × Nat)

/-- Marks and queues a member successor that has not been visited, one hop further. -/
def ShortestPaths.relax (graph : TopologyView Id) (member : List Bool) (distance : Nat)
    (paths : ShortestPaths Id) (successor : Id) : ShortestPaths Id :=
  let target := graph.elementIndex successor
  if graph.isMember member successor = true ∧ paths.visited[target]? = some false then
    { visited := paths.visited.set target true
      queue := paths.queue ++ [(successor, distance + 1)] }
  else paths

/--
Takes nodes from the queue until it is empty.

Every round takes a node that was queued once, so that fuel for one more round than there are
indexes is enough; running out of it is `none`.
-/
def ShortestPaths.drain (graph : TopologyView Id) (member : List Bool) :
    Nat → ShortestPaths Id → List (Id × Nat) → Option (List (Id × Nat))
  | 0, _, _ => none
  | fuel + 1, paths, distances =>
    match paths.queue with
    | [] => some distances
    | (node, distance) :: queue =>
      let relaxed := (graph.elementSuccessors node).foldl
        (ShortestPaths.relax graph member distance) { paths with queue }
      ShortestPaths.drain graph member fuel relaxed (distances ++ [(node, distance)])

/-- The hop distance from a source to every member it reaches, in breadth-first order. -/
def shortestPathLengths (graph : TopologyView Id) (source : Id) (elements : List Id) :
    Option (List (Id × Nat)) :=
  let bound := graph.elementBound
  let member := markMembers graph elements
  if graph.isMember member source = true then
    ShortestPaths.drain graph member (bound + 1)
      { visited := (List.replicate bound false).set (graph.elementIndex source) true
        queue := [(source, 0)] } []
  else some []

end Oxgraph
