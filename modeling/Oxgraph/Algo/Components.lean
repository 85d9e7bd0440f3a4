import Oxgraph.Algo.Topology
import Oxgraph.Lib.TreeMap

/-! Weakly connected components by union-find with path halving and union by rank. -/

namespace Oxgraph

variable {Id : Type}

/-- The parent of each index, and the rank of each as a byte. -/
structure UnionFind where
  parent : List Nat
  rank : List UInt8
  deriving DecidableEq, Repr

/-- What stops a union-find. -/
inductive UnionFindHalt where
  -- A slice index is out of range.
  | index
  -- A rank leaves its byte.
  | rankOverflow
  -- A root was not reached in the rounds that were given.
  | unfinished
  deriving DecidableEq, Repr

namespace UnionFind

/-- Reads a slot of one of the slices. -/
def slot {T : Type} (slots : UnionFind → List T) (index : Nat) :
    Mutation UnionFindHalt UnionFind T := do
  let state ← .read
  match (slots state)[index]? with
  | some slot => return slot
  | none => .fail .index

/-- Points each slot on the way to the parent of its parent, and goes on there. -/
def findIn : Nat → Nat → Mutation UnionFindHalt UnionFind Nat
  | 0, _ => .fail .unfinished
  | rounds + 1, cursor => do
    let above ← slot parent cursor
    if above = cursor then return cursor
    else do
      let next ← slot parent above
      .modify fun state => { state with parent := state.parent.set cursor next }
      findIn rounds next

/-- The root of a cursor. Every round reaches a higher rank, and a byte has no more than these. -/
def find (cursor : Nat) : Mutation UnionFindHalt UnionFind Nat := findIn 256 cursor

/-- Puts the root of lower rank under the other; a tie takes the left one, whose rank grows. -/
def union (left right : Nat) : Mutation UnionFindHalt UnionFind Unit := do
  let leftRoot ← find left
  let rightRoot ← find right
  if leftRoot = rightRoot then return
  else do
    let leftRank ← slot rank leftRoot
    let rightRank ← slot rank rightRoot
    if leftRank < rightRank then
      .modify fun state => { state with parent := state.parent.set leftRoot rightRoot }
    else if rightRank < leftRank then
      .modify fun state => { state with parent := state.parent.set rightRoot leftRoot }
    else if leftRank = 255 then .fail .rankOverflow
    else
      .modify fun state =>
        { parent := state.parent.set rightRoot leftRoot
          rank := state.rank.set leftRoot (leftRank + 1) }

/-- Joins the ends of the edges between members. -/
def joinAll (graph : TopologyView Id) (member : List Bool) (nodes : List Id) :
    Mutation UnionFindHalt UnionFind Unit :=
  nodes.forM fun node => (graph.elementSuccessors node).forM fun successor =>
    if graph.isMember member successor = true then
      union (graph.elementIndex node) (graph.elementIndex successor)
    else return

/-- Adds an element to the group of its root. -/
def group (graph : TopologyView Id) (groups : BTreeMap Nat (List Id)) (node : Id) :
    Mutation UnionFindHalt UnionFind (BTreeMap Nat (List Id)) := do
  let root ← find (graph.elementIndex node)
  return groups.insert root (groups.getD root [] ++ [node])

/-- Before anything is joined each index is its own root. -/
def start (bound : Nat) : UnionFind :=
  { parent := List.range bound, rank := List.replicate bound 0 }

/-- Joins the edges and groups the nodes by their roots. -/
def components (graph : TopologyView Id) (elements : List Id) :
    Mutation UnionFindHalt UnionFind (List (List Id)) := do
  let (member, nodes) := collectMembers graph elements
  joinAll graph member nodes
  let groups ← nodes.foldlM (group graph) ∅
  return groups.toList.map Prod.snd

end UnionFind

end Oxgraph
