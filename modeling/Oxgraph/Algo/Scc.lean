import Oxgraph.Algo.Topology
import Oxgraph.Lib.Words

/-! Strongly connected components of an induced subgraph, by Tarjan's algorithm on a work stack. -/

namespace Oxgraph

variable {Id : Type}

/-- Order index of an element that is not discovered yet. -/
def unvisited : Nat := usizeBound - 1

/-- The expansion of a node under way: its member successors, and the position of the next. -/
structure Frame (Id : Type) where
  node : Id
  successors : List Id
  position : Nat

/-- Slots by index, and what the walks share. The stacks are lists with the top first. -/
structure TarjanScratch (Id : Type) where
  orderIndex : List Nat
  lowlink : List Nat
  onStack : List Bool
  -- The discovered elements without a component.
  stack : List Id
  components : List (List Id)
  counter : Nat

/-- The successors of a node that are members. -/
def memberSuccessors (graph : TopologyView Id) (member : List Bool) (node : Id) : List Id :=
  (graph.elementSuccessors node).filter (graph.isMember member)

namespace Scc

/-- Writes a slot; an index out of range is `none`. -/
def store {T : Type} (slots : List T) (index : Nat) (value : T) : Option (List T) :=
  if index < slots.length then some (slots.set index value) else none

variable (graph : TopologyView Id)

/-- Numbers a node, and puts it on both stacks; a counter that overflows is `none`. -/
def discover (member : List Bool) (node : Id)
    (scratch : TarjanScratch Id) (work : List (Frame Id)) :
    Option (TarjanScratch Id × List (Frame Id)) := do
  let index := graph.elementIndex node
  let orderIndex ← store scratch.orderIndex index scratch.counter
  let lowlink ← store scratch.lowlink index scratch.counter
  let counter ← checkedAdd scratch.counter 1
  let onStack ← store scratch.onStack index true
  let stack := node :: scratch.stack
  let frame := { node, successors := memberSuccessors graph member node, position := 0 }
  return ({ scratch with orderIndex, lowlink, counter, onStack, stack }, frame :: work)

/-- Discovers a new successor, or lowers the lowlink of the node to a successor on the stack. -/
def advance (member : List Bool) (node successor : Id)
    (scratch : TarjanScratch Id) (work : List (Frame Id)) :
    Option (TarjanScratch Id × List (Frame Id)) := do
  let target := graph.elementIndex successor
  let order ← scratch.orderIndex[target]?
  if order = unvisited then discover graph member successor scratch work
  else if (← scratch.onStack[target]?) = true then
    let nodeIndex := graph.elementIndex node
    if order < (← scratch.lowlink[nodeIndex]?) then
      return ({ scratch with lowlink := scratch.lowlink.set nodeIndex order }, work)
    else return (scratch, work)
  else return (scratch, work)

/-- Pops elements from a stack up to the one with an index, and takes their marks off. -/
def popUntil (graph : TopologyView Id) (rootIndex : Nat) :
    List Id → List Bool → List Id → Option (List Id × List Bool × List Id)
  | [], onStack, component => some ([], onStack, component)
  | popped :: stack, onStack, component => do
    let poppedIndex := graph.elementIndex popped
    let onStack ← store onStack poppedIndex false
    if poppedIndex = rootIndex then return (stack, onStack, component ++ [popped])
    else popUntil graph rootIndex stack onStack (component ++ [popped])

/-- Takes the finished component of a root off the stack. -/
def popComponent (rootIndex : Nat) (scratch : TarjanScratch Id) :
    Option (TarjanScratch Id) := do
  let (stack, onStack, component) ← popUntil graph rootIndex scratch.stack scratch.onStack []
  return { scratch with stack, onStack, components := scratch.components ++ [component] }

/-- Lowers the lowlink of the node of the frame on top to that of a node that was closed. -/
def propagate (nodeIndex : Nat) (scratch : TarjanScratch Id)
    (work : List (Frame Id)) : Option (TarjanScratch Id × List (Frame Id)) :=
  match work with
  | [] => some (scratch, work)
  | parent :: _ => do
    let parentIndex := graph.elementIndex parent.node
    let low ← scratch.lowlink[nodeIndex]?
    if low < (← scratch.lowlink[parentIndex]?) then
      return ({ scratch with lowlink := scratch.lowlink.set parentIndex low }, work)
    else return (scratch, work)

/-- Takes the component of a node that is a root, and hands its lowlink to the frame below. -/
def finish (node : Id) (scratch : TarjanScratch Id)
    (work : List (Frame Id)) : Option (TarjanScratch Id × List (Frame Id)) := do
  let nodeIndex := graph.elementIndex node
  let low ← scratch.lowlink[nodeIndex]?
  let order ← scratch.orderIndex[nodeIndex]?
  if low = order then
    propagate graph nodeIndex (← popComponent graph nodeIndex scratch) work.tail
  else propagate graph nodeIndex scratch work.tail

/-- Passes the next successor of the frame on top, or finishes its node. -/
def expand (member : List Bool) (scratch : TarjanScratch Id)
    (top : Frame Id) (work : List (Frame Id)) : Option (TarjanScratch Id × List (Frame Id)) :=
  match top.successors[top.position]? with
  | some successor =>
    advance graph member top.node successor scratch
      ({ top with position := top.position + 1 } :: work)
  | none => finish graph top.node scratch (top :: work)

/-- Expands the frame on top until the work stack is empty; running out of fuel is `none`. -/
def walk (graph : TopologyView Id) (member : List Bool) :
    Nat → TarjanScratch Id → List (Frame Id) → Option (TarjanScratch Id)
  | 0, _, _ => none
  | _ + 1, scratch, [] => some scratch
  | fuel + 1, scratch, top :: work => do
    let (scratch, work) ← expand graph member scratch top work
    walk graph member fuel scratch work

/--
Walks from a start that is not discovered yet.

Every round closes a node or passes one of its member successors, so that fuel for one more round
than there are of both is enough.
-/
def visit (member : List Bool) (nodes : List Id)
    (scratch : TarjanScratch Id) (start : Id) : Option (TarjanScratch Id) := do
  if (← scratch.orderIndex[graph.elementIndex start]?) = unvisited then
    let rounds := (nodes.map fun node => (memberSuccessors graph member node).length + 1).sum
    let (scratch, work) ← discover graph member start scratch []
    walk graph member (rounds + 1) scratch work
  else return scratch

end Scc

end Oxgraph
