import Oxgraph.Lib.Mutation

/-! Topology views as searches see them, what a search reports, and what is requested of it. -/

namespace Oxgraph

/-- The capabilities of a topology view that searches bind on. -/
structure TopologyView (Id : Type) where
  -- Exclusive upper bound for element indexes: an allocation bound, not a count.
  elementBound : Nat
  -- The dense index of an element.
  elementIndex : Id → Nat
  -- Whether an element is valid and visible.
  containsElement : Id → Bool
  -- Elements along outgoing connections, in the order they are yielded.
  elementSuccessors : Id → List Id
  -- Elements along incoming connections, in the order they are yielded.
  elementPredecessors : Id → List Id

/-- What the view traits ask of every implementation. -/
structure TopologyView.Lawful {Id : Type} (graph : TopologyView Id) : Prop where
  indexed : ∀ {element}, graph.containsElement element = true →
    graph.elementIndex element < graph.elementBound
  distinct : ∀ {left right}, graph.containsElement left = true →
    graph.containsElement right = true → graph.elementIndex left = graph.elementIndex right →
    left = right
  successors : ∀ {element}, graph.containsElement element = true →
    ∀ target ∈ graph.elementSuccessors element, graph.containsElement target = true
  predecessors : ∀ {element}, graph.containsElement element = true →
    ∀ target ∈ graph.elementPredecessors element, graph.containsElement target = true

/-- Direction policy of a search. -/
inductive ExpansionDirection where
  -- Walks outgoing connections.
  | forward
  -- Walks incoming connections.
  | reverse
  deriving DecidableEq, Repr

/-- The elements reached from an element along a direction. -/
def ExpansionDirection.expand {Id : Type} (direction : ExpansionDirection)
    (graph : TopologyView Id) (element : Id) : List Id :=
  match direction with
  | .forward => graph.elementSuccessors element
  | .reverse => graph.elementPredecessors element

/-- Error of a search whose scratch or start cannot support it. -/
inductive BfsError where
  | startElementNotContained
  | visitedTooSmall (needed actual : Nat)
  | queueTooSmall (needed actual : Nat)
  | startIndexOutOfBounds (index bound : Nat)
  | neighborIndexOutOfBounds (index bound : Nat)
  deriving DecidableEq, Repr

/-- A panic of a search. -/
inductive BfsPanic where
  -- An expanded element maps past the bound observed at validation.
  | neighborOob (error : BfsError)
  -- A slice index is out of range.
  | index
  deriving DecidableEq, Repr

-- Requested elements.

variable {Id : Type}

/-- Marks a requested element; one out of bound is ignored. -/
def markMember (graph : TopologyView Id) (member : List Bool) (element : Id) : List Bool :=
  let index := graph.elementIndex element
  if index < graph.elementBound then member.set index true else member

/-- The marks of the requested elements by index. -/
def markMembers (graph : TopologyView Id) (elements : List Id) : List Bool :=
  elements.foldl (markMember graph) (List.replicate graph.elementBound false)

/-- Marks and lists a requested element that is in bound and has not been marked. -/
def collectMember (graph : TopologyView Id) (collected : List Bool × List Id) (element : Id) :
    List Bool × List Id :=
  let index := graph.elementIndex element
  if index < graph.elementBound ∧ collected.1[index]? = some false then
    (collected.1.set index true, collected.2 ++ [element])
  else collected

/-- The marks of the requested elements, and the elements, each where it is requested first. -/
def collectMembers (graph : TopologyView Id) (elements : List Id) : List Bool × List Id :=
  elements.foldl (collectMember graph) (List.replicate graph.elementBound false, [])

/-- Whether an element is in bound and marked; the bound keeps the mark in range. -/
def TopologyView.isMember (graph : TopologyView Id) (member : List Bool) (element : Id) : Bool :=
  let target := graph.elementIndex element
  decide (target < graph.elementBound) && member.getD target false

end Oxgraph
