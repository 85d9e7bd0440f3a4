import Oxgraph.Csr.Build
import Oxgraph.Csr.Graph
import Oxgraph.Proofs.Layout.Arrays
import Oxgraph.Proofs.Layout.Sections

/-! Encoded target lists, and the directed multigraph a caller adds to a graph builder. -/

namespace Oxgraph.Csr

open Layout

variable {N E : Type} [LayoutIndex N] [LayoutIndex E]

/-- Offset and target arrays that encode one list of known targets for each node. -/
structure Encodes (nodeCount : N) (offsets : List E) (targets : List N)
    (rows : List (List Nat)) : Prop where
  count : rows.length = toNat nodeCount
  known : ∀ row ∈ rows, ∀ target ∈ row, target < toNat nodeCount
  -- The offsets are the running lengths of the lists from zero on, and the targets join them.
  flat : Indexed offsets targets rows

namespace CsrGraph

variable (graph : CsrGraph N E)

/-- A node of the view. -/
def Node (node : N) : Prop := toNat node < toNat graph.nodeCount

/-- An edge of the view. -/
def Edge (edge : E) : Prop := toNat edge < graph.targets.length

/-- Every method answers for every node and every edge without a panic, and stays in bounds. -/
structure InBounds : Prop where
  containsElement : ∀ node, graph.traits.containsElement node = true ↔ graph.Node node
  containsRelation : ∀ edge, graph.traits.containsRelation edge = true ↔ graph.Edge edge
  elementIndex : ∀ node, graph.Node node →
    ∃ slot, graph.traits.elementIndex node = some slot ∧ slot < graph.traits.elementBound
  relationIndex : ∀ edge, graph.Edge edge →
    ∃ slot, graph.traits.relationIndex edge = some slot ∧ slot < graph.traits.relationBound
  target : ∀ edge, graph.Edge edge → ∃ node, graph.Node node ∧
    graph.traits.target edge = some node ∧ graph.tryTarget edge = some node
  -- The range of a node lies in the targets, and its edges and successors are those of the range.
  outgoing : ∀ node, graph.Node node → ∃ start stop edges successors,
    graph.outgoingRange (toNat node) = some (start, stop) ∧ start ≤ stop ∧
      stop ≤ graph.targets.length ∧
      graph.traits.outgoingEdges node = some edges ∧ (∀ edge ∈ edges, graph.Edge edge) ∧
      edges.map toNat = List.range' start (stop - start) ∧
      graph.traits.outDegree node = some edges.length ∧
      graph.traits.elementSuccessors node = some successors ∧
      (∀ successor ∈ successors, graph.Node successor) ∧
      successors.map some = edges.map graph.traits.target ∧
      ∀ {S : Type} (visit : S → N → Bool × S) (state : S),
        graph.forEachOutTarget node visit state = some (visitUntil visit state successors)

end CsrGraph

end Oxgraph.Csr

-- The multigraph that is added, the answers it defines, and its converse.

namespace Oxgraph.Csr

open Layout Container

/-- One call of a builder; the unweighted builder ignores the weights. -/
inductive Addition (N EW RW : Type) where
  | node (weight : EW)
  | edge (source target : N) (weight : RW)

section

variable {N E EW RW : Type} [LayoutIndex N] [LayoutIndex E]

/-- Makes one call of the unweighted builder, and forgets the ID it returns. -/
def GraphBuilder.add (builder : GraphBuilder N E) :
    Addition N EW RW → Fallible (GraphBuildError N E) (GraphBuilder N E)
  | .node _ => do
    let (_, next) ← builder.addNode
    return next
  | .edge source target _ => do
    let (_, next) ← builder.addEdge source target
    return next

/-- Makes one call of the weighted builder, and forgets the ID it returns. -/
def WeightedGraphBuilder.add (builder : WeightedGraphBuilder N E EW RW) :
    Addition N EW RW → Fallible (GraphBuildError N E) (WeightedGraphBuilder N E EW RW)
  | .node weight => do
    let (_, next) ← builder.addNode weight
    return next
  | .edge source target weight => do
    let (_, next) ← builder.addEdge source target weight
    return next

end

/-- A directed multigraph, its nodes and its edges numbered in the order they were added. -/
structure Digraph where
  nodeCount : Nat
  -- The source and the target of each edge.
  edges : List (Nat × Nat)
  known : ∀ edge ∈ edges, edge.1 < nodeCount ∧ edge.2 < nodeCount

namespace Digraph

/-- Nothing yet. -/
def empty : Digraph := { nodeCount := 0, edges := [], known := by simp }

/-- One node more. -/
def withNode (graph : Digraph) : Digraph where
  nodeCount := graph.nodeCount + 1
  edges := graph.edges
  known edge member := by
    have before := graph.known edge member
    omega

/-- One edge more. -/
def withEdge (graph : Digraph) (source target : Nat)
    (known : source < graph.nodeCount ∧ target < graph.nodeCount) : Digraph where
  nodeCount := graph.nodeCount
  edges := graph.edges ++ [(source, target)]
  known edge member := by
    rcases List.mem_append.mp member with before | last
    · exact graph.known edge before
    · rw [List.mem_singleton.mp last]
      exact known

/--
What one addition leaves.

A node and an edge need an ID each, and an edge needs two known nodes; else nothing is added.
-/
def apply (N E : Type) [LayoutIndex N] [LayoutIndex E] {EW RW : Type} (graph : Digraph) :
    Addition N EW RW → Digraph
  | .node _ =>
    if graph.nodeCount < LayoutIndex.bound N ∧ graph.nodeCount + 1 < usizeBound then
      graph.withNode
    else graph
  | .edge source target _ =>
    if known : toNat source < graph.nodeCount ∧ toNat target < graph.nodeCount then
      if graph.edges.length < LayoutIndex.bound E then
        graph.withEdge (toNat source) (toNat target) known
      else graph
    else graph

/-- What a sequence of additions leaves. -/
def all (N E : Type) [LayoutIndex N] [LayoutIndex E] {EW RW : Type}
    (additions : List (Addition N EW RW)) : Digraph :=
  additions.foldl (apply N E) empty

variable (graph : Digraph)

/-- The source of an edge. -/
def source (edge : Nat) : Option Nat := (graph.edges[edge]?).map Prod.fst

/-- The target of an edge. -/
def target (edge : Nat) : Option Nat := (graph.edges[edge]?).map Prod.snd

/-- The edges with a source, in the order they were added. -/
def outgoing (node : Nat) : List Nat :=
  (List.range graph.edges.length).filter fun edge => graph.source edge = some node

/--
Every method answers, for every valid ID, what the multigraph defines.

The traits number the edges in their own way, and a list holds the edge that each number is.
-/
structure AnsweredBy {N E : Type} [LayoutIndex N] [LayoutIndex E] (numbering : List Nat)
    (traits : GraphTraits N E) : Prop where
  permutes : numbering.Perm (List.range graph.edges.length)
  elementCount : traits.elementCount = graph.nodeCount
  relationCount : traits.relationCount = graph.edges.length
  elementBound : traits.elementBound = graph.nodeCount
  relationBound : traits.relationBound = graph.edges.length
  elementIndex : ∀ node, toNat node < graph.nodeCount →
    traits.elementIndex node = some (toNat node)
  relationIndex : ∀ edge, toNat edge < graph.edges.length →
    traits.relationIndex edge = some (toNat edge)
  containsElement : ∀ node, traits.containsElement node = decide (toNat node < graph.nodeCount)
  containsRelation : ∀ edge,
    traits.containsRelation edge = decide (toNat edge < graph.edges.length)
  target : ∀ edge, toNat edge < graph.edges.length →
    (traits.target edge).map toNat = (numbering[toNat edge]?).bind graph.target
  outgoingEdges : ∀ node, toNat node < graph.nodeCount →
    (traits.outgoingEdges node).map (·.map fun edge => numbering[toNat edge]?) =
      some ((graph.outgoing (toNat node)).map some)
  outDegree : ∀ node, toNat node < graph.nodeCount →
    traits.outDegree node = some (graph.outgoing (toNat node)).length
  elementSuccessors : ∀ node, toNat node < graph.nodeCount →
    (traits.elementSuccessors node).map (·.map fun successor => some (toNat successor)) =
      some ((graph.outgoing (toNat node)).map graph.target)
  -- An edge is listed for the node that is its source, and for no other.
  owner : ∀ node edges, toNat node < graph.nodeCount → traits.outgoingEdges node = some edges →
    ∀ edge, edge ∈ edges ↔ (numbering[toNat edge]?).bind graph.source = some (toNat node)

section

variable {N E G : Type}

/-- What freezing a builder that holds the multigraph returns, and the view that it lends. -/
structure FreezesAs [LayoutIndex N] [LayoutIndex E] (freeze : Fallible (GraphBuildError N E) G)
    (topology : G → FrozenTopology N E) : Prop where
  -- Only when memory cannot hold the counts of the nodes' edges, or IDs that the width has.
  panics : freeze = ExceptT.mk none ↔ sliceBound usizeBytes < graph.nodeCount + 1 ∨
    graph.edges.length < LayoutIndex.bound E ∧
      sliceBound (LayoutIndex.bytes E) < graph.edges.length
  returns : graph.nodeCount + 1 ≤ sliceBound usizeBytes →
    graph.edges.length ≤ sliceBound (LayoutIndex.bytes E) →
      ((∃ frozen, freeze = pure frozen) ↔ graph.edges.length < LayoutIndex.bound E)
  answers : ∀ frozen, freeze = pure frozen →
    graph.AnsweredBy (List.range graph.edges.length) (topology frozen).traits
  sources : ∀ frozen, freeze = pure frozen → ∀ edge, toNat edge < graph.edges.length →
    ((topology frozen).source edge).map toNat = graph.source (toNat edge)
  lends : ∀ frozen, freeze = pure frozen →
    ((∃ view, (topology frozen).asView = .ok view) ↔ graph.nodeCount < LayoutIndex.bound N)
  viewed : ∀ frozen view, freeze = pure frozen → (topology frozen).asView = .ok view →
    graph.AnsweredBy ((topology frozen).edgeIds.map toNat) view.traits

/-- What an export of a frozen topology reopens as. -/
structure ReopensAs [SnapshotWidth N] [SnapshotWidth E] (checksum : Checksum32)
    (exported : Except (GraphBuildError N E) Bytes) (topology : FrozenTopology N E) : Prop where
  exports : tableEnd 2 + (arrayBytes topology.offsets).length +
    (arrayBytes topology.targets).length < usizeBound → ∃ bytes, exported = .ok bytes
  reopens : ∀ bytes, exported = .ok bytes → ∃ snapshot,
    Container.Snapshot.openBytes bytes = .ok snapshot ∧
      Container.Snapshot.openChecked bytes checksum = .ok snapshot ∧
      ((∃ view : CsrGraph N E, fromSnapshot snapshot = pure view) ↔
        graph.nodeCount < LayoutIndex.bound N) ∧
      ∀ view : CsrGraph N E, fromSnapshot snapshot = pure view →
        graph.AnsweredBy (topology.edgeIds.map toNat) view.traits

end

end Digraph

-- Transposing.

section

variable {N E : Type} [LayoutIndex N] [LayoutIndex E]

/-- A graph that a builder froze, or that transposing such a graph returned. -/
inductive FrozenGraph.Made : FrozenGraph N E → Prop
  | frozen {additions : List (Addition N Unit Unit)} {builder : GraphBuilder N E}
    {graph : FrozenGraph N E} (ran : Fallible.runAll GraphBuilder.add additions .new = some builder)
    (built : builder.freeze = pure graph) : graph.Made
  | transposed {graph transposed : FrozenGraph N E} (made : graph.Made)
    (turned : graph.transpose = pure transposed) : transposed.Made

/-- A graph answers as another does with the ends of every edge exchanged. -/
structure FrozenGraph.Turns (graph turned : FrozenGraph N E) : Prop where
  nodeCount : turned.topology.nodeCount = graph.topology.nodeCount
  -- The edges out of a node are those that went into it, in canonical order.
  outgoing : ∀ node, toNat node < graph.topology.nodeCount → ∃ edges successors,
    turned.topology.outgoingEdges node = some edges ∧
      (edges.map toNat).Pairwise (· < ·) ∧
      (∀ edge, edge ∈ edges ↔ graph.topology.target edge = some node) ∧
      turned.topology.elementSuccessors node = some successors ∧
      successors.map some = edges.map graph.topology.source
  source : ∀ edge, turned.topology.source edge = graph.topology.target edge
  target : ∀ edge, turned.topology.target edge = graph.topology.source edge

end

end Oxgraph.Csr
