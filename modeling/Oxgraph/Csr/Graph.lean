import Oxgraph.Layout.Arrays

/-! The borrowed compressed-sparse-row graph: its validation, its traversal, and its snapshots. -/

namespace Oxgraph.Csr

open Layout Container

export LayoutIndex (toNat)

/-- Errors of validating a compressed-sparse-row view. -/
inductive CsrError (N E : Type) where
  | offsetLengthOverflow (nodeCount : N)
  | offsetLength (expected actual : Nat)
  | firstOffset (actual : E)
  | nonMonotonicOffset (index : Nat) (previous actual : E)
  | finalOffset (finalOffset : E) (targetLen : Nat)
  | targetOutOfRange (index : Nat) (target nodeCount : N)
  | targetUsizeOverflow (index : Nat) (value : N)
  | nodeUsizeOverflow (value : N)
  | edgeUsizeOverflow (value : E)
  deriving DecidableEq

/-- Errors of opening a graph from a snapshot. -/
inductive CsrSnapshotError (N E : Type) where
  | missingOffsets
  | missingTargets
  | offsetsVersion (kind expected actual : UInt32)
  | targetsVersion (kind expected actual : UInt32)
  | offsetsView (error : SectionViewError)
  | targetsView (error : SectionViewError)
  | offsetsEmpty
  | nodeCountOverflow (offsetsLen : Nat)
  | csr (error : CsrError N E)

/-- Borrowed compressed-sparse-row graph view. -/
structure CsrGraph (N E : Type) where
  nodeCount : N
  -- The node count as a slot bound.
  nodeBound : Nat
  offsets : List E
  targets : List N
  deriving DecidableEq

/-- The methods of the graph traits; no answer is a panic, and iterators run to their ends. -/
structure GraphTraits (N E : Type) where
  elementCount : Nat
  relationCount : Nat
  elementBound : Nat
  relationBound : Nat
  elementIndex : N → Option Nat
  relationIndex : E → Option Nat
  containsElement : N → Bool
  containsRelation : E → Bool
  target : E → Option N
  outgoingEdges : N → Option (List E)
  outDegree : N → Option Nat
  elementSuccessors : N → Option (List N)

section

variable {N E : Type} [LayoutIndex N] [LayoutIndex E]

-- Validation.

/-- Maps an offset issue into an error, reading the offending words again. -/
def mapOffsetsIssue (offsets : List E) : OffsetIntegrityIssue → Option (CsrError N E)
  | .length expected actual => some (.offsetLength expected actual)
  | .firstNonZero _ => do
    let actual ← offsets[0]?
    return .firstOffset actual
  | .nonMonotonic index _ _ => do
    let previousIndex ← subOrPanic index 1
    let previous ← offsets[previousIndex]?
    let actual ← offsets[index]?
    return .nonMonotonicOffset index previous actual
  | .finalMismatch _ valueLen => do
    let finalIndex ← subOrPanic offsets.length 1
    let finalOffset ← offsets[finalIndex]?
    return .finalOffset finalOffset valueLen
  | .usizeOverflow index => do
    let value ← offsets[index]?
    return .edgeUsizeOverflow value
  | _ => some (.edgeUsizeOverflow (LayoutIndex.ofNat 0))

/-- Maps a target issue into an error, reading the offending word again. -/
def mapTargetsIssue (targets : List N) (nodeCount : N) :
    OffsetIntegrityIssue → Option (CsrError N E)
  | .valueOutOfRange index _ _ => do
    let target ← targets[index]?
    return .targetOutOfRange index target nodeCount
  | .usizeOverflow index => do
    let value ← targets[index]?
    return .targetUsizeOverflow index value
  | _ => some (.targetOutOfRange 0 (LayoutIndex.ofNat 0) nodeCount)

namespace CsrGraph

/-- Validates borrowed sections and returns a view. -/
def validate (nodeCount : N) (offsets : List E) (targets : List N) :
    Fallible (CsrError N E) (CsrGraph N E) :=
  match toUsize nodeCount with
  | none => throw (.nodeUsizeOverflow nodeCount)
  | some nodeBound =>
    match checkedAdd nodeBound 1 with
    | none => throw (.offsetLengthOverflow nodeCount)
    | some _ => do
      (checkOffsetSection offsets nodeBound targets.length).adaptOrPanic (mapOffsetsIssue offsets)
      (Fallible.ofResult (checkValueRange targets nodeBound)).adaptOrPanic
        (mapTargetsIssue targets nodeCount)
      return { nodeCount, nodeBound, offsets, targets }

/-- A view over parts that are known to be valid. -/
def fromValidatedParts (nodeCount : N) (nodeBound : Nat) (offsets : List E) (targets : List N) :
    CsrGraph N E :=
  { nodeCount, nodeBound, offsets, targets }

-- Traversal.

variable (graph : CsrGraph N E)

/-- The slot of a node of this view. -/
def tryNodeSlot (node : N) : Option Nat := do
  let slot ← toUsize node
  if toNat node < toNat graph.nodeCount ∧ slot < graph.nodeBound then some slot else none

/-- The slot of an edge of this view. -/
def tryEdgeSlot (edge : E) : Option Nat := do
  let slot ← toUsize edge
  if slot < graph.targets.length then some slot else none

/-- The slot of a node, or a panic. -/
def checkedNodeSlot (node : N) : Option Nat := graph.tryNodeSlot node

/-- The slot of an edge, or a panic. -/
def checkedEdgeSlot (edge : E) : Option Nat := graph.tryEdgeSlot edge

/-- The first position of a node's edges, and one past the last. -/
def outgoingRange (slot : Nat) : Option (Nat × Nat) := do
  let first ← graph.offsets[slot]?
  let start ← indexToUsizeValidated first
  let last ← graph.offsets[slot + 1]?
  let stop ← indexToUsizeValidated last
  return (start, stop)

/-- The edge at each position of a range. -/
def outEdges (start stop : Nat) : Option (List E) := do
  let remaining ← subOrPanic stop start
  (List.range' start remaining).mapM usizeToIndexValidated

/-- The target of an edge, if there is such an edge. -/
def tryTarget (edge : E) : Option N := do
  let slot ← graph.tryEdgeSlot edge
  graph.targets[slot]?

/-- The target of an edge. -/
def target (edge : E) : Option N := do
  let slot ← graph.checkedEdgeSlot edge
  graph.targets[slot]?

/-- The outgoing edges of a node, which are positions among the targets. -/
def outgoingEdges (node : N) : Option (List E) := do
  let slot ← graph.checkedNodeSlot node
  let (start, stop) ← graph.outgoingRange slot
  outEdges start stop

/-- The number of outgoing edges of a node. -/
def outDegree (node : N) : Option Nat := do
  let slot ← graph.checkedNodeSlot node
  let (start, stop) ← graph.outgoingRange slot
  subOrPanic stop start

/-- The targets of a node's outgoing edges. -/
def elementSuccessors (node : N) : Option (List N) := do
  let slot ← graph.checkedNodeSlot node
  let (start, stop) ← graph.outgoingRange slot
  sliceOf graph.targets start stop

/-- Visits words in order until the visitor, which changes its own state, stops it. -/
def visitUntil {S : Type} (visit : S → N → Bool × S) (state : S) : List N → Bool × S
  | [] => (false, state)
  | target :: rest =>
    match visit state target with
    | (true, state) => (true, state)
    | (false, state) => visitUntil visit state rest

/-- Visits the targets of a node's outgoing edges; whether the visitor stopped it. -/
def forEachOutTarget {S : Type} (source : N) (visit : S → N → Bool × S) (state : S) :
    Option (Bool × S) :=
  match graph.tryNodeSlot source with
  | none => some (false, state)
  | some _ =>
    match toUsize source with
    | none => some (false, state)
    | some index => do
      let first ← graph.offsets[index]?
      match toUsize first with
      | none => some (false, state)
      | some start => do
        let last ← graph.offsets[index + 1]?
        match toUsize last with
        | none => some (false, state)
        | some stop => do
          let row ← sliceOf graph.targets start stop
          return visitUntil visit state row

/-- The trait methods of the view. -/
def traits : GraphTraits N E where
  elementCount := graph.nodeBound
  relationCount := graph.targets.length
  elementBound := graph.nodeBound
  relationBound := graph.targets.length
  elementIndex := graph.checkedNodeSlot
  relationIndex := graph.checkedEdgeSlot
  containsElement node := (graph.tryNodeSlot node).isSome
  containsRelation edge := (graph.tryEdgeSlot edge).isSome
  target := graph.target
  outgoingEdges := graph.outgoingEdges
  outDegree := graph.outDegree
  elementSuccessors := graph.elementSuccessors

end CsrGraph

end

-- Snapshots.

/-- The kind base of the offsets section. -/
def offsetsBase : UInt32 := 0x4

/-- The kind base of the targets section. -/
def targetsBase : UInt32 := 0x8

/-- The kind of the offsets section at an edge width. -/
def offsetsKind (E : Type) [SnapshotWidth E] : UInt32 := offsetsBase ||| SnapshotWidth.widthCode E

/-- The kind of the targets section at a node width. -/
def targetsKind (N : Type) [SnapshotWidth N] : UInt32 := targetsBase ||| SnapshotWidth.widthCode N

/-- The version of both sections. -/
def sectionVersion : UInt32 := 1

section

variable {N E : Type} [SnapshotWidth N] [SnapshotWidth E]

/-- Maps a bind error of the offsets section. -/
def mapOffsetsBind (kind : UInt32) : SectionBindError → CsrSnapshotError N E
  | .missing _ => .missingOffsets
  | .versionMismatch _ expected actual => .offsetsVersion kind expected actual
  | .view _ error => .offsetsView error

/-- Maps a bind error of the targets section. -/
def mapTargetsBind (kind : UInt32) : SectionBindError → CsrSnapshotError N E
  | .missing _ => .missingTargets
  | .versionMismatch _ expected actual => .targetsVersion kind expected actual
  | .view _ error => .targetsView error

/-- Opens a view over the sections of the given kinds. -/
def fromSnapshotWithKinds (snapshot : Container.Snapshot)
    (offsetsKind targetsKind version : UInt32) :
    Fallible (CsrSnapshotError N E) (CsrGraph N E) := do
  let offsets ← .ofResult
    ((typedWords E snapshot offsetsKind version).mapError (mapOffsetsBind offsetsKind))
  let targets ← .ofResult
    ((typedWords N snapshot targetsKind version).mapError (mapTargetsBind targetsKind))
  if offsets.isEmpty then throw .offsetsEmpty
  else
    let nodeCount := offsets.length - 1
    match fromUsize nodeCount with
    | none => throw (.nodeCountOverflow offsets.length)
    | some nodeCount => (CsrGraph.validate nodeCount offsets targets).adapt .csr

/-- Opens a view over the sections of its widths. -/
def fromSnapshot (snapshot : Container.Snapshot) :
    Fallible (CsrSnapshotError N E) (CsrGraph N E) :=
  fromSnapshotWithKinds snapshot (offsetsKind E) (targetsKind N) sectionVersion

end

end Oxgraph.Csr
