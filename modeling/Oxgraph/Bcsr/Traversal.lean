import Oxgraph.Bcsr.Validation

/-! The borrowed hypergraph view, and its traversal methods, which panic on a failed narrowing. -/

namespace Oxgraph.Bcsr

open Layout

/-- Borrowed bipartite-CSR hypergraph view. -/
structure BcsrHypergraph (V R O : Type) where
  counts : DerivedCounts
  sections : BcsrSections V R O

/-- Which side of its hyperedge an incidence is on. -/
inductive BcsrRole where
  | head
  | tail
  deriving DecidableEq

/-- The methods of the hypergraph traits; no answer is a panic, and iterators run to their ends. -/
structure HyperTraits (V R O Role : Type) where
  elementCount : Nat
  relationCount : Nat
  incidenceCount : Nat
  elementBound : Nat
  relationBound : Nat
  incidenceBound : Nat
  elementIndex : V → Option Nat
  relationIndex : R → Option Nat
  incidenceIndex : O → Option Nat
  containsElement : V → Option Bool
  containsRelation : R → Option Bool
  containsIncidence : O → Option Bool
  incidenceElement : O → Option V
  incidenceRelation : O → Option R
  incidenceRole : O → Option Role
  sourceIncidences : R → Option (List O)
  targetIncidences : R → Option (List O)
  relationIncidences : R → Option (List O)
  relationIncidenceCount : R → Option Nat
  elementIncidences : V → Option (List O)
  elementIncidenceCount : V → Option Nat
  sourceParticipants : R → Option (List V)
  targetParticipants : R → Option (List V)
  hyperedgeParticipants : R → Option (List V)
  outgoingHyperedges : V → Option (List R)
  incomingHyperedges : V → Option (List R)
  incidentHyperedges : V → Option (List R)
  elementSuccessors : V → Option (List V)
  elementPredecessors : V → Option (List V)

/-- The same answers, with sides named differently. -/
def HyperTraits.mapRole {V R O Role Name : Type} (traits : HyperTraits V R O Role)
    (rename : Role → Name) : HyperTraits V R O Name :=
  { traits with incidenceRole := fun incidence => (traits.incidenceRole incidence).map rename }

section

variable {I J : Type} [LayoutIndex I] [LayoutIndex J]

/-- The offset at a position. -/
def offsetAt (offsets : List I) (index : Nat) : Option Nat := do
  let word ← offsets[index]?
  indexToUsizeValidated word

/-- The values between the offset at a position and the next. -/
def vertexBucket (offsets : List I) (values : List J) (index : Nat) : Option (List J) := do
  let start ← offsetAt offsets index
  let stop ← offsetAt offsets (index + 1)
  sliceOf values start stop

/-- The number of values between the offset at a position and the next. -/
def bucketSize (offsets : List I) (index : Nat) : Option Nat := do
  let stop ← offsetAt offsets (index + 1)
  let start ← offsetAt offsets index
  subOrPanic stop start

/-- Halves the range of offsets until one bucket is left. -/
def locateFrom (offsets : List I) (target : Nat) : Nat → Nat → Nat → Option Nat
  | 0, _, _ => none
  | fuel + 1, low, high =>
    if low + 1 < high then do
      let middle := low + (high - low) / 2
      let offset ← offsetAt offsets middle
      if offset ≤ target then locateFrom offsets target fuel middle high
      else locateFrom offsets target fuel low middle
    else some low

/-- The bucket that owns a position of the values. -/
def locateOwningBucket (offsets : List I) (target : Nat) : Option J := do
  let high ← subOrPanic offsets.length 1
  let low ← locateFrom offsets target offsets.length 0 high
  usizeToIndexValidated low

/-- Position of a vertex among a hyperedge's participants, when it is one of them. -/
def locateInBucket (offsets : List I) (participants : List J) (hyperedge vertex : Nat) :
    Option (Option Nat) := do
  let bucketStart ← offsetAt offsets hyperedge
  let bucketEnd ← offsetAt offsets (hyperedge + 1)
  let bucket ← sliceOf participants bucketStart bucketEnd
  match binarySearchBy bucket fun word => compare (toNat word) vertex with
  | none => return none
  | some found => return checkedAdd bucketStart found

/-- Walks of the incidences of a hyperedge on one side, numbered from a base. -/
structure BcsrParticipantSlice where
  cursor : Nat
  stop : Nat
  base : Nat

/-- The incidences from a cursor on, for as many positions as remain. -/
def participantsFrom (base : Nat) : Nat → Nat → Option (List I)
  | _, 0 => some []
  | cursor, remaining + 1 =>
    match checkedAdd base cursor with
    | none => some []
    | some id => do
      let incidence ← usizeToIndexValidated id
      let rest ← participantsFrom base (cursor + 1) remaining
      return incidence :: rest

/-- Runs a walk of incidences to its end. -/
def BcsrParticipantSlice.run (slice : BcsrParticipantSlice) : Option (List I) :=
  participantsFrom slice.base slice.cursor (slice.stop - slice.cursor)

/-- Which end of a walk the next incidence is asked of. -/
inductive SliceEnd where
  | front
  | back
  deriving DecidableEq

namespace BcsrParticipantSlice

/-- The next incidence from the front, if any is left, and the walk after it. -/
def next (slice : BcsrParticipantSlice) : Option (Option I × BcsrParticipantSlice) :=
  if slice.cursor = slice.stop then some (none, slice)
  else
    match checkedAdd slice.base slice.cursor with
    | none => some (none, slice)
    | some id => do
      let incidence ← usizeToIndexValidated id
      return (some incidence, { slice with cursor := slice.cursor + 1 })

/-- The next incidence from the back, if any is left, and the walk after it. -/
def nextBack (slice : BcsrParticipantSlice) : Option (Option I × BcsrParticipantSlice) :=
  if slice.cursor = slice.stop then some (none, slice)
  else do
    let stop ← subOrPanic slice.stop 1
    match checkedAdd slice.base stop with
    | none => return (none, { slice with stop })
    | some id => do
      let incidence ← usizeToIndexValidated id
      return (some incidence, { slice with stop })

/-- The next incidence from an end. -/
def nextAt : SliceEnd → BcsrParticipantSlice → Option (Option I × BcsrParticipantSlice)
  | .front => next
  | .back => nextBack

/-- Asks for incidences from one end after the other. -/
def mixture : List SliceEnd → BcsrParticipantSlice →
    Option (List (Option I) × BcsrParticipantSlice)
  | [], slice => some ([], slice)
  | side :: sides, slice => do
    let (answer, rest) ← nextAt side slice
    let (answers, rest) ← mixture sides rest
    return (answer :: answers, rest)

/-- Asks one end until nothing is left, for as many turns as the fuel allows. -/
def drain (side : SliceEnd) : Nat → BcsrParticipantSlice → Option (List I)
  | 0, _ => none
  | fuel + 1, slice => do
    let (answer, rest) ← nextAt side slice
    match answer with
    | none => return []
    | some incidence => do
      let others ← drain side fuel rest
      return incidence :: others

end BcsrParticipantSlice

/-- The walk over one side of a hyperedge. -/
def participantSlice (offsets : List I) (hyperedge base : Nat) : Option BcsrParticipantSlice := do
  let start ← offsetAt offsets hyperedge
  let stop ← offsetAt offsets (hyperedge + 1)
  return { cursor := start, stop, base }

end

section

variable {V R O : Type} [LayoutIndex V] [LayoutIndex R] [LayoutIndex O]

/-- The incidences of a vertex in hyperedges that list it, each shifted into its block. -/
def pull (vertex : Nat) (offsets : List O) (participants : List V) (shift : Nat → Option Nat) :
    List R → Option (List O)
  | [] => some []
  | word :: rest => do
    let hyperedge ← indexToUsizeValidated word
    let located ← locateInBucket offsets participants hyperedge vertex
    match located with
    | none => pull vertex offsets participants shift rest
    | some position =>
      match shift position with
      | none => some []
      | some id => do
        let incidence ← usizeToIndexValidated id
        let others ← pull vertex offsets participants shift rest
        return incidence :: others

/-- The participants of every hyperedge in a list, one hyperedge after the other. -/
def neighborVertices (offsets : List O) (participants : List V) : List R → Option (List V)
  | [] => some []
  | word :: rest => do
    let hyperedge ← indexToUsizeValidated word
    let bucket ← vertexBucket offsets participants hyperedge
    let others ← neighborVertices offsets participants rest
    return bucket ++ others

namespace BcsrHypergraph

/-- Opens a view over sections that pass validation at a level. -/
def openWith (sections : BcsrSections V R O) (level : BcsrValidation) :
    Fallible BcsrError (BcsrHypergraph V R O) := do
  let counts ← validateSections sections level
  return { counts, sections }

/-- A view over sections already known to be valid. -/
def fromValidatedSections (sections : BcsrSections V R O) : BcsrHypergraph V R O :=
  let pOutgoing := sections.vertexOutgoingHyperedges.length
  let pIncoming := sections.vertexIncomingHyperedges.length
  { counts :=
      { vertexCount := sections.vertexOutgoingOffsets.length - 1
        hyperedgeCount := sections.headOffsets.length - 1
        pOutgoing
        pIncoming
        totalIncidences := min (pOutgoing + pIncoming) (usizeBound - 1) }
    sections }

variable (view : BcsrHypergraph V R O)

-- Counts and dense indices.

def elementCount : Nat := view.counts.vertexCount
def relationCount : Nat := view.counts.hyperedgeCount
def incidenceCount : Nat := view.counts.totalIncidences
def elementBound : Nat := view.counts.vertexCount
def relationBound : Nat := view.counts.hyperedgeCount
def incidenceBound : Nat := view.counts.totalIncidences
def elementIndex (_view : BcsrHypergraph V R O) (element : V) : Option Nat :=
  indexToUsizeValidated element
def relationIndex (_view : BcsrHypergraph V R O) (relation : R) : Option Nat :=
  indexToUsizeValidated relation
def incidenceIndex (_view : BcsrHypergraph V R O) (incidence : O) : Option Nat :=
  indexToUsizeValidated incidence

/-- Whether a vertex is one of the view's. -/
def containsElement (element : V) : Option Bool := do
  let slot ← indexToUsizeValidated element
  return decide (slot < view.counts.vertexCount)

/-- Whether a hyperedge is one of the view's. -/
def containsRelation (relation : R) : Option Bool := do
  let slot ← indexToUsizeValidated relation
  return decide (slot < view.counts.hyperedgeCount)

/-- Whether an incidence is one of the view's. -/
def containsIncidence (incidence : O) : Option Bool := do
  let slot ← indexToUsizeValidated incidence
  return decide (slot < view.counts.totalIncidences)

-- Incidences.

/-- The vertex of an incidence. -/
def incidenceElement (incidence : O) : Option V := do
  let index ← indexToUsizeValidated incidence
  if index < view.counts.pOutgoing then view.sections.headParticipants[index]?
  else view.sections.tailParticipants[index - view.counts.pOutgoing]?

/-- The hyperedge of an incidence. -/
def incidenceRelation (incidence : O) : Option R := do
  let index ← indexToUsizeValidated incidence
  if index < view.counts.pOutgoing then locateOwningBucket view.sections.headOffsets index
  else locateOwningBucket view.sections.tailOffsets (index - view.counts.pOutgoing)

/-- The side of an incidence. -/
def incidenceRole (incidence : O) : Option BcsrRole := do
  let index ← indexToUsizeValidated incidence
  return if index < view.counts.pOutgoing then .head else .tail

/-- The head incidences of a hyperedge. -/
def sourceIncidences (hyperedge : R) : Option (List O) := do
  let index ← indexToUsizeValidated hyperedge
  let slice ← participantSlice view.sections.headOffsets index 0
  slice.run

/-- The tail incidences of a hyperedge. -/
def targetIncidences (hyperedge : R) : Option (List O) := do
  let index ← indexToUsizeValidated hyperedge
  let slice ← participantSlice view.sections.tailOffsets index view.counts.pOutgoing
  slice.run

/-- The walk over the head incidences of a hyperedge. -/
def sourceSlice (hyperedge : R) : Option BcsrParticipantSlice := do
  let index ← indexToUsizeValidated hyperedge
  participantSlice view.sections.headOffsets index 0

/-- The walk over the tail incidences of a hyperedge. -/
def targetSlice (hyperedge : R) : Option BcsrParticipantSlice := do
  let index ← indexToUsizeValidated hyperedge
  participantSlice view.sections.tailOffsets index view.counts.pOutgoing

/-- The incidences of a hyperedge, head side first. -/
def relationIncidences (relation : R) : Option (List O) := do
  let index ← indexToUsizeValidated relation
  let heads ← participantSlice view.sections.headOffsets index 0
  let tails ← participantSlice view.sections.tailOffsets index view.counts.pOutgoing
  let first ← heads.run
  let second ← tails.run
  return first ++ second

/-- The incidences of a vertex, outgoing side first. -/
def elementIncidences (element : V) : Option (List O) := do
  let sections := view.sections
  let index ← indexToUsizeValidated element
  let outgoing ← vertexBucket sections.vertexOutgoingOffsets sections.vertexOutgoingHyperedges index
  let incoming ← vertexBucket sections.vertexIncomingOffsets sections.vertexIncomingHyperedges index
  let first ← pull index sections.headOffsets sections.headParticipants some outgoing
  let second ← pull index sections.tailOffsets sections.tailParticipants
    (checkedAdd view.counts.pOutgoing) incoming
  return first ++ second

/-- The number of incidences of a hyperedge. -/
def relationIncidenceCount (relation : R) : Option Nat := do
  let index ← indexToUsizeValidated relation
  let headSize ← bucketSize view.sections.headOffsets index
  let tailSize ← bucketSize view.sections.tailOffsets index
  checkedAdd headSize tailSize

/-- The number of incidences of a vertex. -/
def elementIncidenceCount (element : V) : Option Nat := do
  let index ← indexToUsizeValidated element
  let outSize ← bucketSize view.sections.vertexOutgoingOffsets index
  let inSize ← bucketSize view.sections.vertexIncomingOffsets index
  checkedAdd outSize inSize

-- Participants and hyperedges.

/-- The head vertices of a hyperedge. -/
def sourceParticipants (hyperedge : R) : Option (List V) := do
  let index ← indexToUsizeValidated hyperedge
  vertexBucket view.sections.headOffsets view.sections.headParticipants index

/-- The tail vertices of a hyperedge. -/
def targetParticipants (hyperedge : R) : Option (List V) := do
  let index ← indexToUsizeValidated hyperedge
  vertexBucket view.sections.tailOffsets view.sections.tailParticipants index

/-- The vertices of a hyperedge, head side first. -/
def hyperedgeParticipants (hyperedge : R) : Option (List V) := do
  let index ← indexToUsizeValidated hyperedge
  let head ← vertexBucket view.sections.headOffsets view.sections.headParticipants index
  let tail ← vertexBucket view.sections.tailOffsets view.sections.tailParticipants index
  return head ++ tail

/-- The hyperedges a vertex is a head of. -/
def outgoingHyperedges (vertex : V) : Option (List R) := do
  let index ← indexToUsizeValidated vertex
  vertexBucket view.sections.vertexOutgoingOffsets view.sections.vertexOutgoingHyperedges index

/-- The hyperedges a vertex is a tail of. -/
def incomingHyperedges (vertex : V) : Option (List R) := do
  let index ← indexToUsizeValidated vertex
  vertexBucket view.sections.vertexIncomingOffsets view.sections.vertexIncomingHyperedges index

/-- The hyperedges of a vertex, outgoing side first. -/
def incidentHyperedges (vertex : V) : Option (List R) := do
  let sections := view.sections
  let index ← indexToUsizeValidated vertex
  let outgoing ← vertexBucket sections.vertexOutgoingOffsets sections.vertexOutgoingHyperedges index
  let incoming ← vertexBucket sections.vertexIncomingOffsets sections.vertexIncomingHyperedges index
  return outgoing ++ incoming

/-- The tail vertices of the hyperedges a vertex is a head of. -/
def elementSuccessors (vertex : V) : Option (List V) := do
  let outgoing ← view.outgoingHyperedges vertex
  neighborVertices view.sections.tailOffsets view.sections.tailParticipants outgoing

/-- The head vertices of the hyperedges a vertex is a tail of. -/
def elementPredecessors (vertex : V) : Option (List V) := do
  let incoming ← view.incomingHyperedges vertex
  neighborVertices view.sections.headOffsets view.sections.headParticipants incoming

/-- The trait methods of the view. -/
def traits : HyperTraits V R O BcsrRole where
  elementCount := view.elementCount
  relationCount := view.relationCount
  incidenceCount := view.incidenceCount
  elementBound := view.elementBound
  relationBound := view.relationBound
  incidenceBound := view.incidenceBound
  elementIndex := view.elementIndex
  relationIndex := view.relationIndex
  incidenceIndex := view.incidenceIndex
  containsElement := view.containsElement
  containsRelation := view.containsRelation
  containsIncidence := view.containsIncidence
  incidenceElement := view.incidenceElement
  incidenceRelation := view.incidenceRelation
  incidenceRole := view.incidenceRole
  sourceIncidences := view.sourceIncidences
  targetIncidences := view.targetIncidences
  relationIncidences := view.relationIncidences
  relationIncidenceCount := view.relationIncidenceCount
  elementIncidences := view.elementIncidences
  elementIncidenceCount := view.elementIncidenceCount
  sourceParticipants := view.sourceParticipants
  targetParticipants := view.targetParticipants
  hyperedgeParticipants := view.hyperedgeParticipants
  outgoingHyperedges := view.outgoingHyperedges
  incomingHyperedges := view.incomingHyperedges
  incidentHyperedges := view.incidentHyperedges
  elementSuccessors := view.elementSuccessors
  elementPredecessors := view.elementPredecessors

end BcsrHypergraph

end

end Oxgraph.Bcsr
