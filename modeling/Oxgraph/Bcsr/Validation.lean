import Oxgraph.Layout.Arrays
import Oxgraph.Lib.BinarySearch

/-! The eight sections of a bipartite-CSR hypergraph, and their validation. -/

namespace Oxgraph.Bcsr

open Layout

export LayoutIndex (toNat)

/-- Section discriminator carried by validation errors. -/
inductive BcsrSection where
  | headOffsets
  | headParticipants
  | tailOffsets
  | tailParticipants
  | vertexOutgoingOffsets
  | vertexOutgoingHyperedges
  | vertexIncomingOffsets
  | vertexIncomingHyperedges
  deriving DecidableEq

/-- Which side of the bipartite index a cross-direction error names. -/
inductive BcsrRoleSide where
  | outgoing
  | incoming
  deriving DecidableEq

/-- Errors of validating a bipartite-CSR view. -/
inductive BcsrError where
  | offsetLengthOverflow (count : Nat)
  | offsetLength (section_ : BcsrSection) (expected actual : Nat)
  | hyperedgeOffsetLengthMismatch (headOffsetsLen tailOffsetsLen : Nat)
  | vertexOffsetLengthMismatch (outgoingOffsetsLen incomingOffsetsLen : Nat)
  | firstOffset (section_ : BcsrSection) (actual : Nat)
  | nonMonotonicOffset (section_ : BcsrSection) (index previous actual : Nat)
  | finalOffset (section_ : BcsrSection) (finalOffset valueLen : Nat)
  | vertexOutOfRange (section_ : BcsrSection) (index vertex vertexCount : Nat)
  | hyperedgeOutOfRange (section_ : BcsrSection) (index hyperedge hyperedgeCount : Nat)
  | outgoingTotalMismatch (headParticipantsLen outgoingHyperedgesLen : Nat)
  | incomingTotalMismatch (tailParticipantsLen incomingHyperedgesLen : Nat)
  | notStrictlyAscending (section_ : BcsrSection) (index previous actual : Nat)
  | usizeOverflow (value : Nat)
  | totalIncidenceCountOverflow (pHead pTail : Nat)
  | crossDirectionMismatch (side : BcsrRoleSide) (hyperedge vertex : Nat)
  deriving DecidableEq

/-- Borrowed input slices of a bipartite-CSR view, over its three index widths. -/
structure BcsrSections (V R O : Type) where
  -- Hyperedge-major offsets and vertex IDs of the head and the tail sets.
  headOffsets : List O
  headParticipants : List V
  tailOffsets : List O
  tailParticipants : List V
  -- Vertex-major offsets and hyperedge IDs where the vertex is in the head, and in the tail.
  vertexOutgoingOffsets : List O
  vertexOutgoingHyperedges : List R
  vertexIncomingOffsets : List O
  vertexIncomingHyperedges : List R

/-- Validation depth applied when a view opens. -/
inductive BcsrValidation where
  | layout
  | strict
  deriving DecidableEq

/-- Counts derived from validated offset arrays. -/
structure DerivedCounts where
  vertexCount : Nat
  hyperedgeCount : Nat
  pOutgoing : Nat
  pIncoming : Nat
  totalIncidences : Nat
  deriving DecidableEq

section

variable {I J : Type} [LayoutIndex I] [LayoutIndex J]

/-- The value a `usize` overflow reports for the word at a position. -/
def overflowValue (words : List I) (index : Nat) : Nat :=
  ((words[index]?).bind toUsize).getD (usizeBound - 1)

/-- Maps an offset issue into an error that names its section. -/
def mapOffsetsIssue (name : BcsrSection) (offsets : List I) : OffsetIntegrityIssue → BcsrError
  | .length expected actual => .offsetLength name expected actual
  | .firstNonZero actual => .firstOffset name actual
  | .nonMonotonic index previous actual => .nonMonotonicOffset name index previous actual
  | .finalMismatch actual valueLen => .finalOffset name actual valueLen
  | .usizeOverflow index => .usizeOverflow (overflowValue offsets index)
  | _ => .usizeOverflow (usizeBound - 1)

/-- Maps a value issue for vertex IDs into an error. -/
def mapVertexValueIssue (name : BcsrSection) (values : List I) : OffsetIntegrityIssue → BcsrError
  | .valueOutOfRange index value bound => .vertexOutOfRange name index value bound
  | .usizeOverflow index => .usizeOverflow (overflowValue values index)
  | _ => .usizeOverflow (usizeBound - 1)

/-- Maps a value issue for hyperedge IDs into an error. -/
def mapHyperedgeValueIssue (name : BcsrSection) (values : List I) :
    OffsetIntegrityIssue → BcsrError
  | .valueOutOfRange index value bound => .hyperedgeOutOfRange name index value bound
  | .usizeOverflow index => .usizeOverflow (overflowValue values index)
  | _ => .usizeOverflow (usizeBound - 1)

/-- Converts an index to `usize`, failing on truncation. -/
def indexToUsize (value : I) : Except BcsrError Nat :=
  match toUsize value with
  | none => .error (.usizeOverflow (usizeBound - 1))
  | some slot => .ok slot

/-- The word at a position, as a slot. -/
def slotAt (words : List I) (index : Nat) : Fallible BcsrError Nat := do
  let word ← .orPanic words[index]?
  .ofResult (indexToUsize word)

/-- One less than the number of offsets. -/
def deriveCountFromOffsets (offsetsLen : Nat) (name : BcsrSection) : Except BcsrError Nat :=
  if offsetsLen = 0 then .error (.offsetLength name 1 0) else .ok (offsetsLen - 1)

/-- Validates one offset array. -/
def validateOneOffsets (offsets : List I) (name : BcsrSection) (count valueLen : Nat) :
    Fallible BcsrError Unit :=
  match checkedAdd count 1 with
  | none => throw (.offsetLengthOverflow count)
  | some _ =>
    (checkOffsetSection offsets count valueLen).adapt (mapOffsetsIssue name offsets)

/-- Fails when a vertex word is at or above the vertex count. -/
def checkVertexValues (values : List I) (name : BcsrSection) (vertexCount : Nat) :
    Except BcsrError Unit :=
  (checkValueRange values vertexCount).mapError (mapVertexValueIssue name values)

/-- Fails when a hyperedge word is at or above the hyperedge count. -/
def checkHyperedgeValues (values : List I) (name : BcsrSection) (hyperedgeCount : Nat) :
    Except BcsrError Unit :=
  (checkValueRange values hyperedgeCount).mapError (mapHyperedgeValueIssue name values)

/-- Checks a number of values, from an index on, against the one before. -/
def checkAscendingFrom (values : List I) (name : BcsrSection) :
    Nat → Nat → Nat → Fallible BcsrError Unit
  | _, _, 0 => return ()
  | index, previous, remaining + 1 => do
    let actual ← slotAt values index
    if actual ≤ previous then throw (.notStrictlyAscending name index previous actual)
    else checkAscendingFrom values name (index + 1) actual remaining

/-- Verifies that a range of values is strictly ascending. -/
def checkStrictlyAscendingRange (values : List I) (start stop : Nat) (name : BcsrSection) :
    Fallible BcsrError Unit :=
  if stop ≤ start + 1 then return ()
  else do
    let previous ← slotAt values start
    checkAscendingFrom values name (start + 1) previous (stop - start - 1)

/-- Checks that each bucket of values is strictly ascending. -/
def checkStrictlyAscendingBuckets (offsets : List I) (values : List J) (name : BcsrSection) :
    Fallible BcsrError Unit :=
  if offsets.length < 2 then return ()
  else (offsets.zip offsets.tail).forM fun window => do
    let start ← .ofResult (indexToUsize window.1)
    let stop ← .ofResult (indexToUsize window.2)
    checkStrictlyAscendingRange values start stop name

/-- Whether a range of ascending values contains a needle. -/
def bucketContains (values : List I) (start stop needle : Nat) : Option Bool := do
  let bucket ← sliceOf values start stop
  return (binarySearchBy bucket fun word => compare (toNat word) needle).isSome

/-- Confirms that a word's own bucket on the other side lists an item. -/
def checkListed (otherOffsets : List I) (otherValues : List J) (owner item : Nat)
    (error : BcsrError) : Fallible BcsrError Unit := do
  let bucketStart ← slotAt otherOffsets owner
  let bucketEnd ← slotAt otherOffsets (owner + 1)
  let contains ← .orPanic (bucketContains otherValues bucketStart bucketEnd item)
  if contains then return () else throw error

end

section

variable {V R O : Type} [LayoutIndex V] [LayoutIndex R] [LayoutIndex O]

/-- Confirms that every vertex of a hyperedge's range lists the hyperedge in its own bucket. -/
def crossDirectionCheckBucket (edgeValues : List V) (start stop : Nat) (vertexOffsets : List O)
    (vertexValues : List R) (hyperedge : Nat) (side : BcsrRoleSide) : Fallible BcsrError Unit :=
  ((edgeValues.take stop).drop start).forM fun word => do
    let vertex ← .ofResult (indexToUsize word)
    checkListed vertexOffsets vertexValues vertex hyperedge
      (.crossDirectionMismatch side hyperedge vertex)

/-- Confirms hyperedge by hyperedge that every vertex lists it. -/
def crossDirectionWalk (edgeOffsets : List O) (edgeValues : List V) (vertexOffsets : List O)
    (vertexValues : List R) (side : BcsrRoleSide) : Fallible BcsrError Unit :=
  if edgeOffsets.length < 2 then return ()
  else (List.range (edgeOffsets.length - 1)).forM fun hyperedge => do
    let start ← slotAt edgeOffsets hyperedge
    let stop ← slotAt edgeOffsets (hyperedge + 1)
    crossDirectionCheckBucket edgeValues start stop vertexOffsets vertexValues hyperedge side

/-- Confirms vertex by vertex that every hyperedge lists it. -/
def converseDirectionWalk (vertexOffsets : List O) (vertexValues : List R) (edgeOffsets : List O)
    (edgeValues : List V) (side : BcsrRoleSide) : Fallible BcsrError Unit :=
  if vertexOffsets.length < 2 then return ()
  else (List.range (vertexOffsets.length - 1)).forM fun vertex => do
    let start ← slotAt vertexOffsets vertex
    let stop ← slotAt vertexOffsets (vertex + 1)
    ((vertexValues.take stop).drop start).forM fun word => do
      let hyperedge ← .ofResult (indexToUsize word)
      checkListed edgeOffsets edgeValues hyperedge vertex
        (.crossDirectionMismatch side hyperedge vertex)

variable (sections : BcsrSections V R O)

/-- Derives the counts after checking that paired offset slices agree in length. -/
def deriveCounts : Except BcsrError DerivedCounts :=
  let headLen := sections.headOffsets.length
  let tailLen := sections.tailOffsets.length
  if headLen ≠ tailLen then .error (.hyperedgeOffsetLengthMismatch headLen tailLen)
  else
    let outgoingLen := sections.vertexOutgoingOffsets.length
    let incomingLen := sections.vertexIncomingOffsets.length
    if outgoingLen ≠ incomingLen then .error (.vertexOffsetLengthMismatch outgoingLen incomingLen)
    else do
      let hyperedgeCount ← deriveCountFromOffsets headLen .headOffsets
      let vertexCount ← deriveCountFromOffsets outgoingLen .vertexOutgoingOffsets
      let pOutgoing := sections.vertexOutgoingHyperedges.length
      let pIncoming := sections.vertexIncomingHyperedges.length
      match checkedAdd pOutgoing pIncoming with
      | none => .error (.totalIncidenceCountOverflow pOutgoing pIncoming)
      | some totalIncidences =>
        return { vertexCount, hyperedgeCount, pOutgoing, pIncoming, totalIncidences }

/-- Validates each of the four offset arrays. -/
def validateAllOffsets (counts : DerivedCounts) : Fallible BcsrError Unit := do
  validateOneOffsets sections.headOffsets .headOffsets counts.hyperedgeCount
    sections.headParticipants.length
  validateOneOffsets sections.tailOffsets .tailOffsets counts.hyperedgeCount
    sections.tailParticipants.length
  validateOneOffsets sections.vertexOutgoingOffsets .vertexOutgoingOffsets counts.vertexCount
    sections.vertexOutgoingHyperedges.length
  validateOneOffsets sections.vertexIncomingOffsets .vertexIncomingOffsets counts.vertexCount
    sections.vertexIncomingHyperedges.length

/-- Verifies that the totals of the two directions agree on each side. -/
def validateTotalLengths : Except BcsrError Unit :=
  if sections.headParticipants.length ≠ sections.vertexOutgoingHyperedges.length then
    .error (.outgoingTotalMismatch sections.headParticipants.length
      sections.vertexOutgoingHyperedges.length)
  else if sections.tailParticipants.length ≠ sections.vertexIncomingHyperedges.length then
    .error (.incomingTotalMismatch sections.tailParticipants.length
      sections.vertexIncomingHyperedges.length)
  else .ok ()

/-- Verifies that vertex and hyperedge IDs are in range. -/
def validateValueRanges (counts : DerivedCounts) : Except BcsrError Unit := do
  checkVertexValues sections.headParticipants .headParticipants counts.vertexCount
  checkVertexValues sections.tailParticipants .tailParticipants counts.vertexCount
  checkHyperedgeValues sections.vertexOutgoingHyperedges .vertexOutgoingHyperedges
    counts.hyperedgeCount
  checkHyperedgeValues sections.vertexIncomingHyperedges .vertexIncomingHyperedges
    counts.hyperedgeCount

/-- Verifies that every bucket is strictly ascending. -/
def validateWithinRangeSorted : Fallible BcsrError Unit := do
  checkStrictlyAscendingBuckets sections.headOffsets sections.headParticipants .headParticipants
  checkStrictlyAscendingBuckets sections.tailOffsets sections.tailParticipants .tailParticipants
  checkStrictlyAscendingBuckets sections.vertexOutgoingOffsets sections.vertexOutgoingHyperedges
    .vertexOutgoingHyperedges
  checkStrictlyAscendingBuckets sections.vertexIncomingOffsets sections.vertexIncomingHyperedges
    .vertexIncomingHyperedges

/-- Verifies that the hyperedge-major and vertex-major indexes hold the same incidences. -/
def validateCrossDirection : Fallible BcsrError Unit := do
  crossDirectionWalk sections.headOffsets sections.headParticipants
    sections.vertexOutgoingOffsets sections.vertexOutgoingHyperedges .outgoing
  crossDirectionWalk sections.tailOffsets sections.tailParticipants
    sections.vertexIncomingOffsets sections.vertexIncomingHyperedges .incoming
  converseDirectionWalk sections.vertexOutgoingOffsets sections.vertexOutgoingHyperedges
    sections.headOffsets sections.headParticipants .outgoing
  converseDirectionWalk sections.vertexIncomingOffsets sections.vertexIncomingHyperedges
    sections.tailOffsets sections.tailParticipants .incoming

/-- Validates the eight sections at a level, and returns their counts. -/
def validateSections (level : BcsrValidation) : Fallible BcsrError DerivedCounts := do
  let counts ← .ofResult (deriveCounts sections)
  validateAllOffsets sections counts
  .ofResult (validateTotalLengths sections)
  .ofResult (validateValueRanges sections counts)
  validateWithinRangeSorted sections
  if level = .strict then validateCrossDirection sections
  return counts

end

end Oxgraph.Bcsr
