import Oxgraph.Proofs.Bcsr.Validation

/-! What the traversal methods answer on sections that passed validation, and when they panic. -/

namespace Oxgraph.Bcsr

open Layout
open LayoutIndex (toNat_lt toNat_ofNat)
open List (length_map map_append mem_map_of_mem mem_of_getElem? mem_range'_1)

/-- The position of an item of a set in the sets laid out one after the other. -/
def positionOf (sets : List (List Nat)) (index item : Nat) : Nat :=
  (sets.take index).flatten.length + (sets.getD index []).idxOf item

section

variable {I J : Type} [LayoutIndex I] [LayoutIndex J]

@[simp] theorem offsetAt_eq (offsets : List I) (index : Nat) :
    offsetAt offsets index = (offsets.map toNat)[index]? := by
  rw [offsetAt, List.getElem?_map]
  cases offsets[index]? with
  | none => rfl
  | some word => exact toUsize_eq word

variable {offsets : List I} {values : List J} {buckets : List (List Nat)}

/-- The values between consecutive offsets are the bucket. -/
theorem vertexBucket_eq (flat : Indexed offsets values buckets) {index : Nat}
    (inside : index < buckets.length) :
    vertexBucket offsets values index = some ((buckets.getD index []).map LayoutIndex.ofNat) := by
  obtain ⟨starts, stops, _⟩ := flat.bucket (getElem?_bucket inside)
  unfold vertexBucket
  rw [offsetAt_eq, offsetAt_eq, starts, stops]
  exact sliceOf_bucket flat inside

/-- The size between consecutive offsets is that of the bucket. -/
theorem bucketSize_eq (flat : Indexed offsets values buckets) {index : Nat}
    (inside : index < buckets.length) :
    bucketSize offsets index = some (buckets.getD index []).length := by
  obtain ⟨starts, stops, _⟩ := flat.bucket (getElem?_bucket inside)
  unfold bucketSize
  rw [offsetAt_eq, offsetAt_eq, starts, stops]
  show subOrPanic _ _ = _
  rw [subOrPanic, if_pos (Nat.le_add_right _ _), Nat.add_sub_cancel_left]

/-- Bisection ends at the bucket that holds the target. -/
theorem locateFrom_spec {target fuel low high first last : Nat} (enough : high - low ≤ fuel)
    (some_fuel : fuel ≠ 0) (ordered : low < high) (inside : high < offsets.length)
    (below : (offsets.map toNat)[low]? = some first) (first_le : first ≤ target)
    (above : (offsets.map toNat)[high]? = some last) (lt_last : target < last) :
    ∃ owner start stop, locateFrom offsets target fuel low high = some owner ∧
      (offsets.map toNat)[owner]? = some start ∧ (offsets.map toNat)[owner + 1]? = some stop ∧
      start ≤ target ∧ target < stop := by
  induction fuel generalizing low high first last with
  | zero => exact absurd rfl some_fuel
  | succ fuel ih =>
    rw [locateFrom]
    by_cases narrow : low + 1 < high
    · rw [if_pos narrow]
      have bound : low + (high - low) / 2 < (offsets.map toNat).length := by
        rw [length_map]
        omega
      have probe := List.getElem?_eq_getElem bound
      simp only [offsetAt_eq, probe, Option.bind_eq_bind, Option.bind_some]
      split
      · rename_i left
        exact ih (by omega) (by omega) (by omega) inside probe left above lt_last
      · rename_i right
        exact ih (by omega) (by omega) (by omega) (by omega) below first_le probe
          (Nat.lt_of_not_le right)
    · rw [if_neg narrow]
      obtain rfl : high = low + 1 := by omega
      exact ⟨low, first, last, rfl, below, above, first_le, lt_last⟩

/-- The located bucket is the one whose positions include the target. -/
theorem locateOwningBucket_spec {K : Type} [LayoutIndex K]
    (flat : Indexed offsets values buckets) {target : Nat} (inside : target < values.length) :
    ∃ owner, owner < buckets.length ∧ (buckets.take owner).flatten.length ≤ target ∧
      target < (buckets.take owner).flatten.length + (buckets.getD owner []).length ∧
      (locateOwningBucket offsets target : Option K) = usizeToIndexValidated owner := by
  have length := flat.length_offsets
  rw [length_map] at length
  have last := flat.last
  rw [length_map] at last
  have some_bucket : 0 < buckets.length := by
    by_contra none
    have empty : buckets = [] := List.eq_nil_of_length_eq_zero (by omega)
    have none_value := flat.values
    rw [empty, List.flatten_nil, List.map_eq_nil_iff] at none_value
    rw [none_value] at inside
    cases inside
  have first := (flat.bucket (getElem?_bucket some_bucket)).1
  have enough : buckets.length - 0 ≤ offsets.length := by omega
  obtain ⟨owner, start, stop, located, starts, stops, start_le, lt_stop⟩ :=
    locateFrom_spec enough (by omega) some_bucket (by omega) first (Nat.zero_le _) last inside
  have owned : owner < buckets.length := by
    have := (List.getElem?_eq_some_iff.mp stops).1
    rw [length_map] at this
    omega
  obtain ⟨bucketStarts, bucketStops, _⟩ := flat.bucket (getElem?_bucket owned)
  obtain rfl := Option.some.inj (starts.symm.trans bucketStarts)
  obtain rfl := Option.some.inj (stops.symm.trans bucketStops)
  refine ⟨owner, owned, start_le, lt_stop, ?_⟩
  unfold locateOwningBucket
  rw [subOrPanic, if_pos (by omega), length, Nat.add_sub_cancel, ← length]
  simp only [Option.bind_eq_bind, Option.bind_some, located]

/-- The number of values is an offset, so it is one of the width. -/
theorem length_lt_bound (flat : Indexed offsets values buckets) :
    values.length < LayoutIndex.bound I := by
  have last := flat.last
  rw [length_map, List.getElem?_map, Option.map_eq_some_iff] at last
  obtain ⟨word, _, same⟩ := last
  rw [← same]
  exact toNat_lt word

-- Walks of incidences.

/-- A walk inside the width yields consecutive incidences. -/
theorem participantsFrom_eq {base cursor remaining : Nat}
    (fits : remaining = 0 ∨ base + cursor + remaining ≤ LayoutIndex.bound I) :
    (participantsFrom base cursor remaining : Option (List I)) =
      some ((List.range' (base + cursor) remaining).map LayoutIndex.ofNat) := by
  induction remaining generalizing cursor with
  | zero => rfl
  | succ remaining ih =>
    have inside : base + cursor < LayoutIndex.bound I := by omega
    have small : base + cursor < usizeBound := Nat.lt_of_lt_of_le inside LayoutIndex.bound_le
    rw [participantsFrom, checkedAdd_eq_some.mpr ⟨rfl, small⟩]
    simp only [usizeToIndexValidated_eq inside, Option.bind_eq_bind, Option.bind_some]
    rw [ih (by omega), List.range'_succ, List.map_cons]
    rfl

/-- A walk that ends without a panic stays inside the width. -/
theorem fits_of_participantsFrom {base cursor remaining : Nat} {incidences : List I}
    (small : base + cursor + remaining ≤ usizeBound)
    (ended : participantsFrom base cursor remaining = some incidences) :
    remaining = 0 ∨ base + cursor + remaining ≤ LayoutIndex.bound I := by
  induction remaining generalizing cursor incidences with
  | zero => exact .inl rfl
  | succ remaining ih =>
    rw [participantsFrom, checkedAdd_eq_some.mpr ⟨rfl, by omega⟩] at ended
    have inside : base + cursor < LayoutIndex.bound I := by
      by_contra outside
      simp only [usizeToIndexValidated_eq_none (Nat.le_of_not_lt outside)] at ended
      cases ended
    simp only [usizeToIndexValidated_eq inside, Option.bind_eq_bind, Option.bind_some,
      Option.bind_eq_some_iff] at ended
    obtain ⟨rest, ended, _⟩ := ended
    have later := ih (by omega) ended
    omega

/-- The walk over a hyperedge's side starts and stops at the bucket. -/
theorem participantSlice_eq (flat : Indexed offsets values buckets) {index base : Nat}
    (inside : index < buckets.length) :
    participantSlice offsets index base =
      some
        { cursor := (buckets.take index).flatten.length
          stop := (buckets.take index).flatten.length + (buckets.getD index []).length
          base } := by
  obtain ⟨starts, stops, _⟩ := flat.bucket (getElem?_bucket inside)
  unfold participantSlice
  rw [offsetAt_eq, offsetAt_eq, starts, stops]
  rfl

/-- A vertex is located in a bucket that lists it, at its position, and in no other. -/
theorem locateInBucket_eq (flat : Indexed offsets values buckets) {index vertex : Nat}
    (inside : index < buckets.length) (ascending : (buckets.getD index []).Pairwise (· < ·))
    (small : values.length < usizeBound) :
    locateInBucket offsets values index vertex =
      some (if vertex ∈ buckets.getD index [] then some (positionOf buckets index vertex)
        else none) := by
  obtain ⟨starts, stops, bound, _⟩ := flat.bucket (getElem?_bucket inside)
  rw [length_map] at bound
  have slots := slots_bucket flat inside
  have sorted : Ascending (((buckets.getD index []).map (LayoutIndex.ofNat : Nat → J)).map toNat) := by
    rw [slots]
    exact ascending.imp fun less => Nat.compare_eq_lt.mpr less
  -- A bucket ascends, so the search finds a vertex exactly when it is there.
  have found := binarySearchBy_spec (monotone_of_ascending sorted vertex)
  unfold locateInBucket
  rw [offsetAt_eq, offsetAt_eq, starts, stops]
  simp only [Option.bind_eq_bind, Option.bind_some, sliceOf_bucket flat inside]
  cases search : binarySearchBy ((buckets.getD index []).map (LayoutIndex.ofNat : Nat → J))
      fun word => compare (toNat word) vertex with
  | none =>
    rw [search] at found
    rw [if_neg]
    · rfl
    · intro member
      rw [← slots] at member
      obtain ⟨word, listed, rfl⟩ := List.mem_map.mp member
      exact found word listed (Nat.compare_eq_eq.mpr rfl)
  | some local_ =>
    rw [search] at found
    obtain ⟨word, read, equal⟩ := found
    have slot : (buckets.getD index [])[local_]? = some vertex := by
      rw [← slots, List.getElem?_map, read, Option.map_some, Nat.compare_eq_eq.mp equal]
    obtain ⟨local_lt, same⟩ := List.getElem?_eq_some_iff.mp slot
    have nodup : (buckets.getD index []).Nodup := ascending.nodup
    have first : (buckets.getD index []).idxOf vertex = local_ := by
      rw [← same]
      exact nodup.idxOf_getElem local_ local_lt
    rw [if_pos (mem_of_getElem? slot), positionOf, first]
    exact congrArg some (checkedAdd_eq_some.mpr ⟨rfl, by omega⟩)

/-- An item of a bucket has a position inside the values. -/
theorem positionOf_lt {index item : Nat} (member : item ∈ buckets.getD index []) :
    positionOf buckets index item <
      (buckets.take index).flatten.length + (buckets.getD index []).length :=
  Nat.add_lt_add_left (List.idxOf_lt_length_of_mem member) _

end

section

variable {V R O : Type} [LayoutIndex V] [LayoutIndex R] [LayoutIndex O]
variable {offsets : List O} {values : List V} {buckets : List (List Nat)}

/-- Pulling incidences that fit yields the vertex's position in each hyperedge that lists it. -/
theorem pull_eq (flat : Indexed offsets values buckets)
    (ascending : ∀ bucket ∈ buckets, bucket.Pairwise (· < ·)) (small : values.length < usizeBound)
    {vertex base : Nat} {shift : Nat → Option Nat}
    (shifts : ∀ position < values.length, shift position = some (base + position))
    {hyperedges : List R} (inside : ∀ word ∈ hyperedges, toNat word < buckets.length)
    (fits : ∀ word ∈ hyperedges, vertex ∈ buckets.getD (toNat word) [] →
      base + positionOf buckets (toNat word) vertex < LayoutIndex.bound O) :
    pull vertex offsets values shift hyperedges =
      some (((hyperedges.map toNat).filter fun index => vertex ∈ buckets.getD index []).map
        fun index => LayoutIndex.ofNat (base + positionOf buckets index vertex)) := by
  induction hyperedges with
  | nil => rfl
  | cons word rest ih =>
    rw [List.forall_mem_cons] at inside fits
    have others := ih inside.2 fits.2
    have listed := getElem?_bucket inside.1
    have sorted := ascending _ (mem_of_getElem? listed)
    rw [pull]
    simp only [indexToUsizeValidated_eq, Option.bind_eq_bind, Option.bind_some,
      locateInBucket_eq flat inside.1 sorted small, List.map_cons]
    by_cases member : vertex ∈ buckets.getD (toNat word) []
    · have bound := (flat.bucket listed).2.2.1
      rw [length_map] at bound
      have position := positionOf_lt member
      rw [if_pos member, List.filter_cons_of_pos (by simpa using member), List.map_cons]
      simp only [shifts _ (Nat.lt_of_lt_of_le position bound),
        usizeToIndexValidated_eq (fits.1 member), Option.bind_some, others]
      rfl
    · rw [if_neg member, List.filter_cons_of_neg (by simpa using member)]
      exact others

/-- The neighbours are the participants of the hyperedges one after the other. -/
theorem neighborVertices_eq (flat : Indexed offsets values buckets) {hyperedges : List R}
    (inside : ∀ word ∈ hyperedges, toNat word < buckets.length) :
    neighborVertices offsets values hyperedges =
      some (((hyperedges.map toNat).flatMap fun index => buckets.getD index []).map
        LayoutIndex.ofNat) := by
  induction hyperedges with
  | nil => rfl
  | cons word rest ih =>
    rw [List.forall_mem_cons] at inside
    rw [neighborVertices]
    simp only [indexToUsizeValidated_eq, Option.bind_eq_bind, Option.bind_some,
      vertexBucket_eq flat inside.1, ih inside.2, List.map_cons, List.flatMap_cons,
      map_append]
    rfl

end

section

variable {V R O : Type} [LayoutIndex V] [LayoutIndex R] [LayoutIndex O]

/-- The incidences of one side of a hyperedge, numbered from a base. -/
def incidenceRange (sets : List (List Nat)) (base index : Nat) : List Nat :=
  List.range' (base + (sets.take index).flatten.length) (sets.getD index []).length

/-- The incidences of a vertex in hyperedges, numbered from a base. -/
def incidencesOf (sets : List (List Nat)) (base vertex : Nat) (hyperedges : List Nat) : List Nat :=
  (hyperedges.filter fun index => vertex ∈ sets.getD index []).map fun index =>
    base + positionOf sets index vertex

namespace RoleLaidOut

variable {vertexCount hyperedgeCount : Nat} {edgeOffsets vertexOffsets : List O}
  {edgeValues : List V} {vertexValues : List R} {sets relations : List (List Nat)}
  (role : RoleLaidOut vertexCount hyperedgeCount edgeOffsets edgeValues vertexOffsets vertexValues
    sets relations)
include role

/-- The set of a hyperedge ends inside the participants. -/
theorem set_end_le {index : Nat} (inside : index < hyperedgeCount) :
    (sets.take index).flatten.length + (sets.getD index []).length ≤ edgeValues.length := by
  rw [← role.sets_length] at inside
  have bound := (role.edges.bucket (getElem?_bucket inside)).2.2.1
  rwa [length_map] at bound

/-- The hyperedges of a vertex are no more than there are participants. -/
theorem relations_length_le {index : Nat} (inside : index < vertexCount) :
    (relations.getD index []).length ≤ edgeValues.length := by
  rw [← role.relations_length] at inside
  have bound := (role.vertices.bucket (getElem?_bucket inside)).2.2.1
  rw [length_map, ← role.totals] at bound
  omega

theorem participants_eq {hyperedge : R} (valid : toNat hyperedge < hyperedgeCount) :
    vertexBucket edgeOffsets edgeValues (toNat hyperedge) =
      some ((sets.getD (toNat hyperedge) []).map LayoutIndex.ofNat) :=
  vertexBucket_eq role.edges (by rwa [role.sets_length])

variable {vertex : V} (valid : toNat vertex < vertexCount)
include valid

theorem hyperedges_eq : vertexBucket vertexOffsets vertexValues (toNat vertex) =
    some ((relations.getD (toNat vertex) []).map LayoutIndex.ofNat) :=
  vertexBucket_eq role.vertices (by rwa [role.relations_length])

/-- The words of a vertex's bucket are the numbers in it. -/
theorem words_eq : ((relations.getD (toNat vertex) []).map (LayoutIndex.ofNat : Nat → R)).map toNat =
    relations.getD (toNat vertex) [] :=
  slots_bucket role.vertices (by rwa [role.relations_length])

/-- The words of a vertex's bucket name hyperedges. -/
theorem word_below : ∀ word ∈ (relations.getD (toNat vertex) []).map (LayoutIndex.ofNat : Nat → R),
    toNat word ∈ relations.getD (toNat vertex) [] ∧ toNat word < hyperedgeCount := by
  intro word member
  have listed := mem_map_of_mem (f := toNat) member
  rw [role.words_eq valid] at listed
  rw [← role.relations_length] at valid
  exact ⟨listed, role.vertices.forall_values.mp role.hyperedgesBelow _
    (mem_of_getElem? (getElem?_bucket valid)) _ listed⟩

/-- Pulling incidences over the hyperedges of a vertex yields its positions in their sets. -/
theorem pull_eq (small : edgeValues.length < usizeBound) {base : Nat} {shift : Nat → Option Nat}
    (shifts : ∀ position < edgeValues.length, shift position = some (base + position))
    (fits : ∀ index ∈ relations.getD (toNat vertex) [], toNat vertex ∈ sets.getD index [] →
      base + positionOf sets index (toNat vertex) < LayoutIndex.bound O) :
    pull (toNat vertex) edgeOffsets edgeValues shift
        ((relations.getD (toNat vertex) []).map (LayoutIndex.ofNat : Nat → R)) =
      some ((incidencesOf sets base (toNat vertex) (relations.getD (toNat vertex) [])).map
        LayoutIndex.ofNat) := by
  rw [Bcsr.pull_eq role.edges role.setsAscending small shifts, role.words_eq valid, incidencesOf,
    List.map_map]
  · rfl
  · intro word member
    rw [role.sets_length]
    exact (role.word_below valid word member).2
  · intro word member
    exact fits _ (role.word_below valid word member).1

end RoleLaidOut

namespace BcsrHypergraph

section

variable {view : BcsrHypergraph V R O}

omit [LayoutIndex R] [LayoutIndex O] in
theorem containsElement_eq (element : V) :
    view.containsElement element = some (decide (toNat element < view.counts.vertexCount)) := by
  unfold containsElement
  rw [indexToUsizeValidated_eq]
  rfl

omit [LayoutIndex V] [LayoutIndex O] in
theorem containsRelation_eq (relation : R) :
    view.containsRelation relation =
      some (decide (toNat relation < view.counts.hyperedgeCount)) := by
  unfold containsRelation
  rw [indexToUsizeValidated_eq]
  rfl

omit [LayoutIndex V] [LayoutIndex R] in
theorem containsIncidence_eq (incidence : O) :
    view.containsIncidence incidence =
      some (decide (toNat incidence < view.counts.totalIncidences)) := by
  unfold containsIncidence
  rw [indexToUsizeValidated_eq]
  rfl

end

variable {view : BcsrHypergraph V R O} {heads tails outgoing incoming : List (List Nat)}
  (laid : LaidOut view.sections view.counts heads tails outgoing incoming)
include laid

-- The number of entries of each role.

theorem pOutgoing_eq : view.counts.pOutgoing = view.sections.headParticipants.length :=
  laid.counted.pOutgoing.trans laid.outgoingRole.totals.symm

theorem pIncoming_eq : view.counts.pIncoming = view.sections.tailParticipants.length :=
  laid.counted.pIncoming.trans laid.incomingRole.totals.symm

theorem total_eq : view.sections.headParticipants.length + view.sections.tailParticipants.length =
    view.counts.totalIncidences := by
  rw [← pOutgoing_eq laid, ← pIncoming_eq laid]
  exact laid.counted.total

-- Participants and hyperedges.

variable {hyperedge : R} {vertex : V}

theorem sourceParticipants_eq (valid : toNat hyperedge < view.counts.hyperedgeCount) :
    view.sourceParticipants hyperedge =
      some ((heads.getD (toNat hyperedge) []).map LayoutIndex.ofNat) := by
  unfold sourceParticipants
  rw [indexToUsizeValidated_eq]
  exact laid.outgoingRole.participants_eq valid

theorem targetParticipants_eq (valid : toNat hyperedge < view.counts.hyperedgeCount) :
    view.targetParticipants hyperedge =
      some ((tails.getD (toNat hyperedge) []).map LayoutIndex.ofNat) := by
  unfold targetParticipants
  rw [indexToUsizeValidated_eq]
  exact laid.incomingRole.participants_eq valid

theorem hyperedgeParticipants_eq (valid : toNat hyperedge < view.counts.hyperedgeCount) :
    view.hyperedgeParticipants hyperedge =
      some ((heads.getD (toNat hyperedge) [] ++ tails.getD (toNat hyperedge) []).map
        LayoutIndex.ofNat) := by
  unfold hyperedgeParticipants
  simp only [indexToUsizeValidated_eq, Option.bind_eq_bind, Option.bind_some,
    laid.outgoingRole.participants_eq valid, laid.incomingRole.participants_eq valid, map_append]
  rfl

theorem outgoingHyperedges_eq (valid : toNat vertex < view.counts.vertexCount) :
    view.outgoingHyperedges vertex =
      some ((outgoing.getD (toNat vertex) []).map LayoutIndex.ofNat) := by
  unfold outgoingHyperedges
  rw [indexToUsizeValidated_eq]
  exact laid.outgoingRole.hyperedges_eq valid

theorem incomingHyperedges_eq (valid : toNat vertex < view.counts.vertexCount) :
    view.incomingHyperedges vertex =
      some ((incoming.getD (toNat vertex) []).map LayoutIndex.ofNat) := by
  unfold incomingHyperedges
  rw [indexToUsizeValidated_eq]
  exact laid.incomingRole.hyperedges_eq valid

theorem incidentHyperedges_eq (valid : toNat vertex < view.counts.vertexCount) :
    view.incidentHyperedges vertex =
      some ((outgoing.getD (toNat vertex) [] ++ incoming.getD (toNat vertex) []).map
        LayoutIndex.ofNat) := by
  unfold incidentHyperedges
  simp only [indexToUsizeValidated_eq, Option.bind_eq_bind, Option.bind_some,
    laid.outgoingRole.hyperedges_eq valid, laid.incomingRole.hyperedges_eq valid, map_append]
  rfl

theorem elementSuccessors_eq (valid : toNat vertex < view.counts.vertexCount) :
    view.elementSuccessors vertex =
      some (((outgoing.getD (toNat vertex) []).flatMap fun index => tails.getD index []).map
        LayoutIndex.ofNat) := by
  unfold elementSuccessors
  rw [outgoingHyperedges_eq laid valid, Option.bind_eq_bind, Option.bind_some,
    neighborVertices_eq laid.incomingRole.edges, laid.outgoingRole.words_eq valid]
  intro word member
  rw [laid.incomingRole.sets_length]
  exact (laid.outgoingRole.word_below valid word member).2

theorem elementPredecessors_eq (valid : toNat vertex < view.counts.vertexCount) :
    view.elementPredecessors vertex =
      some (((incoming.getD (toNat vertex) []).flatMap fun index => heads.getD index []).map
        LayoutIndex.ofNat) := by
  unfold elementPredecessors
  rw [incomingHyperedges_eq laid valid, Option.bind_eq_bind, Option.bind_some,
    neighborVertices_eq laid.outgoingRole.edges, laid.incomingRole.words_eq valid]
  intro word member
  rw [laid.outgoingRole.sets_length]
  exact (laid.incomingRole.word_below valid word member).2

-- Counts of incidences.

theorem relationIncidenceCount_eq (valid : toNat hyperedge < view.counts.hyperedgeCount) :
    view.relationIncidenceCount hyperedge =
      some ((heads.getD (toNat hyperedge) []).length + (tails.getD (toNat hyperedge) []).length) := by
  have first := laid.outgoingRole.set_end_le valid
  have second := laid.incomingRole.set_end_le valid
  have total := total_eq laid
  have fits := laid.counted.fits
  have inHeads := valid
  have inTails := valid
  rw [← laid.outgoingRole.sets_length] at inHeads
  rw [← laid.incomingRole.sets_length] at inTails
  unfold relationIncidenceCount
  simp only [indexToUsizeValidated_eq, Option.bind_eq_bind, Option.bind_some,
    bucketSize_eq laid.outgoingRole.edges inHeads, bucketSize_eq laid.incomingRole.edges inTails]
  exact checkedAdd_eq_some.mpr ⟨rfl, by omega⟩

theorem elementIncidenceCount_eq (valid : toNat vertex < view.counts.vertexCount) :
    view.elementIncidenceCount vertex =
      some ((outgoing.getD (toNat vertex) []).length +
        (incoming.getD (toNat vertex) []).length) := by
  have first := laid.outgoingRole.relations_length_le valid
  have second := laid.incomingRole.relations_length_le valid
  have total := total_eq laid
  have fits := laid.counted.fits
  have inOut := valid
  have inInc := valid
  rw [← laid.outgoingRole.relations_length] at inOut
  rw [← laid.incomingRole.relations_length] at inInc
  unfold elementIncidenceCount
  simp only [indexToUsizeValidated_eq, Option.bind_eq_bind, Option.bind_some,
    bucketSize_eq laid.outgoingRole.vertices inOut, bucketSize_eq laid.incomingRole.vertices inInc]
  exact checkedAdd_eq_some.mpr ⟨rfl, by omega⟩

-- Incidences.

variable {incidence : O}

theorem incidenceElement_eq (valid : toNat incidence < view.counts.totalIncidences) :
    view.incidenceElement incidence =
      some (LayoutIndex.ofNat ((heads.flatten ++ tails.flatten).getD (toNat incidence) 0)) := by
  have total := total_eq laid
  have joined : heads.flatten ++ tails.flatten =
      (view.sections.headParticipants ++ view.sections.tailParticipants).map toNat := by
    rw [map_append, laid.outgoingRole.edges.values, laid.incomingRole.edges.values]
  have inside : toNat incidence <
      (view.sections.headParticipants ++ view.sections.tailParticipants).length := by
    rwa [List.length_append, total]
  -- The head block comes first, so both branches read the joined participants.
  have read : view.incidenceElement incidence =
      (view.sections.headParticipants ++ view.sections.tailParticipants)[toNat incidence]? := by
    unfold incidenceElement
    simp only [indexToUsizeValidated_eq, Option.bind_eq_bind, Option.bind_some]
    rw [pOutgoing_eq laid]
    split
    · rename_i head
      rw [List.getElem?_append_left head]
    · rename_i tail
      rw [List.getElem?_append_right (Nat.le_of_not_lt tail)]
  rw [read, joined, List.getElem?_eq_getElem inside, List.getD_eq_getElem _ _ (by
    rwa [length_map]), List.getElem_map, LayoutIndex.ofNat_toNat]

theorem incidenceRole_eq :
    view.incidenceRole incidence =
      some (if toNat incidence < heads.flatten.length then .head else .tail) := by
  unfold incidenceRole
  simp only [indexToUsizeValidated_eq, Option.bind_eq_bind, Option.bind_some]
  rw [pOutgoing_eq laid, ← length_map (f := toNat), laid.outgoingRole.edges.values]
  rfl

theorem sourceIncidences_eq (valid : toNat hyperedge < view.counts.hyperedgeCount) :
    view.sourceIncidences hyperedge =
      some ((incidenceRange heads 0 (toNat hyperedge)).map LayoutIndex.ofNat) := by
  have edges := laid.outgoingRole.edges
  have bound := laid.outgoingRole.set_end_le valid
  have width := length_lt_bound edges
  rw [← laid.outgoingRole.sets_length] at valid
  unfold sourceIncidences
  simp only [indexToUsizeValidated_eq, Option.bind_eq_bind, Option.bind_some,
    participantSlice_eq edges valid, BcsrParticipantSlice.run, Nat.add_sub_cancel_left]
  exact participantsFrom_eq (.inr (by omega))

/-- The tail incidences of a hyperedge fit the width. -/
theorem targetIncidences_eq (valid : toNat hyperedge < view.counts.hyperedgeCount)
    (fits : (tails.getD (toNat hyperedge) []).length = 0 ∨
      view.counts.pOutgoing + (tails.take (toNat hyperedge)).flatten.length +
        (tails.getD (toNat hyperedge) []).length ≤ LayoutIndex.bound O) :
    view.targetIncidences hyperedge =
      some ((incidenceRange tails view.counts.pOutgoing (toNat hyperedge)).map
        LayoutIndex.ofNat) := by
  rw [← laid.incomingRole.sets_length] at valid
  unfold targetIncidences
  simp only [indexToUsizeValidated_eq, Option.bind_eq_bind, Option.bind_some,
    participantSlice_eq laid.incomingRole.edges valid, BcsrParticipantSlice.run,
    Nat.add_sub_cancel_left]
  exact participantsFrom_eq fits

theorem relationIncidences_eq (valid : toNat hyperedge < view.counts.hyperedgeCount)
    (fits : (tails.getD (toNat hyperedge) []).length = 0 ∨
      view.counts.pOutgoing + (tails.take (toNat hyperedge)).flatten.length +
        (tails.getD (toNat hyperedge) []).length ≤ LayoutIndex.bound O) :
    view.relationIncidences hyperedge =
      some ((incidenceRange heads 0 (toNat hyperedge) ++
        incidenceRange tails view.counts.pOutgoing (toNat hyperedge)).map LayoutIndex.ofNat) := by
  have source := sourceIncidences_eq laid valid
  have target := targetIncidences_eq laid valid fits
  have inHeads : toNat hyperedge < heads.length := by rwa [laid.outgoingRole.sets_length]
  have inTails : toNat hyperedge < tails.length := by rwa [laid.incomingRole.sets_length]
  unfold sourceIncidences at source
  unfold targetIncidences at target
  unfold relationIncidences
  simp only [indexToUsizeValidated_eq, Option.bind_eq_bind, Option.bind_some,
    participantSlice_eq laid.outgoingRole.edges inHeads,
    participantSlice_eq laid.incomingRole.edges inTails] at source target ⊢
  rw [source, target, map_append]
  rfl

theorem elementIncidences_eq (valid : toNat vertex < view.counts.vertexCount)
    (fits : ∀ index ∈ incoming.getD (toNat vertex) [], toNat vertex ∈ tails.getD index [] →
      view.counts.pOutgoing + positionOf tails index (toNat vertex) < LayoutIndex.bound O) :
    view.elementIncidences vertex =
      some ((incidencesOf heads 0 (toNat vertex) (outgoing.getD (toNat vertex) []) ++
        incidencesOf tails view.counts.pOutgoing (toNat vertex)
          (incoming.getD (toNat vertex) [])).map LayoutIndex.ofNat) := by
  have out := laid.outgoingRole
  have inc := laid.incomingRole
  have total := total_eq laid
  have totalFits := laid.counted.fits
  have width := length_lt_bound out.edges
  have pOutgoing := pOutgoing_eq laid
  have headShifts : ∀ position < view.sections.headParticipants.length,
      some position = some (0 + position) := fun position _ => by rw [Nat.zero_add]
  have tailShifts : ∀ position < view.sections.tailParticipants.length,
      checkedAdd view.counts.pOutgoing position = some (view.counts.pOutgoing + position) :=
    fun position inside => checkedAdd_eq_some.mpr ⟨rfl, by omega⟩
  -- Head incidences are offsets, so they always fit.
  have headFits : ∀ index ∈ outgoing.getD (toNat vertex) [], toNat vertex ∈ heads.getD index [] →
      0 + positionOf heads index (toNat vertex) < LayoutIndex.bound O := by
    intro index _ listing
    have position := positionOf_lt listing
    have bound := out.set_end_le (out.sets_length ▸ lt_of_mem_getD listing)
    omega
  unfold elementIncidences
  simp only [indexToUsizeValidated_eq, Option.bind_eq_bind, Option.bind_some,
    out.hyperedges_eq valid, inc.hyperedges_eq valid,
    out.pull_eq valid (by omega) headShifts headFits, inc.pull_eq valid (by omega) tailShifts fits,
    map_append]
  rfl

/-- The hyperedge of an incidence is the one whose range holds it. -/
theorem incidenceRelation_spec (valid : toNat incidence < view.counts.totalIncidences) :
    ∃ owner < view.counts.hyperedgeCount,
      view.incidenceRelation incidence = usizeToIndexValidated owner ∧
        (toNat incidence ∈ incidenceRange heads 0 owner ∨
          toNat incidence ∈ incidenceRange tails view.counts.pOutgoing owner) := by
  have out := laid.outgoingRole
  have inc := laid.incomingRole
  have total := total_eq laid
  have pOutgoing := pOutgoing_eq laid
  unfold incidenceRelation
  simp only [indexToUsizeValidated_eq, Option.bind_eq_bind, Option.bind_some]
  split
  · rename_i head
    rw [pOutgoing] at head
    obtain ⟨owner, owned, start, stop, located⟩ := locateOwningBucket_spec (K := R) out.edges head
    refine ⟨owner, by rwa [← out.sets_length], located, .inl ?_⟩
    rw [incidenceRange, mem_range'_1, Nat.zero_add]
    exact ⟨start, stop⟩
  · rename_i tail
    have position : toNat incidence - view.counts.pOutgoing <
        view.sections.tailParticipants.length := by omega
    obtain ⟨owner, owned, start, stop, located⟩ := locateOwningBucket_spec (K := R) inc.edges position
    refine ⟨owner, by rwa [← inc.sets_length], located, .inr ?_⟩
    rw [incidenceRange, mem_range'_1]
    omega

/-- Head incidences are numbered below the head block's end. -/
theorem lt_of_mem_headRange {index id : Nat} (inside : index < view.counts.hyperedgeCount)
    (member : id ∈ incidenceRange heads 0 index) : id < view.counts.pOutgoing := by
  have bound := laid.outgoingRole.set_end_le inside
  rw [← pOutgoing_eq laid] at bound
  rw [incidenceRange, mem_range'_1] at member
  omega

/-- Tail incidences are numbered from the head block's end to the total. -/
theorem bounds_of_mem_tailRange {index id : Nat} (inside : index < view.counts.hyperedgeCount)
    (member : id ∈ incidenceRange tails view.counts.pOutgoing index) :
    view.counts.pOutgoing ≤ id ∧ id < view.counts.totalIncidences := by
  have bound := laid.incomingRole.set_end_le inside
  rw [← pIncoming_eq laid] at bound
  have total := laid.counted.total
  rw [incidenceRange, mem_range'_1] at member
  omega

/-- The hyperedge whose range holds an incidence is the one found. -/
theorem incidenceRelation_eq {index : Nat} (inside : index < view.counts.hyperedgeCount)
    (member : toNat incidence ∈ incidenceRange heads 0 index ∨
      toNat incidence ∈ incidenceRange tails view.counts.pOutgoing index) :
    view.incidenceRelation incidence = usizeToIndexValidated index := by
  have total := laid.counted.total
  have valid : toNat incidence < view.counts.totalIncidences := by
    rcases member with head | tail
    · have := lt_of_mem_headRange laid inside head
      omega
    · exact (bounds_of_mem_tailRange laid inside tail).2
  obtain ⟨owner, owned, located, range⟩ := incidenceRelation_spec laid valid
  have same : owner = index := by
    rcases member with head | tail
    · have below := lt_of_mem_headRange laid inside head
      rcases range with other | other
      · rw [← laid.outgoingRole.sets_length] at inside owned
        rw [incidenceRange, mem_range'_1, Nat.zero_add] at head other
        exact owner_unique (getElem?_bucket owned) (getElem?_bucket inside) other.1 other.2
          head.1 head.2
      · have := (bounds_of_mem_tailRange laid owned other).1
        omega
    · have above := (bounds_of_mem_tailRange laid inside tail).1
      rcases range with other | other
      · have := lt_of_mem_headRange laid owned other
        omega
      · rw [← laid.incomingRole.sets_length] at inside owned
        rw [incidenceRange, mem_range'_1] at tail other
        exact @owner_unique _ _ _ _ (toNat incidence - view.counts.pOutgoing) _ _
          (getElem?_bucket owned) (getElem?_bucket inside) (by omega) (by omega) (by omega)
          (by omega)
  rw [located, same]

-- When nothing panics.

/-- Tail incidences that run to their end without a panic fit the width. -/
theorem fits_of_targetIncidences (valid : toNat hyperedge < view.counts.hyperedgeCount)
    (runs : (view.targetIncidences hyperedge).isSome) :
    (tails.getD (toNat hyperedge) []).length = 0 ∨
      view.counts.pOutgoing + (tails.take (toNat hyperedge)).flatten.length +
        (tails.getD (toNat hyperedge) []).length ≤ LayoutIndex.bound O := by
  have bound := laid.incomingRole.set_end_le valid
  have total := total_eq laid
  have pOutgoing := pOutgoing_eq laid
  have fits := laid.counted.fits
  rw [← laid.incomingRole.sets_length] at valid
  unfold targetIncidences at runs
  simp only [indexToUsizeValidated_eq, Option.bind_eq_bind, Option.bind_some,
    participantSlice_eq laid.incomingRole.edges valid, BcsrParticipantSlice.run,
    Nat.add_sub_cancel_left] at runs
  obtain ⟨_, ended⟩ := Option.isSome_iff_exists.mp runs
  exact fits_of_participantsFrom (by omega) ended

/-- A hyperedge with a numbered incidence has an ID, for the owner of the incidence is asked for. -/
theorem named_of_noPanic (noPanic : view.traits.NoPanic) {index number : Nat}
    (inside : index < view.counts.hyperedgeCount) (numbered : number < LayoutIndex.bound O)
    (member : number ∈ incidenceRange heads 0 index ∨
      number ∈ incidenceRange tails view.counts.pOutgoing index) :
    index < LayoutIndex.bound R := by
  by_contra unnamed
  have total := laid.counted.total
  have valid : number < view.counts.totalIncidences := by
    rcases member with head | tail
    · have := lt_of_mem_headRange laid inside head
      omega
    · exact (bounds_of_mem_tailRange laid inside tail).2
  have slot : toNat (LayoutIndex.ofNat number : O) = number := toNat_ofNat number numbered
  rw [← slot] at valid member
  have runs := noPanic.incidenceRelation _ valid
  change (view.incidenceRelation _).isSome at runs
  rw [incidenceRelation_eq laid inside member,
    usizeToIndexValidated_eq_none (Nat.le_of_not_lt unnamed)] at runs
  cases runs

/-- A view whose methods never panic can number what its widths reach. -/
theorem narrowable_of_noPanic (noPanic : view.traits.NoPanic) : view.sections.Narrowable := by
  have out := laid.outgoingRole
  have inc := laid.incomingRole
  have total := total_eq laid
  have pOutgoing := pOutgoing_eq laid
  constructor
  · intro index start stop named starts stops some_tail
    obtain ⟨inside, rfl, rfl⟩ := inc.edges.window_bounds starts stops
    have slot : toNat (LayoutIndex.ofNat index : R) = index := toNat_ofNat index named
    have valid : toNat (LayoutIndex.ofNat index : R) < view.counts.hyperedgeCount := by
      rwa [slot, ← inc.sets_length]
    have fits := fits_of_targetIncidences laid valid (noPanic.targetIncidences _ valid)
    rw [slot] at fits
    omega
  · -- The first head incidence of a hyperedge has a number, so the hyperedge has one.
    intro index start stop unnamed starts stops
    by_contra some_head
    obtain ⟨inside, rfl, rfl⟩ := out.edges.window_bounds starts stops
    rw [out.sets_length] at inside
    have width := length_lt_bound out.edges
    have bound := out.set_end_le inside
    refine absurd (named_of_noPanic laid noPanic inside
      (show (heads.take index).flatten.length < _ by omega) (.inl ?_)) (Nat.not_lt.mpr unnamed)
    rw [incidenceRange, mem_range'_1]
    omega
  · -- The same holds of its first tail incidence, if that has a number.
    intro index start stop unnamed starts stops some_tail
    by_contra numbered
    obtain ⟨inside, rfl, rfl⟩ := inc.edges.window_bounds starts stops
    rw [inc.sets_length] at inside
    refine absurd (named_of_noPanic laid noPanic inside (Nat.lt_of_not_le numbered) (.inr ?_))
      (Nat.not_lt.mpr unnamed)
    rw [incidenceRange, mem_range'_1]
    omega

/-- Tail incidences of a narrowable hyperedge with an ID fit the width. -/
theorem tail_fits (narrowable : view.sections.Narrowable) {index : Nat}
    (inside : index < view.counts.hyperedgeCount) (named : index < LayoutIndex.bound R) :
    (tails.getD index []).length = 0 ∨
      view.counts.pOutgoing + (tails.take index).flatten.length +
        (tails.getD index []).length ≤ LayoutIndex.bound O := by
  rw [← laid.incomingRole.sets_length] at inside
  obtain ⟨starts, stops, _⟩ := laid.incomingRole.edges.bucket (getElem?_bucket inside)
  have fits := narrowable.tailIncidences index _ _ named starts stops
  rw [pOutgoing_eq laid]
  omega

/-- Every owner of a numbered incidence has an ID. -/
theorem owner_named (narrowable : view.sections.Narrowable) {index : Nat}
    (inside : index < view.counts.hyperedgeCount)
    (member : toNat incidence ∈ incidenceRange heads 0 index ∨
      toNat incidence ∈ incidenceRange tails view.counts.pOutgoing index) :
    index < LayoutIndex.bound R := by
  by_contra unnamed
  have unnamed := Nat.le_of_not_lt unnamed
  have width := toNat_lt incidence
  rcases member with head | tail
  · rw [← laid.outgoingRole.sets_length] at inside
    obtain ⟨starts, stops, _⟩ := laid.outgoingRole.edges.bucket (getElem?_bucket inside)
    have empty := narrowable.headOwners index _ _ unnamed starts stops
    rw [incidenceRange, mem_range'_1] at head
    omega
  · rw [← laid.incomingRole.sets_length] at inside
    obtain ⟨starts, stops, _⟩ := laid.incomingRole.edges.bucket (getElem?_bucket inside)
    have wide := narrowable.tailOwners index _ _ unnamed starts stops
    rw [incidenceRange, mem_range'_1, pOutgoing_eq laid] at tail
    omega

/-- A narrowable view never panics. -/
theorem noPanic_of_narrowable (narrowable : view.sections.Narrowable) :
    view.traits.NoPanic where
  elementIndex element := Option.isSome_of_eq_some (indexToUsizeValidated_eq element)
  relationIndex relation := Option.isSome_of_eq_some (indexToUsizeValidated_eq relation)
  incidenceIndex incidence := Option.isSome_of_eq_some (indexToUsizeValidated_eq incidence)
  containsElement element := Option.isSome_of_eq_some (containsElement_eq element)
  containsRelation relation := Option.isSome_of_eq_some (containsRelation_eq relation)
  containsIncidence incidence := Option.isSome_of_eq_some (containsIncidence_eq incidence)
  incidenceElement incidence valid := Option.isSome_of_eq_some (incidenceElement_eq laid valid)
  incidenceRelation incidence valid := by
    obtain ⟨owner, owned, located, range⟩ := incidenceRelation_spec laid valid
    rw [usizeToIndexValidated_eq (owner_named laid narrowable owned range)] at located
    exact Option.isSome_of_eq_some located
  incidenceRole incidence valid := Option.isSome_of_eq_some (incidenceRole_eq laid)
  sourceIncidences hyperedge valid := Option.isSome_of_eq_some (sourceIncidences_eq laid valid)
  targetIncidences hyperedge valid := Option.isSome_of_eq_some (targetIncidences_eq laid valid
    (tail_fits laid narrowable valid (toNat_lt hyperedge)))
  relationIncidences relation valid := Option.isSome_of_eq_some (relationIncidences_eq laid valid
    (tail_fits laid narrowable valid (toNat_lt relation)))
  relationIncidenceCount relation valid := Option.isSome_of_eq_some (relationIncidenceCount_eq laid valid)
  elementIncidences element valid := by
    refine Option.isSome_of_eq_some (elementIncidences_eq laid valid ?_)
    intro index listed member
    -- The list holds words of hyperedge IDs, so the hyperedge has one.
    rw [← laid.incomingRole.words_eq valid] at listed
    obtain ⟨word, stored, rfl⟩ := List.mem_map.mp listed
    have fits := tail_fits laid narrowable (laid.incomingRole.word_below valid word stored).2
      (toNat_lt word)
    have position := positionOf_lt member
    have some_tail := List.length_pos_of_mem member
    omega
  elementIncidenceCount element valid := Option.isSome_of_eq_some (elementIncidenceCount_eq laid valid)
  sourceParticipants hyperedge valid := Option.isSome_of_eq_some (sourceParticipants_eq laid valid)
  targetParticipants hyperedge valid := Option.isSome_of_eq_some (targetParticipants_eq laid valid)
  hyperedgeParticipants hyperedge valid := Option.isSome_of_eq_some (hyperedgeParticipants_eq laid valid)
  outgoingHyperedges vertex valid := Option.isSome_of_eq_some (outgoingHyperedges_eq laid valid)
  incomingHyperedges vertex valid := Option.isSome_of_eq_some (incomingHyperedges_eq laid valid)
  incidentHyperedges vertex valid := Option.isSome_of_eq_some (incidentHyperedges_eq laid valid)
  elementSuccessors vertex valid := Option.isSome_of_eq_some (elementSuccessors_eq laid valid)
  elementPredecessors vertex valid := Option.isSome_of_eq_some (elementPredecessors_eq laid valid)

omit laid in
/-- A hyperedge that a vertex lists back has an ID. -/
theorem named_of_mirrored {offsets : List O} {hyperedges : List R} {sets relations : List (List Nat)}
    (vertices : Indexed offsets hyperedges relations) (mirrored : Mirrored sets relations)
    (below : ∀ set ∈ sets, ∀ vertex ∈ set, vertex < relations.length) {index : Nat}
    {bucket : List Nat} (located : sets[index]? = some bucket) (occupied : 0 < bucket.length) :
    index < LayoutIndex.bound R := by
  have member := List.getElem_mem occupied
  have inside := below _ (mem_of_getElem? located) _ member
  have found := getElem?_bucket inside
  have listed := mirrored index bucket located _ member _ found
  have words : ∀ value ∈ hyperedges.map toNat, value < LayoutIndex.bound R := by
    intro value stored
    obtain ⟨word, _, rfl⟩ := List.mem_map.mp stored
    exact toNat_lt word
  exact vertices.forall_values.mp words _ (mem_of_getElem? found) index listed

/-- A strict view is narrowable exactly when it has no tail or its total can be numbered. -/
theorem narrowable_strict_iff (mirrored : AllMirrored heads tails outgoing incoming) :
    view.sections.Narrowable ↔ view.sections.tailParticipants = [] ∨
      view.sections.headParticipants.length + view.sections.tailParticipants.length ≤
        LayoutIndex.bound O := by
  have out := laid.outgoingRole
  have inc := laid.incomingRole
  have headBelow := out.edges.forall_values.mp out.verticesBelow
  have tailBelow := inc.edges.forall_values.mp inc.verticesBelow
  rw [← out.relations_length] at headBelow
  rw [← inc.relations_length] at tailBelow
  constructor
  · intro narrowable
    by_cases none : view.sections.tailParticipants = []
    · exact .inl none
    · -- The last tail incidence belongs to a hyperedge whose tail ends with the participants.
      have some_tail := List.length_pos_iff.mpr none
      obtain ⟨index, bucket, located, start, stop⟩ :=
        @Flattened.owner _ _ _ _ inc.edges (view.sections.tailParticipants.length - 1)
          (by rw [length_map]; omega)
      obtain ⟨starts, stops, _⟩ := inc.edges.bucket located
      have named := named_of_mirrored inc.vertices mirrored.ofTails tailBelow located (by omega)
      have fits := narrowable.tailIncidences index _ _ named starts stops (by omega)
      exact .inr (by omega)
  · intro either
    constructor
    · intro index start stop named starts stops some_tail
      obtain ⟨inside, rfl, rfl⟩ := inc.edges.window_bounds starts stops
      have bound := inc.set_end_le (inc.sets_length ▸ inside)
      rcases either with none | fits
      · rw [none, List.length_nil] at bound
        omega
      · omega
    · intro index start stop unnamed starts stops
      by_contra some_head
      obtain ⟨inside, rfl, rfl⟩ := out.edges.window_bounds starts stops
      have named := named_of_mirrored out.vertices mirrored.ofHeads headBelow
        (getElem?_bucket inside) (by omega)
      omega
    · intro index start stop unnamed starts stops some_tail
      obtain ⟨inside, rfl, rfl⟩ := inc.edges.window_bounds starts stops
      have named := named_of_mirrored inc.vertices mirrored.ofTails tailBelow
        (getElem?_bucket inside) (by omega)
      omega

end BcsrHypergraph

/-- Naming sides differently changes no panic. -/
theorem HyperTraits.noPanic_mapRole {Role Name : Type} {traits : HyperTraits V R O Role}
    {rename : Role → Name} : (traits.mapRole rename).NoPanic ↔ traits.NoPanic := by
  constructor
  · intro noPanic
    exact { noPanic with
      incidenceRole := fun incidence valid => by
        have runs := noPanic.incidenceRole incidence valid
        exact Option.isSome_map ▸ runs }
  · intro noPanic
    exact { noPanic with
      incidenceRole := fun incidence valid => by
        have runs := noPanic.incidenceRole incidence valid
        exact Option.isSome_map.symm ▸ runs }

end

end Oxgraph.Bcsr
