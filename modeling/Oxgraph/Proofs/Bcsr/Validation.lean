import Oxgraph.Spec.Hypergraph

/-! What each check of the hypergraph validation accepts. -/

namespace Oxgraph.Bcsr

open Layout
open List (length_map mem_map)

section

variable {I J : Type} [LayoutIndex I] [LayoutIndex J]

/-- An index always converts to its slot. -/
@[simp] theorem indexToUsize_eq (index : I) : indexToUsize index = .ok (toNat index) := by
  rw [indexToUsize, toUsize_eq]

/-- A slot is read exactly when the position is inside the words. -/
theorem slotAt_eq_pure {words : List I} {index slot : Nat} :
    slotAt words index = pure slot ↔ (words.map toNat)[index]? = some slot := by
  unfold slotAt
  rw [Fallible.bind_eq_pure, List.getElem?_map, Option.map_eq_some_iff]
  simp only [Fallible.orPanic_eq_pure, Fallible.ofResult_eq_pure, indexToUsize_eq,
    Except.ok.injEq]

variable {name : BcsrSection} {offsets : List I}

/-- An offset section passes exactly when it holds that many buckets of its values. -/
theorem validateOneOffsets_eq_pure {values : List J} {count : Nat} :
    validateOneOffsets offsets name count values.length = pure () ↔
      count + 1 < usizeBound ∧ ∃ buckets, buckets.length = count ∧
        Indexed offsets values buckets := by
  unfold validateOneOffsets
  cases added : checkedAdd count 1 with
  | none =>
    constructor
    · intro raised
      exact absurd raised Fallible.throw_ne_pure
    · rintro ⟨fits, _⟩
      rw [checkedAdd_eq_some.mpr ⟨rfl, fits⟩] at added
      cases added
  | some _ => exact Fallible.adapt_eq_pure.trans checkOffsetSection_eq_pure

variable {values : List I}

/-- The range check passes exactly when every vertex is below the count. -/
theorem checkVertexValues_eq_ok {count : Nat} :
    checkVertexValues values name count = .ok () ↔ ∀ value ∈ values.map toNat, value < count :=
  mapError_eq_ok.trans checkValueRange_eq_ok

/-- The range check passes exactly when every hyperedge is below the count. -/
theorem checkHyperedgeValues_eq_ok {count : Nat} :
    checkHyperedgeValues values name count = .ok () ↔ ∀ value ∈ values.map toNat, value < count :=
  mapError_eq_ok.trans checkValueRange_eq_ok

-- Ascending buckets.

/-- The walk passes exactly when the values it visits ascend from the one before. -/
theorem checkAscendingFrom_eq_pure {index previous remaining : Nat}
    (inside : index + remaining ≤ values.length) :
    checkAscendingFrom values name index previous remaining = pure () ↔
      (previous :: ((values.map toNat).drop index).take remaining).Pairwise (· < ·) := by
  induction remaining generalizing index previous with
  | zero => simp [checkAscendingFrom]
  | succ remaining ih =>
    have bound : index < (values.map toNat).length := by rw [length_map]; omega
    have read : slotAt values index = pure (values.map toNat)[index] :=
      slotAt_eq_pure.mpr (List.getElem?_eq_getElem bound)
    rw [checkAscendingFrom, List.drop_eq_getElem_cons bound, List.take_succ_cons, read, pure_bind]
    generalize (values.map toNat)[index] = actual
    split
    · rename_i descends
      constructor
      · intro raised
        exact absurd raised Fallible.throw_ne_pure
      · intro ascending
        have step := List.rel_of_pairwise_cons ascending List.mem_cons_self
        omega
    · rename_i ascends
      have ascends : previous < actual := Nat.lt_of_not_le ascends
      rw [ih (by omega)]
      constructor
      · intro later
        refine List.pairwise_cons.mpr ⟨?_, later⟩
        intro other member
        rcases List.mem_cons.mp member with rfl | after
        · exact ascends
        · exact Nat.lt_trans ascends (List.rel_of_pairwise_cons later after)
      · intro whole
        exact (List.pairwise_cons.mp whole).2

/-- A range passes exactly when its values ascend. -/
theorem checkStrictlyAscendingRange_eq_pure {start stop : Nat} (inside : stop ≤ values.length) :
    checkStrictlyAscendingRange values start stop name = pure () ↔
      (((values.map toNat).drop start).take (stop - start)).Pairwise (· < ·) := by
  unfold checkStrictlyAscendingRange
  by_cases short : stop ≤ start + 1
  · rw [if_pos short]
    refine ⟨fun _ => ?_, fun _ => rfl⟩
    have few : (((values.map toNat).drop start).take (stop - start)).length ≤ 1 := by
      rw [List.length_take]
      omega
    generalize ((values.map toNat).drop start).take (stop - start) = bucket at few
    match bucket with
    | [] => exact .nil
    | [_] => exact List.pairwise_singleton _ _
  · have bound : start < (values.map toNat).length := by rw [length_map]; omega
    have read : slotAt values start = pure (values.map toNat)[start] :=
      slotAt_eq_pure.mpr (List.getElem?_eq_getElem bound)
    have size : stop - start = (stop - start - 1) + 1 := by omega
    rw [if_neg short, read, pure_bind, checkAscendingFrom_eq_pure (by omega), size,
      List.drop_eq_getElem_cons bound, List.take_succ_cons, Nat.add_sub_cancel]

/-- The check passes exactly when every bucket ascends. -/
theorem checkStrictlyAscendingBuckets_eq_pure {values : List J} {buckets : List (List Nat)}
    (flat : Indexed offsets values buckets) :
    checkStrictlyAscendingBuckets offsets values name = pure () ↔
      ∀ bucket ∈ buckets, bucket.Pairwise (· < ·) := by
  have length := flat.length_offsets
  rw [length_map] at length
  unfold checkStrictlyAscendingBuckets
  by_cases few : offsets.length < 2
  · rw [if_pos few]
    obtain rfl : buckets = [] := List.eq_nil_of_length_eq_zero (by omega)
    exact ⟨fun _ _ none => (nomatch none), fun _ => rfl⟩
  · rw [if_neg few, Fallible.forM_eq_pure]
    simp only [indexToUsize_eq, Fallible.ofResult_ok, pure_bind]
    refine (forall_windows fun start stop =>
      checkStrictlyAscendingRange values (toNat start) (toNat stop) name = pure ()).trans ?_
    have words (index : Nat) (word : I) (read : offsets[index]? = some word) :
        (offsets.map toNat)[index]? = some (toNat word) := by
      rw [List.getElem?_map, read, Option.map_some]
    constructor
    · intro ranges bucket member
      obtain ⟨index, located⟩ := List.mem_iff_getElem?.mp member
      obtain ⟨inside, _⟩ := List.getElem?_eq_some_iff.mp located
      have first := List.getElem?_eq_getElem (l := offsets) (i := index) (by omega)
      have second := List.getElem?_eq_getElem (l := offsets) (i := index + 1) (by omega)
      have passes := ranges index _ _ first second
      obtain ⟨same, found, _, inside, content⟩ :=
        flat.window (words _ _ first) (words _ _ second)
      obtain rfl := Option.some.inj (located.symm.trans found)
      rw [length_map] at inside
      rwa [checkStrictlyAscendingRange_eq_pure inside, content] at passes
    · intro ascending index start stop first second
      obtain ⟨bucket, located, _, inside, content⟩ :=
        flat.window (words _ _ first) (words _ _ second)
      rw [length_map] at inside
      rw [checkStrictlyAscendingRange_eq_pure inside, content]
      exact ascending bucket (List.mem_of_getElem? located)

-- Cross-direction membership.

/-- Searching an ascending bucket of words answers whether it holds a slot. -/
theorem search_ascending {words : List I} (ascending : (words.map toNat).Pairwise (· < ·))
    (needle : Nat) :
    (binarySearchBy words fun word => compare (toNat word) needle).isSome ↔
      needle ∈ words.map toNat := by
  have sorted : Ascending (words.map toNat) := ascending.imp fun less => Nat.compare_eq_lt.mpr less
  have found := binarySearchBy_spec (monotone_of_ascending sorted needle)
  rw [mem_map]
  cases search : binarySearchBy words fun word => compare (toNat word) needle with
  | some index =>
    rw [search] at found
    obtain ⟨word, read, equal⟩ := found
    exact ⟨fun _ => ⟨word, List.mem_of_getElem? read, Nat.compare_eq_eq.mp equal⟩, fun _ => rfl⟩
  | none =>
    rw [search] at found
    constructor
    · rintro ⟨⟩
    · rintro ⟨word, member, rfl⟩
      exact absurd (Nat.compare_eq_eq.mpr rfl) (found word member)

/-- An owner's bucket lists an item exactly when the check passes. -/
theorem checkListed_eq_pure {values : List J} {buckets : List (List Nat)}
    (flat : Indexed offsets values buckets)
    (ascending : ∀ bucket ∈ buckets, bucket.Pairwise (· < ·)) {owner item : Nat}
    {error : BcsrError} {bucket : List Nat} (located : buckets[owner]? = some bucket) :
    checkListed offsets values owner item error = pure () ↔ item ∈ bucket := by
  obtain ⟨starts, stops, inside, content⟩ := flat.bucket located
  rw [length_map] at inside
  unfold checkListed
  rw [slotAt_eq_pure.mpr starts, slotAt_eq_pure.mpr stops, pure_bind, pure_bind]
  have slice : sliceOf values (buckets.take owner).flatten.length
      ((buckets.take owner).flatten.length + bucket.length) =
      some ((values.drop (buckets.take owner).flatten.length).take bucket.length) := by
    rw [sliceOf, if_pos ⟨Nat.le_add_right _ _, inside⟩, Nat.add_sub_cancel_left]
  rw [← List.map_drop, ← List.map_take] at content
  have sorted := ascending bucket (List.mem_of_getElem? located)
  rw [← content] at sorted
  have search := search_ascending sorted item
  rw [content] at search
  unfold bucketContains
  rw [slice, Option.bind_eq_bind, Option.bind_some, ← search]
  cases (binarySearchBy ((values.drop _).take _) _).isSome with
  | true => exact ⟨fun _ => rfl, fun _ => rfl⟩
  | false => exact ⟨fun raised => absurd raised Fallible.throw_ne_pure, fun never => absurd never Bool.false_ne_true⟩

/-- Every bucket's items name owners on the other side that list the bucket back. -/
def Mirrored (buckets others : List (List Nat)) : Prop :=
  ∀ (owner : Nat) (bucket : List Nat), buckets[owner]? = some bucket → ∀ item ∈ bucket,
    ∀ other, others[item]? = some other → owner ∈ other

/-- A walk over the buckets of one side passes exactly when the other side mirrors it. -/
theorem walk_eq_pure {A B C D : Type} [LayoutIndex A] [LayoutIndex B] [LayoutIndex C]
    [LayoutIndex D] {offsets : List A} {values : List B} {otherOffsets : List C}
    {otherValues : List D} {buckets others : List (List Nat)}
    (flat : Indexed offsets values buckets) (otherFlat : Indexed otherOffsets otherValues others)
    (below : ∀ value ∈ values.map toNat, value < others.length)
    (ascending : ∀ bucket ∈ others, bucket.Pairwise (· < ·)) {error : Nat → Nat → BcsrError} :
    (if offsets.length < 2 then (return () : Fallible BcsrError Unit)
      else (List.range (offsets.length - 1)).forM fun owner => do
        let start ← slotAt offsets owner
        let stop ← slotAt offsets (owner + 1)
        ((values.take stop).drop start).forM fun word => do
          let item ← .ofResult (indexToUsize word)
          checkListed otherOffsets otherValues item owner (error owner item)) = pure () ↔
      Mirrored buckets others := by
  have length := flat.length_offsets
  rw [length_map] at length
  -- One bucket passes exactly when every item of it is mirrored.
  have one (owner : Nat) (bucket : List Nat) (located : buckets[owner]? = some bucket) :
      (do
        let start ← slotAt offsets owner
        let stop ← slotAt offsets (owner + 1)
        ((values.take stop).drop start).forM fun word => do
          let item ← .ofResult (indexToUsize word)
          checkListed otherOffsets otherValues item owner (error owner item)) =
            (pure () : Fallible BcsrError Unit) ↔
        ∀ item ∈ bucket, ∀ other, others[item]? = some other → owner ∈ other := by
    obtain ⟨starts, stops, inside, content⟩ := flat.bucket located
    rw [slotAt_eq_pure.mpr starts, slotAt_eq_pure.mpr stops, pure_bind, pure_bind,
      List.drop_take, Nat.add_sub_cancel_left, Fallible.forM_eq_pure]
    simp only [indexToUsize_eq, Fallible.ofResult_ok, pure_bind]
    rw [← List.map_drop, ← List.map_take] at content
    refine Iff.trans ?_ (content ▸ List.forall_mem_map.symm)
    refine forall₂_congr fun word member => ?_
    have inside : toNat word < others.length :=
      below _ (List.mem_map_of_mem (List.mem_of_mem_drop (List.mem_of_mem_take member)))
    have found := List.getElem?_eq_getElem inside
    rw [checkListed_eq_pure otherFlat ascending found, found]
    simp
  by_cases few : offsets.length < 2
  · obtain rfl : buckets = [] := List.eq_nil_of_length_eq_zero (by omega)
    rw [if_pos few]
    refine ⟨fun _ owner bucket located => ?_, fun _ => rfl⟩
    simp at located
  · rw [if_neg few, Fallible.forM_eq_pure]
    constructor
    · intro all owner bucket located
      obtain ⟨inside, _⟩ := List.getElem?_eq_some_iff.mp located
      exact (one owner bucket located).mp (all owner (List.mem_range.mpr (by omega)))
    · intro mirrored owner member
      have inside : owner < buckets.length := by
        have := List.mem_range.mp member
        omega
      have located := List.getElem?_eq_getElem inside
      exact (one owner _ located).mpr (mirrored owner _ located)

end

section

variable {V R O : Type} [LayoutIndex V] [LayoutIndex R] [LayoutIndex O] {vertexOffsets : List O}
  {vertexValues : List R} {sets relations : List (List Nat)} {edgeOffsets : List O}
  {edgeValues : List V}

/-- Walking the hyperedges passes exactly when the vertices mirror them. -/
theorem crossDirectionWalk_eq_pure (edges : Indexed edgeOffsets edgeValues sets)
    (vertices : Indexed vertexOffsets vertexValues relations)
    (below : ∀ value ∈ edgeValues.map toNat, value < relations.length)
    (ascending : ∀ bucket ∈ relations, bucket.Pairwise (· < ·)) {side : BcsrRoleSide} :
    crossDirectionWalk edgeOffsets edgeValues vertexOffsets vertexValues side = pure () ↔
      Mirrored sets relations := by
  unfold crossDirectionWalk crossDirectionCheckBucket
  exact walk_eq_pure edges vertices below ascending

/-- Walking the vertices passes exactly when the hyperedges mirror them. -/
theorem converseDirectionWalk_eq_pure (edges : Indexed edgeOffsets edgeValues sets)
    (vertices : Indexed vertexOffsets vertexValues relations)
    (below : ∀ value ∈ vertexValues.map toNat, value < sets.length)
    (ascending : ∀ bucket ∈ sets, bucket.Pairwise (· < ·)) {side : BcsrRoleSide} :
    converseDirectionWalk vertexOffsets vertexValues edgeOffsets edgeValues side = pure () ↔
      Mirrored relations sets := by
  unfold converseDirectionWalk
  exact walk_eq_pure vertices edges below ascending

-- All checks together.

/-- The counts that the lengths of the eight sections determine. -/
structure DerivedCounts.Of (counts : DerivedCounts) (sections : BcsrSections V R O) : Prop where
  headOffsets : sections.headOffsets.length = counts.hyperedgeCount + 1
  tailOffsets : sections.tailOffsets.length = counts.hyperedgeCount + 1
  outgoingOffsets : sections.vertexOutgoingOffsets.length = counts.vertexCount + 1
  incomingOffsets : sections.vertexIncomingOffsets.length = counts.vertexCount + 1
  pOutgoing : counts.pOutgoing = sections.vertexOutgoingHyperedges.length
  pIncoming : counts.pIncoming = sections.vertexIncomingHyperedges.length
  total : counts.pOutgoing + counts.pIncoming = counts.totalIncidences
  fits : counts.totalIncidences < usizeBound

/-- One less than a number of offsets is derived exactly when there are that many. -/
theorem deriveCountFromOffsets_eq_ok {length count : Nat} {name : BcsrSection} :
    deriveCountFromOffsets length name = .ok count ↔ length = count + 1 := by
  unfold deriveCountFromOffsets
  by_cases none : length = 0
  · rw [if_pos none]
    constructor
    · rintro ⟨⟩
    · intro more
      omega
  · rw [if_neg none, Except.ok.injEq]
    omega

variable {sections : BcsrSections V R O} {counts : DerivedCounts}

omit [LayoutIndex V] [LayoutIndex R] [LayoutIndex O] in
/-- Counts are derived exactly when paired offsets agree in length and the total fits. -/
theorem deriveCounts_eq_ok : deriveCounts sections = .ok counts ↔ counts.Of sections := by
  unfold deriveCounts
  constructor
  · intro derived
    dsimp only at derived
    split at derived
    · cases derived
    · rename_i edges
      split at derived
      · cases derived
      · rename_i vertices
        obtain ⟨hyperedgeCount, first, derived⟩ := bind_eq_ok.mp derived
        obtain ⟨vertexCount, second, derived⟩ := bind_eq_ok.mp derived
        rw [deriveCountFromOffsets_eq_ok] at first second
        rw [not_not] at edges vertices
        split at derived
        · cases derived
        · rename_i added
          obtain ⟨total, fits⟩ := checkedAdd_eq_some.mp added
          cases derived
          exact ⟨first, edges ▸ first, second, vertices ▸ second, rfl, rfl, total, fits⟩
  · rintro ⟨first, second, third, fourth, pOutgoing, pIncoming, total, fits⟩
    obtain ⟨vertexCount, hyperedgeCount, _, _, _⟩ := counts
    dsimp only at first second third fourth pOutgoing pIncoming total fits ⊢
    subst pOutgoing pIncoming
    rw [if_neg (not_not.mpr (first.trans second.symm)),
      if_neg (not_not.mpr (third.trans fourth.symm)),
      deriveCountFromOffsets_eq_ok.mpr first, deriveCountFromOffsets_eq_ok.mpr third,
      checkedAdd_eq_some.mpr ⟨total, fits⟩]
    rfl

/-- The two directions of one role agree on everything but their order. -/
structure RoleLaidOut (vertexCount hyperedgeCount : Nat) (edgeOffsets : List O)
    (edgeValues : List V) (vertexOffsets : List O) (vertexValues : List R)
    (sets relations : List (List Nat)) : Prop where
  edges : Indexed edgeOffsets edgeValues sets
  vertices : Indexed vertexOffsets vertexValues relations
  sets_length : sets.length = hyperedgeCount
  relations_length : relations.length = vertexCount
  totals : edgeValues.length = vertexValues.length
  verticesBelow : ∀ vertex ∈ edgeValues.map toNat, vertex < vertexCount
  hyperedgesBelow : ∀ hyperedge ∈ vertexValues.map toNat, hyperedge < hyperedgeCount
  setsAscending : ∀ set ∈ sets, set.Pairwise (· < ·)
  relationsAscending : ∀ bucket ∈ relations, bucket.Pairwise (· < ·)

/-- The buckets of sections that pass every check of the layout level. -/
structure LaidOut (sections : BcsrSections V R O) (counts : DerivedCounts)
    (heads tails outgoing incoming : List (List Nat)) : Prop where
  counted : counts.Of sections
  hyperedgesFit : counts.hyperedgeCount + 1 < usizeBound
  verticesFit : counts.vertexCount + 1 < usizeBound
  outgoingRole : RoleLaidOut counts.vertexCount counts.hyperedgeCount sections.headOffsets
    sections.headParticipants sections.vertexOutgoingOffsets sections.vertexOutgoingHyperedges
    heads outgoing
  incomingRole : RoleLaidOut counts.vertexCount counts.hyperedgeCount sections.tailOffsets
    sections.tailParticipants sections.vertexIncomingOffsets sections.vertexIncomingHyperedges
    tails incoming

omit [LayoutIndex V] [LayoutIndex R] [LayoutIndex O] in
/-- The totals pass exactly when both roles have as many entries in both directions. -/
theorem validateTotalLengths_eq_ok :
    validateTotalLengths sections = .ok () ↔
      sections.headParticipants.length = sections.vertexOutgoingHyperedges.length ∧
        sections.tailParticipants.length = sections.vertexIncomingHyperedges.length := by
  unfold validateTotalLengths
  split
  · rename_i differ
    exact ⟨fun never => (nomatch never), fun both => absurd both.1 differ⟩
  · rename_i first
    split
    · rename_i differ
      exact ⟨fun never => (nomatch never), fun both => absurd both.2 differ⟩
    · rename_i second
      exact ⟨fun _ => ⟨not_not.mp first, not_not.mp second⟩, fun _ => rfl⟩

/-- The cross-direction check passes exactly when both directions of both roles mirror. -/
structure AllMirrored (heads tails outgoing incoming : List (List Nat)) : Prop where
  ofHeads : Mirrored heads outgoing
  ofTails : Mirrored tails incoming
  ofOutgoing : Mirrored outgoing heads
  ofIncoming : Mirrored incoming tails

/-- The walks of both roles in both directions pass exactly when everything is mirrored. -/
theorem validateCrossDirection_eq_pure {heads tails outgoing incoming : List (List Nat)}
    (laid : LaidOut sections counts heads tails outgoing incoming) :
    validateCrossDirection sections = pure () ↔ AllMirrored heads tails outgoing incoming := by
  have out := laid.outgoingRole
  have inc := laid.incomingRole
  unfold validateCrossDirection
  simp only [Fallible.seq_eq_pure]
  rw [crossDirectionWalk_eq_pure out.edges out.vertices
      (by rw [out.relations_length]; exact out.verticesBelow) out.relationsAscending,
    crossDirectionWalk_eq_pure inc.edges inc.vertices
      (by rw [inc.relations_length]; exact inc.verticesBelow) inc.relationsAscending,
    converseDirectionWalk_eq_pure out.edges out.vertices
      (by rw [out.sets_length]; exact out.hyperedgesBelow) out.setsAscending,
    converseDirectionWalk_eq_pure inc.edges inc.vertices
      (by rw [inc.sets_length]; exact inc.hyperedgesBelow) inc.setsAscending]
  constructor
  · rintro ⟨ofHeads, ofTails, ofOutgoing, ofIncoming⟩
    exact ⟨ofHeads, ofTails, ofOutgoing, ofIncoming⟩
  · rintro ⟨ofHeads, ofTails, ofOutgoing, ofIncoming⟩
    exact ⟨ofHeads, ofTails, ofOutgoing, ofIncoming⟩

/-- Validation returns counts exactly when the sections are laid out, and mirrored when strict. -/
theorem validateSections_eq_pure {level : BcsrValidation} :
    validateSections sections level = pure counts ↔
      ∃ heads tails outgoing incoming, LaidOut sections counts heads tails outgoing incoming ∧
        (level = .strict → AllMirrored heads tails outgoing incoming) := by
  unfold validateSections validateAllOffsets validateValueRanges validateWithinRangeSorted
  rw [Fallible.bind_eq_pure]
  simp only [Fallible.seq_eq_pure, Fallible.ofResult_eq_pure, seq_eq_ok, deriveCounts_eq_ok,
    validateOneOffsets_eq_pure, validateTotalLengths_eq_ok, checkVertexValues_eq_ok,
    checkHyperedgeValues_eq_ok]
  -- The checks give the buckets one array after the other; strictness adds the mirror.
  constructor
  · rintro ⟨derived, counted, offsets, totals, ranges, sorted, last⟩
    obtain ⟨headsFit, tailsFit, outgoingFit, incomingFit⟩ := offsets
    obtain ⟨hyperedgesFit, heads, headsLength, headsFlat⟩ := headsFit
    obtain ⟨_, tails, tailsLength, tailsFlat⟩ := tailsFit
    obtain ⟨verticesFit, outgoing, outgoingLength, outgoingFlat⟩ := outgoingFit
    obtain ⟨_, incoming, incomingLength, incomingFlat⟩ := incomingFit
    obtain ⟨headVertices, tailVertices, outgoingEdges, incomingEdges⟩ := ranges
    rw [checkStrictlyAscendingBuckets_eq_pure headsFlat,
      checkStrictlyAscendingBuckets_eq_pure tailsFlat,
      checkStrictlyAscendingBuckets_eq_pure outgoingFlat,
      checkStrictlyAscendingBuckets_eq_pure incomingFlat] at sorted
    obtain ⟨headsSorted, tailsSorted, outgoingSorted, incomingSorted⟩ := sorted
    have laid : LaidOut sections derived heads tails outgoing incoming :=
      { counted, hyperedgesFit, verticesFit,
        outgoingRole := ⟨headsFlat, outgoingFlat, headsLength, outgoingLength, totals.1,
          headVertices, outgoingEdges, headsSorted, outgoingSorted⟩
        incomingRole := ⟨tailsFlat, incomingFlat, tailsLength, incomingLength, totals.2,
          tailVertices, incomingEdges, tailsSorted, incomingSorted⟩ }
    split at last
    · rw [Fallible.seq_eq_pure, validateCrossDirection_eq_pure laid, Fallible.pure_eq_pure] at last
      obtain ⟨mirrored, rfl⟩ := last
      exact ⟨heads, tails, outgoing, incoming, laid, fun _ => mirrored⟩
    · rename_i layout
      obtain rfl := Fallible.pure_eq_pure.mp last
      exact ⟨heads, tails, outgoing, incoming, laid, fun strict => absurd strict layout⟩
  · rintro ⟨heads, tails, outgoing, incoming, laid, mirrored⟩
    have out := laid.outgoingRole
    have inc := laid.incomingRole
    refine ⟨counts, laid.counted, ⟨⟨laid.hyperedgesFit, heads, out.sets_length, out.edges⟩,
      ⟨laid.hyperedgesFit, tails, inc.sets_length, inc.edges⟩,
      ⟨laid.verticesFit, outgoing, out.relations_length, out.vertices⟩,
      ⟨laid.verticesFit, incoming, inc.relations_length, inc.vertices⟩⟩,
      ⟨out.totals, inc.totals⟩,
      ⟨out.verticesBelow, inc.verticesBelow, out.hyperedgesBelow, inc.hyperedgesBelow⟩,
      ⟨(checkStrictlyAscendingBuckets_eq_pure out.edges).mpr out.setsAscending,
        (checkStrictlyAscendingBuckets_eq_pure inc.edges).mpr inc.setsAscending,
        (checkStrictlyAscendingBuckets_eq_pure out.vertices).mpr out.relationsAscending,
        (checkStrictlyAscendingBuckets_eq_pure inc.vertices).mpr inc.relationsAscending⟩, ?_⟩
    split
    · rename_i strict
      rw [Fallible.seq_eq_pure, validateCrossDirection_eq_pure laid]
      exact ⟨mirrored strict, rfl⟩
    · rfl

-- The canonical encodings.

/-- Sets of each side that pair up and fit are those of a list of hyperedges. -/
theorem exists_hyperedges {vertexCount : Nat} {heads tails : List (List Nat)}
    (paired : heads.length = tails.length)
    (headsAscending : ∀ set ∈ heads, set.Pairwise (· < ·))
    (tailsAscending : ∀ set ∈ tails, set.Pairwise (· < ·))
    (headsBelow : ∀ set ∈ heads, ∀ vertex ∈ set, vertex < vertexCount)
    (tailsBelow : ∀ set ∈ tails, ∀ vertex ∈ set, vertex < vertexCount) :
    ∃ hyperedges : List (Hyperedge vertexCount),
      Hypergraph.heads ⟨vertexCount, hyperedges⟩ = heads ∧
        Hypergraph.tails ⟨vertexCount, hyperedges⟩ = tails := by
  induction heads generalizing tails with
  | nil =>
    obtain rfl : tails = [] := List.eq_nil_of_length_eq_zero paired.symm
    exact ⟨[], rfl, rfl⟩
  | cons head heads ih =>
    cases tails with
    | nil => cases paired
    | cons tail tails =>
      rw [List.forall_mem_cons] at headsAscending tailsAscending headsBelow tailsBelow
      obtain ⟨hyperedges, rfl, rfl⟩ := ih (Nat.succ.inj paired) headsAscending.2 tailsAscending.2
        headsBelow.2 tailsBelow.2
      exact ⟨⟨⟨head, headsAscending.1, headsBelow.1⟩, ⟨tail, tailsAscending.1, tailsBelow.1⟩⟩ ::
        hyperedges, rfl, rfl⟩

/-- Relations that mirror the sets and are mirrored by them are their transpose. -/
theorem RoleLaidOut.eq_transpose {vertexCount hyperedgeCount : Nat}
    (laid : RoleLaidOut vertexCount hyperedgeCount edgeOffsets edgeValues vertexOffsets
      vertexValues sets relations) (forward : Mirrored sets relations)
    (backward : Mirrored relations sets) : relations = transpose vertexCount sets := by
  refine Oxgraph.eq_transpose laid.relations_length laid.relationsAscending ?_
  intro vertex bucket located hyperedge
  constructor
  · intro member
    have inside : hyperedge < sets.length := by
      rw [laid.sets_length]
      exact laid.vertices.forall_values.mp laid.hyperedgesBelow bucket
        (List.mem_of_getElem? located) hyperedge member
    have found := List.getElem?_eq_getElem inside
    exact ⟨_, found, backward vertex bucket located hyperedge member _ found⟩
  · rintro ⟨set, found, member⟩
    exact forward hyperedge set found vertex member bucket located

/-- Ascending sets and their transpose are laid out in both directions, and mirror each other. -/
theorem RoleLaidOut.of_transpose {vertexCount : Nat} {sets : List (List Nat)}
    (edges : Indexed edgeOffsets edgeValues sets)
    (vertices : Indexed vertexOffsets vertexValues (transpose vertexCount sets))
    (ascending : ∀ set ∈ sets, set.Pairwise (· < ·))
    (below : ∀ set ∈ sets, ∀ vertex ∈ set, vertex < vertexCount) :
    RoleLaidOut vertexCount sets.length edgeOffsets edgeValues vertexOffsets vertexValues sets
      (transpose vertexCount sets) where
  edges := edges
  vertices := vertices
  sets_length := rfl
  relations_length := length_transpose vertexCount sets
  totals := by
    rw [← @length_map _ _ edgeValues toNat, ← @length_map _ _ vertexValues toNat,
      edges.values, vertices.values,
      length_flatten_transpose (fun set member => (ascending set member).nodup) below]
  verticesBelow := edges.forall_values.mpr below
  hyperedgesBelow := by
    refine vertices.forall_values.mpr fun bucket member hyperedge listed => ?_
    obtain ⟨vertex, _, rfl⟩ := mem_map.mp member
    obtain ⟨_, found, _⟩ := mem_occurrences.mp listed
    exact (List.getElem?_eq_some_iff.mp found).1
  setsAscending := ascending
  relationsAscending := by
    intro bucket member
    obtain ⟨vertex, _, rfl⟩ := mem_map.mp member
    exact occurrences_ascending sets vertex

/-- Sets are mirrored by their transpose. -/
theorem mirrored_transpose (vertexCount : Nat) (sets : List (List Nat)) :
    Mirrored sets (transpose vertexCount sets) := by
  intro hyperedge set located vertex member bucket found
  have inside := (List.getElem?_eq_some_iff.mp found).1
  rw [length_transpose] at inside
  obtain rfl := Option.some.inj ((getElem?_transpose sets inside).symm.trans found)
  exact mem_occurrences.mpr ⟨set, located, member⟩

/-- The transpose is mirrored by the sets. -/
theorem transpose_mirrored (vertexCount : Nat) (sets : List (List Nat)) :
    Mirrored (transpose vertexCount sets) sets := by
  intro vertex bucket located hyperedge member set found
  have inside := (List.getElem?_eq_some_iff.mp located).1
  rw [length_transpose] at inside
  obtain rfl := Option.some.inj ((getElem?_transpose sets inside).symm.trans located)
  obtain ⟨other, same, holds⟩ := mem_occurrences.mp member
  obtain rfl := Option.some.inj (found.symm.trans same)
  exact holds

/-- A graph's own buckets are laid out, with the counts that the graph has. -/
theorem Hypergraph.EncodedBy.laidOut {graph : Hypergraph} {sections : BcsrSections V R O}
    (encoded : graph.EncodedBy sections) (hyperedgesFit : graph.hyperedges.length + 1 < usizeBound)
    (verticesFit : graph.vertexCount + 1 < usizeBound)
    (incidencesFit : sections.vertexOutgoingHyperedges.length +
      sections.vertexIncomingHyperedges.length < usizeBound) :
    LaidOut sections
      { vertexCount := graph.vertexCount
        hyperedgeCount := graph.hyperedges.length
        pOutgoing := sections.vertexOutgoingHyperedges.length
        pIncoming := sections.vertexIncomingHyperedges.length
        totalIncidences := sections.vertexOutgoingHyperedges.length +
          sections.vertexIncomingHyperedges.length }
      graph.heads graph.tails graph.outgoing graph.incoming := by
  have headsLength : graph.heads.length = graph.hyperedges.length := length_map _
  have tailsLength : graph.tails.length = graph.hyperedges.length := length_map _
  have headOffsets := encoded.heads.length_offsets
  have tailOffsets := encoded.tails.length_offsets
  have outgoingOffsets := encoded.outgoing.length_offsets
  have incomingOffsets := encoded.incoming.length_offsets
  rw [length_map] at headOffsets tailOffsets outgoingOffsets incomingOffsets
  rw [headsLength] at headOffsets
  rw [tailsLength] at tailOffsets
  rw [Hypergraph.outgoing, length_transpose] at outgoingOffsets
  rw [Hypergraph.incoming, length_transpose] at incomingOffsets
  refine
    { counted := ⟨headOffsets, tailOffsets, outgoingOffsets, incomingOffsets, rfl, rfl, rfl,
        incidencesFit⟩
      hyperedgesFit
      verticesFit
      outgoingRole := ?_
      incomingRole := ?_ }
  · rw [← headsLength]
    refine .of_transpose encoded.heads encoded.outgoing ?_ ?_
    · rintro _ member
      obtain ⟨hyperedge, _, rfl⟩ := mem_map.mp member
      exact hyperedge.head.ascending
    · rintro _ member
      obtain ⟨hyperedge, _, rfl⟩ := mem_map.mp member
      exact hyperedge.head.below
  · rw [← tailsLength]
    refine .of_transpose encoded.tails encoded.incoming ?_ ?_
    · rintro _ member
      obtain ⟨hyperedge, _, rfl⟩ := mem_map.mp member
      exact hyperedge.tail.ascending
    · rintro _ member
      obtain ⟨hyperedge, _, rfl⟩ := mem_map.mp member
      exact hyperedge.tail.below

/-- The sections of a hypergraph pass the strict level when their lengths can be counted. -/
theorem Hypergraph.EncodedBy.validates {graph : Hypergraph} {sections : BcsrSections V R O}
    (encoded : graph.EncodedBy sections) (hyperedgesFit : graph.hyperedges.length + 1 < usizeBound)
    (verticesFit : graph.vertexCount + 1 < usizeBound)
    (incidencesFit : sections.vertexOutgoingHyperedges.length +
      sections.vertexIncomingHyperedges.length < usizeBound) :
    ∃ counts, validateSections sections .strict = pure counts :=
  ⟨_, validateSections_eq_pure.mpr
    ⟨_, _, _, _, encoded.laidOut hyperedgesFit verticesFit incidencesFit, fun _ =>
      ⟨mirrored_transpose _ _, mirrored_transpose _ _, transpose_mirrored _ _,
        transpose_mirrored _ _⟩⟩⟩

/-- Strict sections are those of the hypergraph whose sets they hold. -/
theorem LaidOut.encoded {heads tails outgoing incoming : List (List Nat)}
    (laid : LaidOut sections counts heads tails outgoing incoming)
    (mirrored : AllMirrored heads tails outgoing incoming) :
    ∃ graph : Hypergraph, graph.EncodedBy sections ∧ graph.vertexCount = counts.vertexCount ∧
      graph.hyperedges.length = counts.hyperedgeCount := by
  have out := laid.outgoingRole
  have inc := laid.incomingRole
  obtain ⟨hyperedges, rfl, rfl⟩ := exists_hyperedges
    (out.sets_length.trans inc.sets_length.symm) out.setsAscending inc.setsAscending
    (out.edges.forall_values.mp out.verticesBelow) (inc.edges.forall_values.mp inc.verticesBelow)
  refine ⟨⟨counts.vertexCount, hyperedges⟩, ⟨out.edges, inc.edges, ?_, ?_⟩, rfl, ?_⟩
  · have transposed := out.eq_transpose mirrored.ofHeads mirrored.ofOutgoing
    have vertices := out.vertices
    rwa [transposed] at vertices
  · have transposed := inc.eq_transpose mirrored.ofTails mirrored.ofIncoming
    have vertices := inc.vertices
    rwa [transposed] at vertices
  · have length := out.sets_length
    rwa [Hypergraph.heads, length_map] at length

/-- Strict validation accepts eight slices exactly when they are those of a hypergraph. -/
theorem validate_strict_iff_encoded
    (inMemory : sections.InMemory) :
    (∃ counts, validateSections sections .strict = pure counts) ↔
      ∃ graph : Hypergraph, graph.EncodedBy sections := by
  constructor
  · rintro ⟨counts, accepted⟩
    obtain ⟨heads, tails, outgoing, incoming, laid, mirrored⟩ :=
      validateSections_eq_pure.mp accepted
    obtain ⟨graph, encoded, _⟩ := laid.encoded (mirrored rfl)
    exact ⟨graph, encoded⟩
  · rintro ⟨graph, encoded⟩
    have headOffsets := encoded.heads.length_offsets
    have outgoingOffsets := encoded.outgoing.length_offsets
    rw [length_map, Hypergraph.heads, length_map] at headOffsets
    rw [length_map, Hypergraph.outgoing, length_transpose] at outgoingOffsets
    have edges := inMemory.headOffsets.trans (sliceBound_le _)
    have vertices := inMemory.vertexOutgoingOffsets.trans (sliceBound_le _)
    have outgoing := inMemory.vertexOutgoingHyperedges.trans (sliceBound_le _)
    have incoming := inMemory.vertexIncomingHyperedges.trans (sliceBound_le _)
    unfold isizeMax at edges vertices outgoing incoming
    refine encoded.validates ?_ ?_ ?_
    · show _ < 2 ^ 64
      omega
    · show _ < 2 ^ 64
      omega
    · show _ < 2 ^ 64
      omega

end

/-- The sections of a hyperedge from two vertices to a third, and of an empty hyperedge. -/
def twoHyperedges : BcsrSections UInt16 UInt16 UInt32 where
  headOffsets := [0, 2, 2]
  headParticipants := [0, 2]
  tailOffsets := [0, 1, 1]
  tailParticipants := [1]
  vertexOutgoingOffsets := [0, 1, 1, 2]
  vertexOutgoingHyperedges := [0, 0]
  vertexIncomingOffsets := [0, 0, 1, 1]
  vertexIncomingHyperedges := [0]

/-- The sections are those of the two hyperedges. -/
theorem twoHyperedges_encoded : Hypergraph.EncodedBy
    ⟨3, [⟨⟨[0, 2], by decide, by decide⟩, ⟨[1], by decide, by decide⟩⟩,
      ⟨⟨[], by decide, by decide⟩, ⟨[], by decide, by decide⟩⟩]⟩ twoHyperedges :=
  ⟨⟨rfl, rfl⟩, ⟨rfl, rfl⟩, ⟨by decide, by decide⟩, ⟨by decide, by decide⟩⟩

/-- The sections pass the strict level. -/
theorem twoHyperedges_validates : ∃ counts, validateSections twoHyperedges .strict = pure counts :=
  twoHyperedges_encoded.validates (by decide) (by decide) (by decide)

/-- Sections with an empty hyperedge and a vertex outside every tail are accepted. -/
theorem validate_strict_two_hyperedges :
    ∃ counts, validateSections twoHyperedges .strict = pure counts :=
  (validate_strict_iff_encoded (by constructor <;> decide)).mpr ⟨_, twoHyperedges_encoded⟩

end Oxgraph.Bcsr
