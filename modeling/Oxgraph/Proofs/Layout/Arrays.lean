import Oxgraph.Lib.Buckets
import Oxgraph.Layout.Arrays

/-! What the offset and value checks accept, and what the build helpers produce. -/

namespace Oxgraph.Layout

variable {I J T : Type} [LayoutIndex I] [LayoutIndex J]

/-- Offset and value words that hold buckets of slots one after the other. -/
abbrev Indexed (offsets : List I) (values : List J) (buckets : List (List Nat)) : Prop :=
  Flattened (offsets.map toNat) (values.map toNat) buckets

-- Build time.

/-- A slot converts to an index exactly when the width has it. -/
theorem indexFromUsize_eq_ok {value : Nat} {index : I} :
    (indexFromUsize value : Except Nat I) = .ok index ↔ toNat index = value := by
  rw [← fromUsize_eq_some]
  unfold indexFromUsize
  cases (fromUsize value : Option I) with
  | none => exact ⟨fun never => (nomatch never), fun never => (nomatch never)⟩
  | some found => rw [Except.ok.injEq, Option.some.injEq]

/-- The next dense ID is the counter, as far as the width and the counter go. -/
theorem nextDenseIndex_eq_ok {counter advanced : Nat} {id : I} :
    nextDenseIndex counter = .ok (id, advanced) ↔
      toNat id = counter ∧ advanced = counter + 1 ∧ counter + 1 < usizeBound := by
  unfold nextDenseIndex
  rw [bind_eq_ok]
  cases added : checkedAdd counter 1 with
  | none =>
    -- A counter that cannot advance is not below the bound.
    have full : ¬ counter + 1 < usizeBound := fun fits => by
      rw [checkedAdd_eq_some.mpr ⟨rfl, fits⟩] at added
      cases added
    constructor
    · rintro ⟨_, _, never⟩
      cases never
    · rintro ⟨_, _, fits⟩
      exact absurd fits full
  | some next =>
    obtain ⟨rfl, fits⟩ := checkedAdd_eq_some.mp added
    constructor
    · rintro ⟨index, converted, same⟩
      obtain ⟨rfl, rfl⟩ := Prod.mk.inj (Except.ok.inj same)
      exact ⟨indexFromUsize_eq_ok.mp converted, rfl, fits⟩
    · rintro ⟨carried, rfl, _⟩
      exact ⟨id, indexFromUsize_eq_ok.mpr carried, rfl⟩

/-- Words with the same slots are the same. -/
theorem map_toNat_injective {left right : List I} (same : left.map toNat = right.map toNat) :
    left = right :=
  List.map_injective_iff.mpr (fun _ _ => toNat_injective) same

variable {slots : List Nat}

/-- Slots of the width are those of words. -/
theorem map_toNat_map_ofNat (fits : ∀ slot ∈ slots, slot < LayoutIndex.bound I) :
    (slots.map (LayoutIndex.ofNat : Nat → I)).map toNat = slots := by
  rw [List.map_map]
  exact (List.map_congr_left fun slot member => LayoutIndex.toNat_ofNat slot (fits slot member)).trans
    (List.map_id slots)

variable {words : List I}

/-- Slots convert all together exactly when words of the width carry them. -/
theorem mapM_indexFromUsize_eq_ok :
    slots.mapM indexFromUsize = .ok words ↔ words.map toNat = slots := by
  induction slots generalizing words with
  | nil =>
    rw [List.mapM_nil, List.map_eq_nil_iff]
    exact ⟨fun same => (Except.ok.inj same).symm, fun same => congrArg Except.ok same.symm⟩
  | cons slot rest ih =>
    simp only [List.mapM_cons, bind_eq_ok, indexFromUsize_eq_ok, ih]
    constructor
    · rintro ⟨word, rfl, others, rfl, same⟩
      rw [← Except.ok.inj same, List.map_cons]
    · intro same
      obtain ⟨word, others, rfl, carried, follow⟩ := List.map_eq_cons_iff.mp same
      exact ⟨word, carried, others, follow, rfl⟩

/-- Flattening appends the buckets and their offsets, as far as the width goes. -/
theorem flattenBuckets_eq_ok {buckets : List (List T)} {offsets : List I} {items : List T}
    {built : List I × List T} :
    flattenBuckets buckets (offsets, items) = .ok built ↔
      (buckets = [] ∨ items.length + buckets.flatten.length < LayoutIndex.bound I) ∧
        built.1.map toNat = offsets.map toNat ++ (runningOffsets items.length buckets).tail ∧
        built.2 = items ++ buckets.flatten := by
  induction buckets generalizing offsets items with
  | nil =>
    rw [flattenBuckets, runningOffsets, List.tail_cons, List.append_nil, List.flatten_nil,
      List.append_nil]
    constructor
    · rintro ⟨⟩
      exact ⟨.inl rfl, rfl, rfl⟩
    · rintro ⟨_, same, rfl⟩
      rw [← map_toNat_injective same]
  | cons bucket rest ih =>
    -- Each offset is the number of items so far: only the last and largest has to fit.
    have tail := runningOffsets_eq_cons (items ++ bucket).length rest
    have longer : items.length + bucket.length = (items ++ bucket).length :=
      List.length_append.symm
    have count : items.length + (bucket :: rest).flatten.length =
        (items ++ bucket).length + rest.flatten.length := by
      rw [List.flatten_cons, List.length_append, List.length_append, Nat.add_assoc]
    rw [flattenBuckets, bind_eq_ok, runningOffsets, List.tail_cons, longer, tail, count,
      List.flatten_cons, ← List.append_assoc]
    constructor
    · rintro ⟨offset, converted, rest_ok⟩
      obtain ⟨fits, offsets_eq, items_eq⟩ := ih.mp rest_ok
      rw [indexFromUsize_eq_ok] at converted
      have small := LayoutIndex.toNat_lt offset
      rw [converted] at small
      refine ⟨.inr ?_, ?_, items_eq⟩
      · rcases fits with rfl | fits
        · exact small
        · exact fits
      · rw [offsets_eq, List.map_append, List.append_assoc]
        simp only [List.map_cons, List.map_nil, converted, List.singleton_append]
    · rintro ⟨fits, offsets_eq, items_eq⟩
      have fits := fits.resolve_left (List.cons_ne_nil _ _)
      have small : (items ++ bucket).length < LayoutIndex.bound I := by omega
      have slot := LayoutIndex.toNat_ofNat (I := I) (items ++ bucket).length small
      refine ⟨_, indexFromUsize_eq_ok.mpr slot, ih.mpr ⟨.inr fits, ?_, items_eq⟩⟩
      rw [offsets_eq, List.map_append, List.append_assoc]
      simp only [List.map_cons, List.map_nil, slot, List.singleton_append]

/-- Buckets whose items can be counted are flattened. -/
theorem flattenBuckets_ok {buckets : List (List T)} (offsets : List I) (items : List T)
    (fits : items.length + buckets.flatten.length < LayoutIndex.bound I) :
    ∃ built, flattenBuckets buckets (offsets, items) = .ok built := by
  refine ⟨(offsets ++ ((runningOffsets items.length buckets).tail).map LayoutIndex.ofNat,
    items ++ buckets.flatten), flattenBuckets_eq_ok.mpr ⟨.inr fits, ?_, rfl⟩⟩
  rw [List.map_append, map_toNat_map_ofNat]
  intro slot member
  exact Nat.lt_of_le_of_lt (runningOffsets_le (List.mem_of_mem_tail member)) fits

/-- Buckets are flattened exactly when their items can be counted in the width. -/
theorem buildOffsetIndex_eq_ok {buckets : List (List T)} {built : List I × List T} :
    buildOffsetIndex buckets = .ok built ↔
      buckets.flatten.length < LayoutIndex.bound I ∧
        Flattened (built.1.map toNat) built.2 buckets := by
  have positive : 0 < LayoutIndex.bound I := Nat.lt_trans Nat.zero_lt_one LayoutIndex.one_lt
  have slot := LayoutIndex.toNat_ofNat (I := I) 0 positive
  have start := runningOffsets_eq_cons 0 buckets
  unfold buildOffsetIndex
  rw [indexFromUsize_eq_ok.mpr slot]
  refine flattenBuckets_eq_ok.trans ?_
  simp only [List.map_cons, List.map_nil, slot, List.singleton_append, List.length_nil,
    List.nil_append, Nat.zero_add]
  rw [← start]
  constructor
  · rintro ⟨fits, offsets, values⟩
    refine ⟨?_, offsets, values⟩
    rcases fits with rfl | fits
    · exact positive
    · exact fits
  · rintro ⟨fits, flat⟩
    exact ⟨.inr fits, flat.offsets, flat.values⟩

/-- Buckets whose items can be counted have an index. -/
theorem buildOffsetIndex_ok {buckets : List (List T)}
    (fits : buckets.flatten.length < LayoutIndex.bound I) :
    ∃ built : List I × List T, buildOffsetIndex buckets = .ok built := by
  refine ⟨((runningOffsets 0 buckets).map LayoutIndex.ofNat, buckets.flatten),
    buildOffsetIndex_eq_ok.mpr ⟨fits, ?_, rfl⟩⟩
  rw [map_toNat_map_ofNat]
  intro slot member
  have inside := runningOffsets_le member
  omega

-- Read time.

/-- After the first word, the monotonic check accepts exactly the words that ascend. -/
theorem checkMonotonicFrom_eq_ok {index previous : Nat} (later : index ≠ 0) :
    checkMonotonicFrom index previous words = .ok () ↔
      (previous :: words.map toNat).Pairwise (· ≤ ·) := by
  induction words generalizing index previous with
  | nil => simp [checkMonotonicFrom]
  | cons word rest ih =>
    rw [checkMonotonicFrom, toUsize_eq]
    simp only [if_neg later]
    by_cases descends : toNat word < previous
    · rw [if_pos descends]
      constructor
      · rintro ⟨⟩
      · intro ascending
        have ordered := List.rel_of_pairwise_cons ascending List.mem_cons_self
        exact absurd descends (Nat.not_lt.mpr ordered)
    · rw [if_neg descends, ih (Nat.succ_ne_zero index), List.map_cons]
      constructor
      · intro ascending
        refine List.pairwise_cons.mpr ⟨?_, ascending⟩
        intro other member
        have step : previous ≤ toNat word := Nat.le_of_not_lt descends
        rcases List.mem_cons.mp member with rfl | after
        · exact step
        · exact Nat.le_trans step (List.rel_of_pairwise_cons ascending after)
      · intro ascending
        exact (List.pairwise_cons.mp ascending).2

/-- The monotonic check accepts exactly the offsets that start at zero and ascend. -/
theorem checkOffsetsMonotonic_eq_ok (some_word : words ≠ []) :
    checkOffsetsMonotonic words = .ok () ↔
      (words.map toNat).head? = some 0 ∧ (words.map toNat).Pairwise (· ≤ ·) := by
  cases words with
  | nil => exact absurd rfl some_word
  | cons word rest =>
    unfold checkOffsetsMonotonic
    rw [checkMonotonicFrom, toUsize_eq]
    simp only [if_true, List.map_cons, List.head?_cons]
    by_cases origin : toNat word = 0
    · rw [if_neg (not_not.mpr origin), checkMonotonicFrom_eq_ok Nat.one_ne_zero, origin]
      exact ⟨fun ascending => ⟨rfl, ascending⟩, fun both => both.2⟩
    · rw [if_pos origin]
      constructor
      · rintro ⟨⟩
      · rintro ⟨zero, _⟩
        exact absurd (Option.some.inj zero) origin

/-- The range check accepts exactly the values below the bound. -/
theorem checkValueRange_eq_ok {values : List I} {bound : Nat} :
    checkValueRange values bound = .ok () ↔ ∀ value ∈ values.map toNat, value < bound := by
  unfold checkValueRange
  generalize 0 = index
  induction values generalizing index with
  | nil => simp [checkValuesFrom]
  | cons word rest ih =>
    rw [checkValuesFrom, toUsize_eq, List.map_cons, List.forall_mem_cons]
    by_cases outside : toNat word ≥ bound
    · simp only [if_pos outside]
      constructor
      · rintro ⟨⟩
      · rintro ⟨inside, _⟩
        exact absurd inside (Nat.not_lt.mpr outside)
    · simp only [if_neg outside]
      rw [ih]
      exact ⟨fun others => ⟨Nat.lt_of_not_le outside, others⟩, fun both => both.2⟩

/-- The offset check accepts exactly the offsets of that many buckets over the values. -/
theorem checkOffsetSection_eq_pure {offsets : List I} {values : List J} {count : Nat} :
    checkOffsetSection offsets count values.length = pure () ↔
      count + 1 < usizeBound ∧ ∃ buckets, buckets.length = count ∧
        Indexed offsets values buckets := by
  unfold checkOffsetSection
  cases added : checkedAdd count 1 with
  | none =>
    constructor
    · rintro ⟨⟩
    · rintro ⟨fits, _⟩
      rw [checkedAdd_eq_some.mpr ⟨rfl, fits⟩] at added
      cases added
  | some expected =>
    obtain ⟨rfl, fits⟩ := checkedAdd_eq_some.mp added
    simp only [fits, true_and]
    by_cases size : offsets.length = count + 1
    · rw [if_neg (not_not.mpr size), Fallible.bind_eq_pure]
      have some_word : offsets ≠ [] := by
        rintro rfl
        cases size
      have final : (offsets.map toNat).getLast? = (offsets[offsets.length - 1]?).map toNat := by
        rw [List.getLast?_eq_getElem?, List.length_map, List.getElem?_map]
      constructor
      · rintro ⟨_, monotonic, rest⟩
        -- Sorted offsets from zero to the number of values cut the values into buckets.
        obtain ⟨first, sorted⟩ := (checkOffsetsMonotonic_eq_ok some_word).mp
          (Fallible.ofResult_eq_pure.mp monotonic)
        obtain ⟨word, read, rest⟩ := Fallible.bind_eq_pure.mp rest
        rw [Fallible.orPanic_eq_pure] at read
        simp only [toUsize_eq] at rest
        split at rest
        · exact absurd rest Fallible.throw_ne_pure
        · rename_i same
          have last : toNat word = values.length := not_not.mp same
          rw [read, Option.map_some, last, ← @List.length_map _ _ values toNat] at final
          have flat := flattened_cutAt sorted first final
          refine ⟨_, ?_, flat⟩
          have length := flat.length_offsets
          rw [List.length_map, size] at length
          exact (Nat.succ.inj length).symm
      · rintro ⟨buckets, length, flat⟩
        have sorted := (runningOffsets_sorted 0 buckets).1
        rw [← flat.offsets] at sorted
        have first : (offsets.map toNat).head? = some 0 := by
          rw [flat.offsets]
          cases buckets <;> rfl
        refine ⟨(), Fallible.ofResult_eq_pure.mpr
          ((checkOffsetsMonotonic_eq_ok some_word).mpr ⟨first, sorted⟩), ?_⟩
        have last := flat.last
        rw [length, List.getElem?_map, Option.map_eq_some_iff] at last
        obtain ⟨word, read, last⟩ := last
        rw [List.length_map] at last
        rw [size, Nat.add_sub_cancel]
        refine Fallible.bind_eq_pure.mpr ⟨word, Fallible.orPanic_eq_pure.mpr read, ?_⟩
        simp only [toUsize_eq]
        rw [if_neg (not_not.mpr last)]
    · rw [if_pos size]
      constructor
      · intro raised
        exact absurd raised Fallible.throw_ne_pure
      · rintro ⟨buckets, length, flat⟩
        have more := flat.length_offsets
        rw [List.length_map, length] at more
        exact absurd more size

-- After validation.

/-- The slot of an index is there. -/
@[simp] theorem slotOrMax_eq (index : I) : slotOrMax index = toNat index := by
  rw [slotOrMax, toUsize_eq, Option.getD_some]

/-- An index always converts to its slot. -/
@[simp] theorem indexToUsizeValidated_eq (index : I) :
    indexToUsizeValidated index = some (toNat index) := toUsize_eq index

/-- A slot of the width converts to the index. -/
theorem usizeToIndexValidated_eq {value : Nat} (fits : value < LayoutIndex.bound I) :
    (usizeToIndexValidated value : Option I) = some (LayoutIndex.ofNat value) := if_pos fits

/-- A slot beyond the width panics. -/
theorem usizeToIndexValidated_eq_none {value : Nat} (wide : LayoutIndex.bound I ≤ value) :
    (usizeToIndexValidated value : Option I) = none := if_neg (Nat.not_lt.mpr wide)

/-- Words with known slots are the indices of the slots. -/
theorem eq_map_ofNat (same : words.map toNat = slots) : words = slots.map LayoutIndex.ofNat := by
  rw [← same, List.map_map]
  refine (List.map_id words).symm.trans (List.map_congr_left fun word _ => ?_)
  exact (LayoutIndex.ofNat_toNat word).symm

section

variable {offsets : List I} {values : List J} {buckets : List (List Nat)}

/-- The slots of a bucket's words are the bucket. -/
theorem slots_bucket (flat : Indexed offsets values buckets) {index : Nat}
    (inside : index < buckets.length) :
    ((buckets.getD index []).map (LayoutIndex.ofNat : Nat → J)).map toNat =
      buckets.getD index [] := by
  obtain ⟨_, _, _, content⟩ := flat.bucket (getElem?_bucket inside)
  rw [← List.map_drop, ← List.map_take] at content
  rw [← eq_map_ofNat content]
  exact content

/-- A slice between consecutive offsets is the bucket. -/
theorem sliceOf_bucket (flat : Indexed offsets values buckets) {index : Nat}
    (inside : index < buckets.length) :
    sliceOf values (buckets.take index).flatten.length
      ((buckets.take index).flatten.length + (buckets.getD index []).length) =
        some ((buckets.getD index []).map LayoutIndex.ofNat) := by
  obtain ⟨_, _, bound, content⟩ := flat.bucket (getElem?_bucket inside)
  rw [List.length_map] at bound
  rw [sliceOf, if_pos ⟨Nat.le_add_right _ _, bound⟩, Nat.add_sub_cancel_left]
  rw [← List.map_drop, ← List.map_take] at content
  exact congrArg some (eq_map_ofNat content)

/-- The words of an offset and of the next enclose the bucket. -/
theorem offset_words (flat : Indexed offsets values buckets) {index : Nat} {bucket : List Nat}
    (located : buckets[index]? = some bucket) :
    ∃ first last, offsets[index]? = some first ∧ offsets[index + 1]? = some last ∧
      toNat first = (buckets.take index).flatten.length ∧
      toNat last = (buckets.take index).flatten.length + bucket.length := by
  obtain ⟨starts, stops, _⟩ := flat.bucket located
  rw [List.getElem?_map, Option.map_eq_some_iff] at starts stops
  obtain ⟨first, found, start⟩ := starts
  obtain ⟨last, follow, stop⟩ := stops
  exact ⟨first, last, found, follow, start, stop⟩

end

end Oxgraph.Layout
