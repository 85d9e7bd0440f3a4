import Mathlib.Combinatorics.Enumerative.DoubleCounting
import Mathlib.Data.List.GetD
import Oxgraph.Lib.Words

/-! Buckets flattened into one run of values with running offsets, and transposed memberships. -/

namespace Oxgraph

open List (flatten_cons length_append)

variable {T : Type}

/-- The offsets at which buckets laid out one after the other start, and where the last ends. -/
def runningOffsets (start : Nat) : List (List T) → List Nat
  | [] => [start]
  | bucket :: rest => start :: runningOffsets (start + bucket.length) rest

/-- The runs of values between consecutive offsets. -/
def cutAt (values : List T) : List Nat → List (List T)
  | first :: second :: rest =>
    (values.drop first).take (second - first) :: cutAt values (second :: rest)
  | _ => []

/-- Offsets and values that hold buckets one after the other. -/
structure Flattened (offsets : List Nat) (values : List T) (buckets : List (List T)) : Prop where
  offsets : offsets = runningOffsets 0 buckets
  values : values = buckets.flatten

/-- Buckets have one more offset than there are buckets. -/
@[simp] theorem length_runningOffsets (start : Nat) (buckets : List (List T)) :
    (runningOffsets start buckets).length = buckets.length + 1 := by
  induction buckets generalizing start with
  | nil => rfl
  | cons bucket rest ih => rw [runningOffsets, List.length_cons, ih, List.length_cons]

/-- Each offset is the total length of the buckets before it. -/
theorem getElem?_runningOffsets (start : Nat) (buckets : List (List T)) {index : Nat}
    (inside : index ≤ buckets.length) :
    (runningOffsets start buckets)[index]? =
      some (start + (buckets.take index).flatten.length) := by
  induction buckets generalizing start index with
  | nil =>
    obtain rfl : index = 0 := Nat.le_zero.mp inside
    rfl
  | cons bucket rest ih =>
    cases index with
    | zero => rfl
    | succ index =>
      rw [runningOffsets, List.getElem?_cons_succ, ih _ (Nat.le_of_succ_le_succ inside),
        List.take_succ_cons, flatten_cons, length_append, Nat.add_assoc]

/-- Running offsets never descend. -/
theorem runningOffsets_sorted (start : Nat) (buckets : List (List T)) :
    (runningOffsets start buckets).Pairwise (· ≤ ·) ∧
      ∀ offset ∈ runningOffsets start buckets, start ≤ offset := by
  induction buckets generalizing start with
  | nil => simp [runningOffsets]
  | cons bucket rest ih =>
    obtain ⟨sorted, above⟩ := ih (start + bucket.length)
    have above (offset : Nat) (member : offset ∈ runningOffsets (start + bucket.length) rest) :
        start ≤ offset := Nat.le_trans (Nat.le_add_right _ _) (above offset member)
    refine ⟨List.pairwise_cons.mpr ⟨above, sorted⟩, ?_⟩
    intro offset member
    rcases List.mem_cons.mp member with rfl | later
    · exact Nat.le_refl _
    · exact above offset later

/-- The first offset is the start. -/
theorem runningOffsets_eq_cons (start : Nat) (buckets : List (List T)) :
    runningOffsets start buckets = start :: (runningOffsets start buckets).tail := by
  cases buckets <;> rfl

/-- Only the lengths of the buckets decide the offsets. -/
theorem runningOffsets_map {U : Type} (f : T → U) (start : Nat) (buckets : List (List T)) :
    runningOffsets start (buckets.map fun bucket => bucket.map f) = runningOffsets start buckets := by
  induction buckets generalizing start with
  | nil => rfl
  | cons bucket rest ih =>
    rw [List.map_cons, runningOffsets, runningOffsets, List.length_map, ih]

/-- One more bucket adds the offset where it ends. -/
theorem runningOffsets_snoc (start : Nat) (buckets : List (List T)) (bucket : List T) :
    runningOffsets start (buckets ++ [bucket]) =
      runningOffsets start buckets ++ [start + (buckets.flatten.length + bucket.length)] := by
  induction buckets generalizing start with
  | nil =>
    rw [List.flatten_nil, List.length_nil, Nat.zero_add]
    rfl
  | cons first rest ih =>
    rw [List.cons_append, runningOffsets, ih, runningOffsets, flatten_cons,
      length_append, List.cons_append]
    congr 3
    omega

variable {buckets : List (List T)}

/-- No offset passes the end of the last bucket. -/
theorem runningOffsets_le {start : Nat} {offset : Nat}
    (member : offset ∈ runningOffsets start buckets) : offset ≤ start + buckets.flatten.length := by
  induction buckets generalizing start with
  | nil => exact Nat.le_of_eq (List.mem_singleton.mp member)
  | cons bucket rest ih =>
    rw [flatten_cons, length_append]
    rcases List.mem_cons.mp member with rfl | later
    · exact Nat.le_add_right _ _
    · have := ih later
      omega

/-- An index in range is that of a bucket. -/
theorem getElem?_bucket {index : Nat} (inside : index < buckets.length) :
    buckets[index]? = some (buckets.getD index []) := by
  rw [List.getD_eq_getElem buckets [] inside]
  exact List.getElem?_eq_getElem inside

/-- A bucket with an item is one of the buckets. -/
theorem lt_of_mem_getD {index : Nat} {item : T} (member : item ∈ buckets.getD index []) :
    index < buckets.length := by
  by_contra outside
  rw [List.getD_eq_default _ _ (Nat.le_of_not_lt outside)] at member
  cases member

/-- A bucket ends before a later one starts. -/
theorem bucket_before {index later : Nat} (ordered : index < later) {bucket : List T}
    (located : buckets[index]? = some bucket) :
    (buckets.take index).flatten.length + bucket.length ≤ (buckets.take later).flatten.length := by
  obtain ⟨inside, rfl⟩ := List.getElem?_eq_some_iff.mp located
  have split : buckets.take later = buckets.take (index + 1) ++
      (buckets.drop (index + 1)).take (later - (index + 1)) := by
    rw [← List.take_add, Nat.add_sub_cancel' ordered]
  rw [split, List.take_succ_eq_append_getElem inside, List.flatten_append, List.flatten_append,
    length_append, length_append, List.flatten_singleton]
  exact Nat.le_add_right _ _

/-- A position belongs to one bucket only. -/
theorem owner_unique {buckets : List (List T)} {index other position : Nat} {bucket rival : List T}
    (located : buckets[index]? = some bucket) (found : buckets[other]? = some rival)
    (start : (buckets.take index).flatten.length ≤ position)
    (stop : position < (buckets.take index).flatten.length + bucket.length)
    (rivalStart : (buckets.take other).flatten.length ≤ position)
    (rivalStop : position < (buckets.take other).flatten.length + rival.length) :
    index = other := by
  rcases Nat.lt_trichotomy index other with before | same | after
  · have := bucket_before before located
    omega
  · exact same
  · have := bucket_before after found
    omega

namespace Flattened

variable {offsets : List Nat} {values : List T} {buckets : List (List T)}

/-- One more bucket is appended with the offset where it ends. -/
theorem snoc (flat : Flattened offsets values buckets) (bucket : List T) :
    Flattened (offsets ++ [(values ++ bucket).length]) (values ++ bucket) (buckets ++ [bucket]) := by
  obtain ⟨rfl, rfl⟩ := flat
  constructor
  · rw [runningOffsets_snoc, length_append, Nat.zero_add]
  · rw [List.flatten_append, List.flatten_singleton]

/-- Mapping the values maps the buckets. -/
theorem map {U : Type} (flat : Flattened offsets values buckets) (f : T → U) :
    Flattened offsets (values.map f) (buckets.map fun bucket => bucket.map f) := by
  constructor
  · rw [runningOffsets_map]
    exact flat.offsets
  · rw [flat.values, List.map_flatten]

/-- Each bucket lies between its own offset and the next. -/
theorem bucket (flat : Flattened offsets values buckets) {index : Nat} {bucket : List T}
    (located : buckets[index]? = some bucket) :
    offsets[index]? = some (buckets.take index).flatten.length ∧
      offsets[index + 1]? = some ((buckets.take index).flatten.length + bucket.length) ∧
      (buckets.take index).flatten.length + bucket.length ≤ values.length ∧
      (values.drop (buckets.take index).flatten.length).take bucket.length = bucket := by
  obtain ⟨inside, rfl⟩ := List.getElem?_eq_some_iff.mp located
  have whole : values = (buckets.take index).flatten ++ (buckets[index] ++
      (buckets.drop (index + 1)).flatten) := by
    rw [flat.values, ← flatten_cons, List.getElem_cons_drop, ← List.flatten_append,
      List.take_append_drop]
  refine ⟨?_, ?_, ?_, ?_⟩
  · rw [flat.offsets, getElem?_runningOffsets 0 buckets (Nat.le_of_lt inside), Nat.zero_add]
  · rw [flat.offsets, getElem?_runningOffsets 0 buckets inside, Nat.zero_add,
      List.take_succ_eq_append_getElem inside, List.flatten_append, length_append,
      List.flatten_singleton]
  · rw [whole, length_append, length_append]
    omega
  · rw [whole, List.drop_left, List.take_left]

/-- A bucket is the slice between its own offset and the next. -/
theorem sliceOf_eq (flat : Flattened offsets values buckets) {index : Nat} {bucket : List T}
    (located : buckets[index]? = some bucket) :
    sliceOf values (buckets.take index).flatten.length
      ((buckets.take index).flatten.length + bucket.length) = some bucket := by
  obtain ⟨_, _, inside, slice⟩ := flat.bucket located
  unfold sliceOf
  rw [if_pos ⟨Nat.le_add_right _ _, inside⟩, Nat.add_sub_cancel_left, slice]

/-- A place in a bucket is that place after the bucket's offset. -/
theorem getElem?_place (flat : Flattened offsets values buckets) {index place : Nat}
    {bucket : List T} (located : buckets[index]? = some bucket) (below : place < bucket.length) :
    values[(buckets.take index).flatten.length + place]? = bucket[place]? := by
  obtain ⟨_, _, _, slice⟩ := flat.bucket located
  rw [← slice, List.getElem?_take_of_lt below, List.getElem?_drop]

/-- The positions between two offsets hold the bucket item by item. -/
theorem map_positions (flat : Flattened offsets values buckets) {index : Nat} {bucket : List T}
    (located : buckets[index]? = some bucket) :
    (List.range' (buckets.take index).flatten.length bucket.length).map (fun place => values[place]?) =
      bucket.map some := by
  refine List.ext_getElem (by simp) fun place below _ => ?_
  rw [List.length_map, List.length_range'] at below
  rw [List.getElem_map, List.getElem_range', Nat.one_mul, flat.getElem?_place located below,
    List.getElem_map, List.getElem?_eq_getElem below]

/-- Consecutive offsets are the bounds of a bucket. -/
theorem window_bounds (flat : Flattened offsets values buckets) {index start stop : Nat}
    (first : offsets[index]? = some start) (second : offsets[index + 1]? = some stop) :
    index < buckets.length ∧ start = (buckets.take index).flatten.length ∧
      stop = (buckets.take index).flatten.length + (buckets.getD index []).length := by
  have inside : index < buckets.length := by
    obtain ⟨bound, _⟩ := List.getElem?_eq_some_iff.mp second
    rw [flat.offsets, length_runningOffsets] at bound
    omega
  obtain ⟨starts, stops, _⟩ := flat.bucket (getElem?_bucket inside)
  exact ⟨inside, Option.some.inj (first.symm.trans starts), Option.some.inj (second.symm.trans stops)⟩

/-- Consecutive offsets enclose a bucket. -/
theorem window (flat : Flattened offsets values buckets) {index start stop : Nat}
    (first : offsets[index]? = some start) (second : offsets[index + 1]? = some stop) :
    ∃ bucket, buckets[index]? = some bucket ∧ start ≤ stop ∧ stop ≤ values.length ∧
      (values.drop start).take (stop - start) = bucket := by
  obtain ⟨inside, rfl, rfl⟩ := flat.window_bounds first second
  obtain ⟨_, _, bound, slice⟩ := flat.bucket (getElem?_bucket inside)
  refine ⟨_, getElem?_bucket inside, Nat.le_add_right _ _, bound, ?_⟩
  rw [Nat.add_sub_cancel_left]
  exact slice

/-- There is one more offset than there are buckets. -/
theorem length_offsets (flat : Flattened offsets values buckets) :
    offsets.length = buckets.length + 1 := by
  rw [flat.offsets, length_runningOffsets]

/-- The last offset is the number of values. -/
theorem last (flat : Flattened offsets values buckets) :
    offsets[buckets.length]? = some values.length := by
  rw [flat.offsets, getElem?_runningOffsets 0 buckets (Nat.le_refl _), List.take_length, flat.values,
    Nat.zero_add]

/-- The values are the items of the buckets. -/
theorem forall_values (flat : Flattened offsets values buckets) {holds : T → Prop} :
    (∀ value ∈ values, holds value) ↔ ∀ bucket ∈ buckets, ∀ item ∈ bucket, holds item := by
  rw [flat.values]
  simp only [List.mem_flatten]
  exact ⟨fun all bucket member item inside => all item ⟨bucket, member, inside⟩,
    fun all item ⟨bucket, member, inside⟩ => all bucket member item inside⟩

/-- Every position in the values belongs to one bucket. -/
theorem owner (flat : Flattened offsets values buckets) {position : Nat}
    (inside : position < values.length) :
    ∃ index bucket, buckets[index]? = some bucket ∧
      (buckets.take index).flatten.length ≤ position ∧
      position < (buckets.take index).flatten.length + bucket.length := by
  rw [flat.values] at inside
  clear flat
  induction buckets generalizing position with
  | nil => cases inside
  | cons first rest ih =>
    by_cases early : position < first.length
    · exact ⟨0, first, rfl, Nat.zero_le _, by simpa using early⟩
    · rw [flatten_cons, length_append] at inside
      obtain ⟨index, bucket, located, start, stop⟩ := @ih (position - first.length)
        (by omega)
      refine ⟨index + 1, bucket, located, ?_, ?_⟩
      · rw [List.take_succ_cons, flatten_cons, length_append]
        omega
      · rw [List.take_succ_cons, flatten_cons, length_append]
        omega

end Flattened

variable {offsets : List Nat} {values : List T}

/-- Ascending offsets that end at the number of values cut them into buckets. -/
theorem cutAt_spec {first : Nat} (sorted : (first :: offsets).Pairwise (· ≤ ·))
    (last : (first :: offsets).getLast? = some values.length) :
    first :: offsets = runningOffsets first (cutAt values (first :: offsets)) ∧
      values.drop first = (cutAt values (first :: offsets)).flatten := by
  induction offsets generalizing first with
  | nil =>
    obtain rfl : first = values.length := by simpa using last
    simp [cutAt, runningOffsets]
  | cons second rest ih =>
    obtain ⟨above, sorted⟩ := List.pairwise_cons.mp sorted
    rw [List.getLast?_cons_cons] at last
    have ascends : first ≤ second := above second List.mem_cons_self
    have inside : second ≤ values.length := by
      obtain ⟨below, _⟩ := List.pairwise_cons.mp sorted
      have final := List.mem_of_getLast? last
      rcases List.mem_cons.mp final with same | later
      · exact Nat.le_of_eq same.symm
      · exact below _ later
    obtain ⟨offsets, flat⟩ := ih sorted last
    have size : ((values.drop first).take (second - first)).length = second - first := by
      rw [List.length_take, List.length_drop]
      omega
    rw [cutAt, runningOffsets, flatten_cons, size, Nat.add_sub_cancel' ascends, ← offsets,
      ← flat]
    refine ⟨rfl, ?_⟩
    have split := (List.take_append_drop (second - first) (values.drop first)).symm
    rw [List.drop_drop, Nat.add_sub_cancel' ascends] at split
    exact split

/-- Running offsets cut the values back into the buckets. -/
theorem cutAt_runningOffsets {values : List T} {start : Nat} {buckets : List (List T)}
    (flat : values.drop start = buckets.flatten) :
    cutAt values (runningOffsets start buckets) = buckets := by
  induction buckets generalizing start with
  | nil => rfl
  | cons bucket rest ih =>
    rw [flatten_cons] at flat
    have later : values.drop (start + bucket.length) = rest.flatten := by
      rw [← List.drop_drop, flat, List.drop_left]
    rw [runningOffsets, runningOffsets_eq_cons, cutAt, ← runningOffsets_eq_cons, ih later, flat,
      Nat.add_sub_cancel_left, List.take_left]

/-- The same offsets and values hold the same buckets. -/
theorem Flattened.unique {buckets others : List (List T)}
    (flat : Flattened offsets values buckets) (other : Flattened offsets values others) :
    buckets = others := by
  have first := @cutAt_runningOffsets _ values 0 buckets flat.values
  have second := @cutAt_runningOffsets _ values 0 others other.values
  rw [← flat.offsets] at first
  rw [← other.offsets] at second
  exact first.symm.trans second

/-- Offsets from zero that ascend to the number of values hold the buckets they cut. -/
theorem flattened_cutAt (sorted : offsets.Pairwise (· ≤ ·)) (first : offsets.head? = some 0)
    (last : offsets.getLast? = some values.length) :
    Flattened offsets values (cutAt values offsets) := by
  cases offsets with
  | nil => cases first
  | cons origin rest =>
    obtain rfl : origin = 0 := by simpa using first
    obtain ⟨offsets, flat⟩ := cutAt_spec sorted last
    exact ⟨offsets, flat⟩

/-- Consecutive offsets are the pairs of an offset and the next. -/
theorem forall_windows {offsets : List T} (holds : T → T → Prop) :
    (∀ pair ∈ offsets.zip offsets.tail, holds pair.1 pair.2) ↔
      ∀ index start stop, offsets[index]? = some start → offsets[index + 1]? = some stop →
        holds start stop := by
  constructor
  · intro all index start stop first second
    refine all (start, stop) (List.mem_of_getElem? (i := index) ?_)
    rw [List.getElem?_zip_eq_some, List.getElem?_tail]
    exact ⟨first, second⟩
  · rintro all ⟨start, stop⟩ member
    obtain ⟨index, located⟩ := List.mem_iff_getElem?.mp member
    rw [List.getElem?_zip_eq_some, List.getElem?_tail] at located
    exact all index start stop located.1 located.2

-- Which sets hold an item, in order.

/-- The positions of the sets that hold an item, ascending. -/
def occurrences (sets : List (List Nat)) (item : Nat) : List Nat :=
  (List.range sets.length).filter fun index => item ∈ sets.getD index []

/-- For each item below a count, the positions of the sets that hold it. -/
def transpose (count : Nat) (sets : List (List Nat)) : List (List Nat) :=
  (List.range count).map (occurrences sets)

theorem mem_occurrences {sets : List (List Nat)} {item index : Nat} :
    index ∈ occurrences sets item ↔ ∃ set, sets[index]? = some set ∧ item ∈ set := by
  unfold occurrences
  rw [List.mem_filter, List.mem_range, decide_eq_true_eq]
  constructor
  · rintro ⟨inside, holds⟩
    refine ⟨sets[index], List.getElem?_eq_getElem inside, ?_⟩
    rwa [List.getD_eq_getElem sets [] inside] at holds
  · rintro ⟨set, located, holds⟩
    obtain ⟨inside, rfl⟩ := List.getElem?_eq_some_iff.mp located
    rw [List.getD_eq_getElem sets [] inside]
    exact ⟨inside, holds⟩

theorem occurrences_ascending (sets : List (List Nat)) (item : Nat) :
    (occurrences sets item).Pairwise (· < ·) :=
  List.Pairwise.filter _ List.pairwise_lt_range

/-- One more set in front moves every position up, and may hold the item itself. -/
theorem occurrences_cons (set : List Nat) (sets : List (List Nat)) (item : Nat) :
    occurrences (set :: sets) item =
      (if item ∈ set then [0] else []) ++ (occurrences sets item).map (1 + ·) := by
  unfold occurrences
  rw [List.length_cons, Nat.add_comm, List.range_add, List.filter_append, List.filter_map]
  congr 1
  · by_cases holds : item ∈ set
    · simp [holds, List.range_succ]
    · simp [holds, List.range_succ]
  · congr 1
    refine List.filter_congr fun index _ => ?_
    rw [Function.comp_apply, Nat.add_comm, List.getD_cons_succ]

@[simp] theorem length_transpose (count : Nat) (sets : List (List Nat)) :
    (transpose count sets).length = count := by
  rw [transpose, List.length_map, List.length_range]

theorem getElem?_transpose {count item : Nat} (sets : List (List Nat)) (below : item < count) :
    (transpose count sets)[item]? = some (occurrences sets item) := by
  rw [transpose, List.getElem?_map, List.getElem?_range below]
  rfl

/-- Ascending buckets with the transposed memberships are the transpose. -/
theorem eq_transpose {count : Nat} {sets buckets : List (List Nat)} (length : buckets.length = count)
    (ascending : ∀ bucket ∈ buckets, bucket.Pairwise (· < ·))
    (members : ∀ (item : Nat) (bucket : List Nat), buckets[item]? = some bucket →
      ∀ index : Nat, index ∈ bucket ↔ ∃ set, sets[index]? = some set ∧ item ∈ set) :
    buckets = transpose count sets := by
  refine List.ext_getElem (by rw [length, length_transpose]) fun item inside _ => ?_
  have below : item < count := by omega
  have located := List.getElem?_eq_getElem inside
  have other := getElem?_transpose sets below
  rw [List.getElem?_eq_getElem (by rw [length_transpose]; exact below)] at other
  rw [Option.some.inj other]
  refine (ascending _ (List.getElem_mem inside)).eq_of_mem_iff (occurrences_ascending sets item) ?_
  intro index
  rw [members item _ located index, mem_occurrences]

/-- A sum over an initial range of numbers is the sum of a mapped list. -/
theorem sum_range_map (count : Nat) (f : Nat → Nat) :
    ((List.range count).map f).sum = ∑ index ∈ Finset.range count, f index := rfl

/-- Counted by item or by set, there are as many memberships. -/
theorem length_flatten_transpose {count : Nat} {sets : List (List Nat)}
    (nodup : ∀ set ∈ sets, set.Nodup) (below : ∀ set ∈ sets, ∀ item ∈ set, item < count) :
    (transpose count sets).flatten.length = sets.flatten.length := by
  let holds : Nat → Nat → Prop := fun item index => item ∈ sets.getD index []
  -- Both sides count the pairs of an item and a set it is in.
  have byItem (item : Nat) : (occurrences sets item).length =
      (Finset.bipartiteAbove holds (Finset.range sets.length) item).card := by
    rw [← List.toFinset_card_of_nodup ((occurrences_ascending sets item).nodup)]
    congr 1
    ext index
    simp [occurrences, Finset.bipartiteAbove, holds]
  have bySet (index : Nat) (inside : index ∈ Finset.range sets.length) :
      (Finset.bipartiteBelow holds (Finset.range count) index).card =
        (sets.getD index []).length := by
    have member : sets.getD index [] ∈ sets := by
      rw [List.getD_eq_getElem sets [] (Finset.mem_range.mp inside)]
      exact List.getElem_mem _
    rw [← List.toFinset_card_of_nodup (nodup _ member)]
    congr 1
    ext item
    simp only [Finset.bipartiteBelow, holds, Finset.mem_filter, Finset.mem_range,
      List.mem_toFinset, and_iff_right_iff_imp]
    exact below _ member item
  have double : ∑ item ∈ Finset.range count,
      (Finset.bipartiteAbove holds (Finset.range sets.length) item).card =
      ∑ index ∈ Finset.range sets.length,
        (Finset.bipartiteBelow holds (Finset.range count) index).card :=
    Finset.sum_card_bipartiteAbove_eq_sum_card_bipartiteBelow holds
  rw [Finset.sum_congr rfl fun index inside => bySet index inside] at double
  have rows : (List.range sets.length).map (fun index => (sets.getD index []).length) =
      sets.map List.length := by
    refine List.ext_getElem (by simp) fun index first _ => ?_
    simp at first
    simp [first]
  rw [List.length_flatten, List.length_flatten, transpose, List.map_map, ← rows]
  change ((List.range count).map fun item => (occurrences sets item).length).sum = _
  simp only [byItem]
  rw [sum_range_map, sum_range_map]
  exact double

end Oxgraph
