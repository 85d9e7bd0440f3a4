import Oxgraph.Lib.Scatter
import Oxgraph.Proofs.Property.Layer
import Oxgraph.Spec.LayerValue

/-! Rekeying is pointwise remapping, but for repeated explicit indexes of sparse layers. -/

namespace Oxgraph.Property

open Layout
open Fallible (bind_of_pure ofResult_eq_pure pure_eq_pure throw_ne_pure)
open List (forall_mem_map getElem?_map length_map map_map)

variable {Id I T V : Type} [PropertyIndex I]

-- Arrays of words.

theorem words_primitiveArray (values : List I) :
    (primitiveArray values).words = values.map Layout.toNat := by
  simp [primitiveArray, PrimitiveArray.words, Function.comp_def]

/-- An array of words has no null slot. -/
theorem nulls_primitiveArray (values : List I) :
    (PropertyIndex.intoArray (primitiveArray values) : ArrowArray T V).nulls =
      values.map fun _ => false := by
  rw [PropertyIndex.nulls_intoArray]
  simp [primitiveArray, Function.comp_def]

variable {values : ArrowArray T V}

/-- Words that are positions of an array select the values there. -/
theorem takeAt_spec {arrow : ArrowSelect T V} (selects : arrow.Positional) {positions : List I}
    (inside : ∀ position ∈ positions, Layout.toNat position < values.len) :
    ∃ taken, takeAt arrow values positions = .ok taken ∧ taken.dataType = values.dataType ∧
      taken.cells = positions.map fun position => values.cells[Layout.toNat position]?.join := by
  have noNulls : (PropertyIndex.intoArray (primitiveArray positions) : ArrowArray T V).nullCount =
      0 := by
    rw [ArrowArray.nullCount, nulls_primitiveArray, List.count_eq_zero]
    simp
  have indexes := PropertyIndex.indexes_intoArray (T := T) (V := V) (primitiveArray positions)
  obtain ⟨taken, ran, type, cells⟩ := selects values _ _ indexes noNulls (by
    rw [← PrimitiveArray.words, words_primitiveArray]
    exact forall_mem_map.mpr inside)
  refine ⟨taken, by rw [takeAt, ran]; rfl, type, ?_⟩
  rw [cells, ← PrimitiveArray.words, words_primitiveArray, map_map]
  rfl

/-- What is selected has no null where the array has none. -/
theorem ensureNoNulls_taken {values taken : ArrowArray T V} {positions : List Nat}
    (inside : ∀ position ∈ positions, position < values.len)
    (cells : taken.cells = positions.map fun position => values.cells[position]?.join)
    (valid : ensureNoNulls values = .ok ()) : ensureNoNulls taken = .ok () := by
  rw [ensureNoNulls_eq_ok] at valid ⊢
  rw [cells]
  refine forall_mem_map.mpr fun position member => ?_
  have below := inside position member
  rw [← ArrowArray.length_cells] at below
  rw [List.getElem?_eq_getElem below]
  exact valid _ (List.getElem_mem below)

-- The mapping.

variable {layerLen : Nat} {localToCanonical : List I}

theorem validateMapping_eq_ok : validateMapping layerLen localToCanonical = .ok () ↔
    ∀ canonical ∈ canonicals localToCanonical, canonical < layerLen := by
  rw [validateMapping, forM_eq_ok, canonicals, forall_mem_map]
  refine forall₂_congr fun canonical _ => ?_
  rw [toUsize_eq, Option.any_some]
  by_cases below : Layout.toNat canonical < layerLen <;> simp [below]

/-- The inverse of a mapping holds, for each canonical index, the last local position of it. -/
def Inverts (localToCanonical : List I) (canonicalToLocal : List (Option I)) : Prop :=
  ∀ canonical position, canonicalToLocal[canonical]? = some (some position) ↔
    LastAt (canonicals localToCanonical) canonical (Layout.toNat position)

/-- A mapping into a layer that fits in memory, of positions of the width, is inverted. -/
theorem invertMapping_spec (memory : layerLen ≤ sliceBound (optionBytes I))
    (below : ∀ canonical ∈ canonicals localToCanonical, canonical < layerLen)
    (fits : localToCanonical.length < LayoutIndex.bound I) :
    ∃ canonicalToLocal, invertMapping layerLen localToCanonical = pure canonicalToLocal ∧
      Inverts localToCanonical canonicalToLocal := by
  -- Each entry goes over what earlier entries of the same index have left.
  have general (mapLen : Nat) (mapping : List I)
      (below : ∀ canonical ∈ canonicals mapping, canonical < layerLen)
      (fits : mapping.length < LayoutIndex.bound I) :
      ∃ slots, mapping.zipIdx.foldlM (enterLocal layerLen mapLen) (List.replicate layerLen none) =
        .ok slots ∧ slots.length = layerLen ∧ Inverts mapping slots := by
    induction mapping using List.reverseRecOn with
    | nil =>
      refine ⟨_, rfl, List.length_replicate, fun canonical position => ?_⟩
      rw [List.getElem?_replicate]
      constructor
      · intro found
        split at found <;> simp at found
      · intro lastAt
        cases lastAt.mem
    | append_singleton mapping entry ih =>
      rw [canonicals, List.map_append, List.map_singleton] at below
      have inside : Layout.toNat entry < layerLen :=
        below _ (List.mem_append_right _ (List.mem_singleton_self _))
      rw [List.length_append, List.length_singleton] at fits
      obtain ⟨slots, ran, length, inverts⟩ :=
        ih (fun canonical member => below canonical (List.mem_append_left _ member)) (by omega)
      have position : (fromUsize mapping.length : Option I) =
          some (LayoutIndex.ofNat mapping.length) := if_pos (by omega)
      have word : Layout.toNat (LayoutIndex.ofNat mapping.length : I) = mapping.length :=
        LayoutIndex.toNat_ofNat _ (by omega)
      refine ⟨slots.set (Layout.toNat entry) (some (LayoutIndex.ofNat mapping.length)), ?_, ?_, ?_⟩
      · rw [List.zipIdx_append, List.foldlM_append, ran]
        show (enterLocal layerLen mapLen slots (entry, 0 + mapping.length) >>= pure) = _
        rw [Nat.zero_add, enterLocal, toUsize_eq]
        dsimp only
        rw [if_neg (Nat.not_le.mpr inside), position]
        rfl
      · rw [List.length_set, length]
      · intro canonical other
        rw [canonicals, List.map_append, List.map_singleton, LastAt.append_singleton_iff,
          length_map]
        by_cases same : canonical = Layout.toNat entry
        · rw [same, List.getElem?_set_self (by rw [length]; exact inside)]
          simp only [Option.some.injEq, true_and, ne_eq, not_true_eq_false, false_and, or_false]
          constructor
          · rintro rfl
            exact word
          · intro equal
            exact toNat_injective (word.trans equal.symm)
        · rw [List.getElem?_set_ne (Ne.symm same), inverts canonical other]
          simp [same, canonicals]
  obtain ⟨slots, ran, _, inverts⟩ := general localToCanonical.length localToCanonical below fits
  refine ⟨slots, ?_, inverts⟩
  unfold invertMapping
  refine (bind_of_pure (Fallible.orPanic_eq_pure.mpr (if_pos memory))).trans ?_
  rw [ran]
  rfl

/-- Slots that memory cannot hold make the inversion panic. -/
theorem invertMapping_panics (more : sliceBound (optionBytes I) < layerLen) :
    invertMapping layerLen localToCanonical = ExceptT.mk none := by
  have full : repeatOrPanic (optionBytes I) layerLen (none : Option I) = none :=
    if_neg (Nat.not_le.mpr more)
  unfold invertMapping
  rw [full]
  rfl

-- Sparse layers.

/-- An explicit index goes to the last local position of it, beside the position of its value. -/
theorem remapIndex_eq_ok {slots : List (Option I)} (inverts : Inverts localToCanonical slots)
    {count : Nat} {entry : Slot I × Nat} (fits : entry.2 < LayoutIndex.bound I) {result : I × I} :
    remapIndex layerLen slots count entry = .ok result ↔
      LastAt (canonicals localToCanonical) (Layout.toNat entry.1.value) (Layout.toNat result.1) ∧
        Layout.toNat result.2 = entry.2 := by
  have position : (fromUsize entry.2 : Option I) = some (LayoutIndex.ofNat entry.2) := if_pos fits
  have word : Layout.toNat (LayoutIndex.ofNat entry.2 : I) = entry.2 :=
    LayoutIndex.toNat_ofNat _ fits
  rw [← inverts, remapIndex, toUsize_eq]
  dsimp only
  rcases slots[Layout.toNat entry.1.value]? with _ | _ | target
  · simp
  · simp
  · rw [position]
    simp only [Except.ok.injEq, Option.some.injEq]
    constructor
    · rintro rfl
      exact ⟨rfl, word⟩
    · rintro ⟨same, taken⟩
      exact Prod.ext same (toNat_injective (word.trans taken.symm))

variable {indices : PrimitiveArray I}

/-- Sparse indexes are no more than the width has words. -/
theorem length_slots_le (distinct : indices.words.Nodup) :
    indices.slots.length ≤ LayoutIndex.bound I := by
  have below : indices.words ⊆ List.range (LayoutIndex.bound I) := by
    intro word member
    obtain ⟨slot, _, rfl⟩ := List.mem_map.mp member
    exact List.mem_range.mpr (LayoutIndex.toNat_lt slot.value)
  have count := (distinct.subperm below).length_le
  rwa [PrimitiveArray.words, length_map, List.length_range] at count

/-- The explicit values of a sparse layer are moved to the last local positions of their indexes. -/
theorem remap_spec {slots : List (Option I)} (inverts : Inverts localToCanonical slots)
    {indices : PrimitiveArray I} {values : ArrowArray T V} (distinct : indices.words.Nodup)
    (lengths : indices.slots.length = values.len)
    (known : ∀ index ∈ indices.words, index ∈ canonicals localToCanonical)
    (fits : localToCanonical.length < LayoutIndex.bound I) :
    ∃ remapped : List (I × I),
      indices.slots.zipIdx.mapM (remapIndex layerLen slots indices.slots.length) = .ok remapped ∧
      (∀ pair ∈ remapped,
        Layout.toNat pair.1 < localToCanonical.length ∧ Layout.toNat pair.2 < values.len) ∧
      Moves (canonicals localToCanonical) (explicitValues indices.words values)
        (remapped.map fun pair =>
          (Layout.toNat pair.1, values.cells[Layout.toNat pair.2]?.join)) := by
  have entryFits {entry : Slot I × Nat} (member : entry ∈ indices.slots.zipIdx) :
      indices.slots[entry.2]? = some entry.1 ∧ entry.2 < LayoutIndex.bound I := by
    have found := List.mem_zipIdx_iff_getElem?.mp member
    exact ⟨found, Nat.lt_of_lt_of_le (List.getElem?_eq_some_iff.mp found).1
      (length_slots_le distinct)⟩
  -- Every explicit index has a local position, the last of those mapped to it.
  have targets (entry : Slot I × Nat) : ∃ result, entry ∈ indices.slots.zipIdx →
      remapIndex layerLen slots indices.slots.length entry = .ok result := by
    by_cases member : entry ∈ indices.slots.zipIdx
    · obtain ⟨found, entryFits⟩ := entryFits member
      obtain ⟨position, lastAt⟩ := exists_lastAt
        (known (Layout.toNat entry.1.value) (List.mem_map_of_mem (List.mem_of_getElem? found)))
      have inside := lastAt.lt_length
      rw [canonicals, length_map] at inside
      refine ⟨(LayoutIndex.ofNat position, LayoutIndex.ofNat entry.2), fun _ => ?_⟩
      rw [remapIndex_eq_ok inverts entryFits,
        LayoutIndex.toNat_ofNat position (Nat.lt_trans inside fits)]
      exact ⟨lastAt, LayoutIndex.toNat_ofNat _ entryFits⟩
    · exact ⟨(LayoutIndex.ofNat 0, LayoutIndex.ofNat 0), fun inside => absurd inside member⟩
  choose target succeeds using targets
  have moved {entry : Slot I × Nat} (member : entry ∈ indices.slots.zipIdx) :=
    (remapIndex_eq_ok inverts (entryFits member).2).mp (succeeds entry member)
  refine ⟨indices.slots.zipIdx.map target, mapM_ok succeeds, ?_, ⟨fun position value => ?_, ?_⟩⟩
  · refine forall_mem_map.mpr fun entry member => ?_
    have inside := (moved member).1.lt_length
    rw [canonicals, length_map] at inside
    rw [(moved member).2, ← lengths]
    exact ⟨inside, (List.getElem?_eq_some_iff.mp (entryFits member).1).1⟩
  · rw [map_map, List.mem_map]
    constructor
    · rintro ⟨entry, member, same⟩
      obtain ⟨rfl, rfl⟩ := Prod.mk.inj same
      obtain ⟨lastAt, taken⟩ := moved member
      refine ⟨_, List.mem_iff_getElem?.mpr ⟨entry.2, ?_⟩, lastAt⟩
      obtain ⟨inside, here⟩ := List.getElem?_eq_some_iff.mp (entryFits member).1
      rw [lengths, ← ArrowArray.length_cells] at inside
      rw [taken, explicitValues, List.getElem?_zip_eq_some, List.getElem?_eq_getElem inside]
      refine ⟨?_, rfl⟩
      rw [PrimitiveArray.words, getElem?_map, (entryFits member).1, Option.map_some]
    · rintro ⟨key, member, lastAt⟩
      obtain ⟨index, here⟩ := List.mem_iff_getElem?.mp member
      obtain ⟨word, cell⟩ := List.getElem?_zip_eq_some.mp here
      rw [PrimitiveArray.words, getElem?_map] at word
      obtain ⟨slot, found, rfl⟩ := Option.map_eq_some_iff.mp word
      have entered : (slot, index) ∈ indices.slots.zipIdx := List.mem_zipIdx_iff_getElem?.mpr found
      refine ⟨(slot, index), entered, ?_⟩
      obtain ⟨otherAt, taken⟩ := moved entered
      dsimp only [Function.comp_apply]
      rw [otherAt.unique lastAt, taken, cell, Option.join_some]
  · -- Different indexes have different last positions.
    rw [map_map, map_map]
    have words : (indices.slots.zipIdx.map fun entry => Layout.toNat entry.1.value).Nodup := by
      have whole : (indices.slots.zipIdx.map fun entry => Layout.toNat entry.1.value) =
          indices.words := by
        rw [PrimitiveArray.words, ← List.zipIdx_map_fst 0 indices.slots, map_map]
        simp [Function.comp_def]
      rwa [whole]
    refine (List.Nodup.of_map _ words).map_on fun entry member other otherMember same => ?_
    change Layout.toNat (target entry).1 = Layout.toNat (target other).1 at same
    have equal := (moved member).1.key_unique (same ▸ (moved otherMember).1)
    exact List.inj_on_of_nodup_map words member otherMember equal

/-- Pairs of distinct targets are sorted by them. -/
theorem pairwise_mergeSort {pairs : List (I × I)}
    (distinct : (pairs.map fun pair => Layout.toNat pair.1).Nodup) :
    ((pairs.mergeSort fun left right => decide (Layout.toNat left.1 ≤ Layout.toNat right.1)).map
      fun pair => Layout.toNat pair.1).Pairwise (· < ·) := by
  have order := @List.pairwise_mergeSort (I × I)
    (fun left right => decide (Layout.toNat left.1 ≤ Layout.toNat right.1))
    (by simpa using fun left _ middle _ right _ => Nat.le_trans)
    (by simpa using fun left _ right _ => Nat.le_total _ _) pairs
  have same := List.mergeSort_perm pairs fun left right =>
    decide (Layout.toNat left.1 ≤ Layout.toNat right.1)
  have apart := ((same.map fun pair => Layout.toNat pair.1).nodup_iff).mpr distinct
  rw [List.Nodup, List.pairwise_map] at apart
  rw [List.pairwise_map]
  exact (order.and apart).imp fun ⟨le, other⟩ => Nat.lt_of_le_of_ne (of_decide_eq_true le) other

-- Layers.

variable [DecidableEq T] {arrow : ArrowSelect T V} {layer : PropertyLayer Id I T V}

theorem PropertyLayer.value_dense (layer : PropertyLayer Id I T V)
    (dense : layer.data = .dense values) : layer.value = denseValue values := by
  funext index
  rw [PropertyLayer.value, dense]

variable {default : Option (ArrowArray T V)}

theorem PropertyLayer.value_sparse (layer : PropertyLayer Id I T V)
    (sparse : layer.data = .sparse indices values default) :
    layer.value = sparseValue indices.words values default := by
  funext index
  rw [PropertyLayer.value, sparse]

/-- A layer that passes refuses an entry that is not below its length. -/
theorem rekey_below {rekeyed : PropertyLayer Id I T V}
    (passed : rekeyLayerToLocal arrow layer localToCanonical = pure rekeyed) :
    ∀ canonical ∈ canonicals localToCanonical, canonical < layer.len := by
  obtain ⟨_, checked, _⟩ := Fallible.bind_eq_pure.mp passed
  exact validateMapping_eq_ok.mp (ofResult_eq_pure.mp checked)

/-- An entry that is not below the length of a layer is an error. -/
theorem rekey_beyond (beyond : ∃ canonical ∈ canonicals localToCanonical, layer.len ≤ canonical) :
    ∃ error, rekeyLayerToLocal arrow layer localToCanonical = throw error := by
  obtain ⟨canonical, member, long⟩ := beyond
  cases checked : validateMapping layer.len localToCanonical with
  | ok _ => exact absurd (validateMapping_eq_ok.mp checked canonical member) (Nat.not_lt.mpr long)
  | error error =>
    refine ⟨error, ?_⟩
    unfold rekeyLayerToLocal
    rw [checked]
    rfl

/-- A sparse layer whose slots do not fit in memory is not rekeyed by a mapping into it. -/
theorem rekey_panics (below : ∀ canonical ∈ canonicals localToCanonical, canonical < layer.len)
    (large : ¬ layer.Invertible) :
    rekeyLayerToLocal arrow layer localToCanonical = ExceptT.mk none := by
  obtain ⟨sparse, more⟩ := not_or.mp large
  unfold rekeyLayerToLocal
  rw [validateMapping_eq_ok.mpr below]
  cases stored : layer.data with
  | dense values => exact absurd ⟨values, stored⟩ sparse
  | sparse indices values default =>
    rw [invertMapping_panics (Nat.lt_of_not_le more)]
    rfl

/-- A dense layer is read through the mapping. -/
theorem rekey_dense (selects : arrow.Positional) (dense : layer.data = .dense values)
    (below : ∀ canonical ∈ canonicals localToCanonical, canonical < layer.len) :
    ∃ rekeyed, rekeyLayerToLocal arrow layer localToCanonical = pure rekeyed ∧
      layer.Remaps localToCanonical rekeyed := by
  have checked := layer.checked
  rw [dense] at checked
  have inside : ∀ position ∈ localToCanonical, Layout.toNat position < values.len := by
    rw [← checked.len]
    exact forall_mem_map.mp below
  obtain ⟨taken, ran, type, cells⟩ := takeAt_spec selects inside
  have len : taken.len = localToCanonical.length := by
    rw [← ArrowArray.length_cells, cells, length_map]
  have checks : DenseChecks layer.descriptor taken.len taken := by
    refine ⟨checked.storage, ?_, fun strict => ?_, rfl⟩
    · have same := checked.type
      rw [ensureArrowType] at same ⊢
      rwa [type]
    · refine @ensureNoNulls_taken _ _ values taken (canonicals localToCanonical)
        (forall_mem_map.mpr inside) ?_ (checked.nulls strict)
      rw [cells, canonicals, map_map]
      rfl
  refine ⟨{ descriptor := layer.descriptor, len := taken.len, data := .dense taken
            checked := checks }, ?_, rfl, len, fun position canonical here => ?_⟩
  · unfold rekeyLayerToLocal
    rw [validateMapping_eq_ok.mpr below, dense]
    refine (bind_of_pure rfl).trans ?_
    refine ofResult_eq_pure.mpr ?_
    rw [ran]
    exact PropertyLayer.tryNewDense_eq_ok checks
  · rw [layer.value_dense dense, PropertyLayer.value_dense _ rfl]
    rw [canonicals, getElem?_map] at here
    obtain ⟨entry, found, rfl⟩ := Option.map_eq_some_iff.mp here
    rw [denseValue, denseValue, cells, getElem?_map, found, Option.map_some, Option.join_some]

/-- The default of a sparse layer has the type of its field. -/
theorem ensureDefaultType_eq_ok {descriptor : PropertyLayerDescriptor Id T}
    (policy : ∃ missing, descriptor.storage = .sparse missing ∧
      validateDefaultPolicy descriptor missing default = .ok ()) :
    ensureDefaultType descriptor default = .ok () := by
  obtain ⟨missing, _, valid⟩ := policy
  cases default with
  | none => rfl
  | some array =>
    cases missing with
    | null => cases valid
    | default => exact (seq_eq_ok.mp valid).1

/-- A sparse layer moves its explicit values to the last local positions of their indexes. -/
theorem rekey_sparse (selects : arrow.Positional)
    (sparse : layer.data = .sparse indices values default)
    (memory : layer.len ≤ sliceBound (optionBytes I))
    (below : ∀ canonical ∈ canonicals localToCanonical, canonical < layer.len)
    (known : ∀ index ∈ indices.words, index ∈ canonicals localToCanonical)
    (fits : localToCanonical.length < LayoutIndex.bound I) :
    ∃ rekeyed moved, rekeyLayerToLocal arrow layer localToCanonical = pure rekeyed ∧
      rekeyed.descriptor = layer.descriptor ∧ rekeyed.len = localToCanonical.length ∧
      Moves (canonicals localToCanonical) (explicitValues indices.words values) moved ∧
      ∀ position, rekeyed.value position =
        (moved.lookup position).getD (missingValue default) := by
  have checked := layer.checked
  rw [sparse] at checked
  obtain ⟨ascending, _⟩ := validateSparseIndices_eq_ok.mp checked.ascending
  obtain ⟨slots, inverted, inverts⟩ := invertMapping_spec memory below fits
  obtain ⟨remapped, ran, inside, moves⟩ := @remap_spec _ _ _ _ layer.len _ _ inverts _ values
    ascending.nodup checked.lengths known fits
  -- Sorting by the local positions keeps what is moved.
  let sorted := remapped.mergeSort fun left right =>
    decide (Layout.toNat left.1 ≤ Layout.toNat right.1)
  have same : sorted.Perm remapped := List.mergeSort_perm _ _
  have targets : sorted.map (fun pair => Layout.toNat pair.1) =
      (primitiveArray (sorted.map Prod.fst)).words := by
    rw [words_primitiveArray, map_map]
    rfl
  have taken : ∀ position ∈ sorted.map Prod.snd, Layout.toNat position < values.len :=
    forall_mem_map.mpr fun pair member => (inside pair (same.mem_iff.mp member)).2
  obtain ⟨chosen, took, type, cells⟩ := takeAt_spec selects taken
  have whole : explicitValues (primitiveArray (sorted.map Prod.fst)).words chosen =
      sorted.map fun pair => (Layout.toNat pair.1, values.cells[Layout.toNat pair.2]?.join) := by
    rw [explicitValues, cells, ← targets, map_map, List.zip_map']
    rfl
  have checks : SparseChecks layer.descriptor localToCanonical.length
      (primitiveArray (sorted.map Prod.fst)) chosen default := by
    constructor
    case policy => exact checked.policy
    case type =>
      have typed := checked.type
      rw [ensureArrowType] at typed ⊢
      rwa [type]
    case lengths =>
      rw [← ArrowArray.length_cells, cells, primitiveArray, length_map, length_map,
        length_map, length_map]
    case indexNulls =>
      rw [ensureNoNulls_eq_ok_iff_nulls, nulls_primitiveArray]
      exact forall_mem_map.mpr fun _ _ => rfl
    case nulls =>
      intro strict
      refine @ensureNoNulls_taken _ _ values chosen ((sorted.map Prod.snd).map Layout.toNat)
        (forall_mem_map.mpr taken) ?_ (checked.nulls strict)
      rw [cells, map_map, map_map, map_map]
      rfl
    case ascending =>
      rw [validateSparseIndices_eq_ok, ← targets]
      refine ⟨pairwise_mergeSort ?_, forall_mem_map.mpr fun pair member => ?_⟩
      · have distinct := moves.nodup
        rwa [map_map] at distinct
      · exact (inside pair (same.mem_iff.mp member)).1
  refine ⟨{ descriptor := layer.descriptor, len := localToCanonical.length
            data := .sparse (primitiveArray (sorted.map Prod.fst)) chosen default
            checked := checks }, _, ?_, rfl, rfl, moves.perm (same.map _), fun position => ?_⟩
  · unfold rekeyLayerToLocal
    rw [validateMapping_eq_ok.mpr below, sparse]
    refine (bind_of_pure rfl).trans ?_
    refine (bind_of_pure inverted).trans ?_
    refine (bind_of_pure (ofResult_eq_pure.mpr ran)).trans ?_
    refine ofResult_eq_pure.mpr ?_
    show (takeAt arrow values (sorted.map Prod.snd) >>= _) = _
    rw [took]
    show (ensureDefaultType layer.descriptor default >>= _) = _
    rw [ensureDefaultType_eq_ok checked.policy]
    exact PropertyLayer.tryNewSparse_eq_ok checks
  · rw [PropertyLayer.value_sparse _ rfl, sparseValue, whole]

/-- A layer that memory can invert is refused for an explicit index that nothing is mapped to. -/
theorem rekey_absent (fits : localToCanonical.length < LayoutIndex.bound I)
    (invertible : layer.Invertible)
    (below : ∀ canonical ∈ canonicals localToCanonical, canonical < layer.len)
    (absent : ∃ index ∈ layer.explicit, index ∉ canonicals localToCanonical) :
    ∃ error, rekeyLayerToLocal arrow layer localToCanonical = throw error := by
  obtain ⟨index, member, absent⟩ := absent
  unfold PropertyLayer.explicit at member
  cases stored : layer.data with
  | dense values =>
    rw [stored] at member
    cases member
  | sparse indices values default =>
    rw [stored] at member
    have memory : layer.len ≤ sliceBound (optionBytes I) := by
      refine invertible.resolve_left fun ⟨_, dense⟩ => ?_
      rw [stored] at dense
      cases dense
    obtain ⟨slots, inverted, inverts⟩ := invertMapping_spec memory below fits
    obtain ⟨ascending, _⟩ : indices.words.Pairwise (· < ·) ∧ _ := by
      have checked := layer.checked
      rw [stored] at checked
      exact validateSparseIndices_eq_ok.mp checked.ascending
    unfold rekeyLayerToLocal
    rw [validateMapping_eq_ok.mpr below, stored, inverted]
    cases ran : indices.slots.zipIdx.mapM (remapIndex layer.len slots indices.slots.length) with
    | error error =>
      refine ⟨error, ?_⟩
      refine (bind_of_pure rfl).trans ((bind_of_pure rfl).trans ?_)
      rw [ran]
      rfl
    | ok remapped =>
      -- The index would have been given a position that is mapped to it.
      obtain ⟨slot, slotMember, rfl⟩ := List.mem_map.mp member
      obtain ⟨position, found⟩ := List.mem_iff_getElem?.mp slotMember
      have positionFits := Nat.lt_of_lt_of_le (List.getElem?_eq_some_iff.mp found).1
        (length_slots_le ascending.nodup)
      obtain ⟨result, moved⟩ := exists_of_mapM_ok ran (slot, position)
        (List.mem_zipIdx_iff_getElem?.mpr found)
      exact absurd ((remapIndex_eq_ok inverts positionFits).mp moved).1.mem absent

/-- A layer that is not refused is remapped, if repeated indexes hold what is missing. -/
theorem rekey_accepted (selects : arrow.Positional)
    (fits : localToCanonical.length < LayoutIndex.bound I) (invertible : layer.Invertible)
    (accepted : ¬ layer.Refuses localToCanonical) :
    ∃ rekeyed, rekeyLayerToLocal arrow layer localToCanonical = pure rekeyed ∧
      (layer.Remaps localToCanonical rekeyed ↔ layer.KeepsRepeats localToCanonical) := by
  obtain ⟨below, known⟩ := not_or.mp accepted
  push Not at below known
  unfold PropertyLayer.KeepsRepeats PropertyLayer.missing
  rw [PropertyLayer.explicit] at known ⊢
  cases stored : layer.data with
  | dense values =>
    obtain ⟨rekeyed, ran, remaps⟩ := rekey_dense selects stored below
    exact ⟨rekeyed, ran, fun _ _ never => (nomatch never), fun _ => remaps⟩
  | sparse indices values default =>
    rw [stored] at known
    have memory : layer.len ≤ sliceBound (optionBytes I) := by
      refine invertible.resolve_left fun ⟨_, dense⟩ => ?_
      rw [stored] at dense
      cases dense
    obtain ⟨rekeyed, moved, ran, descriptor, len, moves, found⟩ :=
      rekey_sparse selects stored memory below known fits
    -- The explicit indices are distinct, so a value is looked up by its own index.
    have checked := layer.checked
    rw [stored] at checked
    have keys : (explicitValues indices.words values).map Prod.fst = indices.words := by
      refine List.map_fst_zip (Nat.le_of_eq ?_)
      rw [PrimitiveArray.words, length_map, ArrowArray.length_cells]
      exact checked.lengths
    have distinct := (validateSparseIndices_eq_ok.mp checked.ascending).1.nodup
    rw [← keys] at distinct
    have reads := moves.reads_iff distinct (missingValue default)
    rw [keys] at reads
    refine ⟨rekeyed, ran, ?_⟩
    rw [layer.value_sparse stored]
    refine Iff.trans ⟨fun remaps position key here => ?_, fun same => ?_⟩ reads
    · rw [← found, remaps.value position key here, layer.value_sparse stored]
      rfl
    · refine ⟨descriptor, len, fun position key here => ?_⟩
      rw [found, layer.value_sparse stored]
      exact same position key here

/-- The explicit indexes of a layer are below its length. -/
theorem explicit_lt : ∀ index ∈ layer.explicit, index < layer.len := by
  have checked := layer.checked
  unfold PropertyLayer.explicit
  cases stored : layer.data with
  | dense values => exact fun index member => (nomatch member)
  | sparse indices values default =>
    rw [stored] at checked
    exact (validateSparseIndices_eq_ok.mp checked.ascending).2

/-- A layer is remapped to every order of its indexes. -/
theorem rekey_order (selects : arrow.Positional)
    (fits : localToCanonical.length < LayoutIndex.bound I) (invertible : layer.Invertible)
    (order : (canonicals localToCanonical).Perm (List.range layer.len)) :
    ∃ rekeyed, rekeyLayerToLocal arrow layer localToCanonical = pure rekeyed ∧
      layer.Remaps localToCanonical rekeyed := by
  -- Nothing is out of range or missing from an order, and nothing comes twice.
  have accepted : ¬ layer.Refuses localToCanonical := by
    rintro (⟨canonical, member, beyond⟩ | ⟨index, member, absent⟩)
    · have inside := List.mem_range.mp (order.mem_iff.mp member)
      omega
    · exact absent (order.mem_iff.mpr (List.mem_range.mpr (explicit_lt index member)))
  obtain ⟨rekeyed, ran, remaps⟩ := rekey_accepted selects fits invertible accepted
  refine ⟨rekeyed, ran, remaps.mpr fun index _ repeated => ?_⟩
  have once := order.nodup_iff.mpr List.nodup_range
  exact absurd once repeated.not_nodup

/--
Rekeying is pointwise remapping exactly if an entry is out of range, or if the layer can be inverted,
and is refused, or the repeated explicit values are missing.

A dense layer has no explicit indexes and no inverse, so nothing is asked of it. A sparse layer keeps
one local position of each explicit index, the last one, and the others read as if nothing were
stored.
-/
theorem rekey_pointwise_iff (selects : arrow.Positional)
    (fits : localToCanonical.length < LayoutIndex.bound I) :
    RekeysPointwise arrow layer localToCanonical ↔
      (∃ canonical ∈ canonicals localToCanonical, layer.len ≤ canonical) ∨
        layer.Invertible ∧ ((∃ index ∈ layer.explicit, index ∉ canonicals localToCanonical) ∨
          layer.KeepsRepeats localToCanonical) := by
  -- A layer that is refused raises an error, so nothing that it returns has to be compared.
  have failing {error : PropertyError} (refused : layer.Refuses localToCanonical)
      (failed : rekeyLayerToLocal arrow layer localToCanonical = throw error) :
      RekeysPointwise arrow layer localToCanonical := by
    refine ⟨⟨fun _ => refused, fun _ => ⟨error, failed⟩⟩, fun accepted => absurd refused accepted,
      fun rekeyed ran => ?_, fun _ _ _ _ _ _ ran => ?_⟩
    · exact absurd (failed.symm.trans ran) throw_ne_pure
    · exact absurd (failed.symm.trans ran) throw_ne_pure
  by_cases beyond : ∃ canonical ∈ canonicals localToCanonical, layer.len ≤ canonical
  · obtain ⟨error, failed⟩ := @rekey_beyond _ _ _ _ _ _ _ arrow layer beyond
    exact ⟨fun _ => .inl beyond, fun _ => failing (.inl beyond) failed⟩
  have below : ∀ canonical ∈ canonicals localToCanonical, canonical < layer.len := by
    intro canonical member
    exact Nat.lt_of_not_le fun long => beyond ⟨canonical, member, long⟩
  rw [or_iff_right beyond]
  by_cases invertible : layer.Invertible
  · rw [and_iff_right invertible]
    by_cases absent : ∃ index ∈ layer.explicit, index ∉ canonicals localToCanonical
    · obtain ⟨error, failed⟩ :=
        @rekey_absent _ _ _ _ _ _ _ arrow layer fits invertible below absent
      exact ⟨fun _ => .inl absent, fun _ => failing (.inr absent) failed⟩
    have accepted : ¬ layer.Refuses localToCanonical := not_or.mpr ⟨beyond, absent⟩
    obtain ⟨rekeyed, ran, iff⟩ := rekey_accepted selects fits invertible accepted
    rw [or_iff_right absent, ← iff]
    refine ⟨fun pointwise => pointwise.remaps rekeyed ran, fun remaps => ?_⟩
    refine ⟨⟨fun ⟨error, failed⟩ => ?_, fun refused => absurd refused accepted⟩,
      fun _ => ⟨rekeyed, ran⟩, fun other same => ?_, ?_⟩
    · exact absurd (failed.symm.trans ran) throw_ne_pure
    · rwa [← pure_eq_pure.mp (ran.symm.trans same)]
    · intro dense ⟨values, stored⟩ content left right ranLeft ranRight
      -- Both hold at each position what the common content has at its canonical index.
      obtain ⟨other, same, leftRemaps⟩ := rekey_dense selects stored (rekey_below ranLeft)
      rw [← pure_eq_pure.mp (ranLeft.symm.trans same)] at leftRemaps
      rw [pure_eq_pure.mp (ran.symm.trans ranRight)] at remaps
      refine ⟨leftRemaps.len.trans remaps.len.symm, fun position inside => ?_⟩
      rw [leftRemaps.len] at inside
      have here : (canonicals localToCanonical)[position]? =
          some (Layout.toNat localToCanonical[position]) := by
        rw [canonicals, getElem?_map, List.getElem?_eq_getElem inside, Option.map_some]
      rw [leftRemaps.value _ _ here, remaps.value _ _ here]
      exact content.value _ (rekey_below ranLeft _ (List.mem_of_getElem? here))
  · -- A panic is neither the error of a refused layer nor the layer of an accepted one.
    have panicked := @rekey_panics _ _ _ _ _ _ _ arrow layer below invertible
    refine ⟨fun pointwise => ?_, fun ⟨inverted, _⟩ => absurd inverted invertible⟩
    by_cases refused : layer.Refuses localToCanonical
    · obtain ⟨error, failed⟩ := pointwise.refuses.mpr refused
      rw [panicked] at failed
      cases failed
    · obtain ⟨rekeyed, ran⟩ := pointwise.returns refused
      rw [panicked] at ran
      cases ran

-- A kernel that selects, and a layer.

/-- The slots of an array at positions that are there. -/
def ArrowArray.select (positions : List Nat) : ArrowArray T V → ArrowArray T V
  | uint16 array => uint16 ⟨positions.filterMap fun position => array.slots[position]?⟩
  | uint32 array => uint32 ⟨positions.filterMap fun position => array.slots[position]?⟩
  | uint64 array => uint64 ⟨positions.filterMap fun position => array.slots[position]?⟩
  | other type slots => other type (positions.filterMap fun position => slots[position]?)

/-- A kernel that selects the positions that are there. -/
def ArrowSelect.present : ArrowSelect T V where
  take values indices :=
    match indices.indexes with
    | none => .error "Take only supported for integers"
    | some positions => .ok (values.select positions)

omit [DecidableEq T] in
theorem ArrowSelect.positional_present : (ArrowSelect.present : ArrowSelect T V).Positional := by
  intro values indices positions indexes _ inside
  refine ⟨values.select positions, by simp [ArrowSelect.present, indexes],
    by cases values <;> rfl, ?_⟩
  -- Every position is there, so that none is left out.
  have general {S : Type} (slots : List S) (cell : S → Option (Cell V)) {asked : List Nat}
      (inside : ∀ position ∈ asked, position < (slots.map cell).length) :
      (asked.filterMap fun position => slots[position]?).map cell =
        asked.map fun position => (slots.map cell)[position]?.join := by
    induction asked with
    | nil => rfl
    | cons position rest ih =>
      obtain ⟨below, others⟩ := List.forall_mem_cons.mp inside
      rw [length_map] at below
      rw [List.map_cons, ← ih others]
      simp [List.getElem?_eq_getElem below]
  rw [← ArrowArray.length_cells] at inside
  cases values with
  | uint16 array => exact general array.slots _ inside
  | uint32 array => exact general array.slots _ inside
  | uint64 array => exact general array.slots _ inside
  | other type slots => exact general slots _ inside

/-- A weight of one node in a layer of two nodes. -/
def weightOfFirst : PropertyLayer UInt64 UInt16 Unit Unit where
  descriptor :=
    { layerId := 0, name := weightName, idFamily := .element, role := .weight
      storage := .sparse .null
      arrowField := { name := "weight", dataType := .uint32, nullable := false } }
  len := 2
  data := .sparse (primitiveArray [0]) (.uint32 ⟨[⟨7, false⟩]⟩) none
  checked :=
    { policy := ⟨.null, rfl, rfl⟩, type := rfl, lengths := rfl, indexNulls := rfl
      nulls := fun _ => rfl, ascending := rfl }

/-- With its nodes swapped, the layer is remapped. -/
theorem rekey_pointwise_iff_swapped : RekeysPointwise .present weightOfFirst [1, 0] ↔
    (∃ canonical ∈ canonicals ([1, 0] : List UInt16), weightOfFirst.len ≤ canonical) ∨
      weightOfFirst.Invertible ∧
        ((∃ index ∈ weightOfFirst.explicit, index ∉ canonicals ([1, 0] : List UInt16)) ∨
          weightOfFirst.KeepsRepeats [1, 0]) :=
  rekey_pointwise_iff ArrowSelect.positional_present (by decide)

/-- With its first node repeated, the layer loses the weight at all but the last position. -/
theorem rekey_not_pointwise : ¬ ∀ (arrow : ArrowSelect Unit Unit)
    (layer : PropertyLayer UInt64 UInt16 Unit Unit) (localToCanonical : List UInt16),
    arrow.Positional → localToCanonical.length < LayoutIndex.bound UInt16 →
      RekeysPointwise arrow layer localToCanonical := by
  intro claimed
  have pointwise := claimed .present weightOfFirst [0, 0] ArrowSelect.positional_present (by decide)
  have accepted : ¬ weightOfFirst.Refuses [0, 0] := by
    unfold PropertyLayer.Refuses
    decide
  obtain ⟨rekeyed, ran, remaps⟩ :=
    rekey_accepted ArrowSelect.positional_present (by decide) (.inr (by decide)) accepted
  have keeps := remaps.mp (pointwise.remaps rekeyed ran) 0 (by decide) (by decide)
  exact absurd keeps (by decide)

end Oxgraph.Property
