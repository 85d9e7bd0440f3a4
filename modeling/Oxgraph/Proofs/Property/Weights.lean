import Oxgraph.Lib.BinarySearch
import Oxgraph.Lib.Scatter
import Oxgraph.Proofs.Property.Layer
import Oxgraph.Spec.LayerValue

/-! Dense and sparse weights are what the selected layers hold. -/

namespace Oxgraph.Property

open Layout

variable {Id I T V : Type}

-- Primitive types.

namespace ArrowPrimitiveType

variable {primitive : ArrowPrimitiveType T}

theorem cell_injective : Function.Injective (primitive.cell : primitive.Native V → Cell V) := by
  intro left right same
  cases primitive <;> exact (by injection same)

/-- An array of a primitive type holds the values of its slots. -/
theorem cells_of_downcast {values : ArrowArray T V} {array : PrimitiveArray (primitive.Native V)}
    (downcast : primitive.downcast values = some array) :
    values.cells = array.slots.map fun slot => slot.cell primitive.cell := by
  -- Only the array of the type itself is one of the type.
  cases primitive <;> cases values <;>
    simp only [ArrowPrimitiveType.downcast, reduceCtorEq] at downcast
  case uint16.uint16 => cases downcast; rfl
  case uint32.uint32 => cases downcast; rfl
  case uint64.uint64 => cases downcast; rfl
  case other.other types type slots =>
    split at downcast
    · cases downcast
      rfl
    · cases downcast

end ArrowPrimitiveType

/-- Without nulls, an array holds the value of each slot. -/
theorem cells_eq {primitive : ArrowPrimitiveType T} {values : ArrowArray T V}
    {array : PrimitiveArray (primitive.Native V)}
    (downcast : primitive.downcast values = some array)
    (nulls : ensureNoNullsFrom 0 array.nulls = .ok ()) :
    values.cells = (array.slots.map Slot.value).map fun native => some (primitive.cell native) := by
  have plain := ensureNoNullsFrom_eq_ok.mp nulls
  rw [ArrowPrimitiveType.cells_of_downcast downcast, List.map_map]
  refine List.map_congr_left fun slot member => ?_
  have clear := plain slot.isNull (List.mem_map_of_mem member)
  rw [Slot.cell, clear]
  rfl

-- Searching.

section

variable [LayoutIndex I] {indices : PrimitiveArray I} {target : I}

theorem value_eq (indices : PrimitiveArray I) (index : Nat) :
    (indices.value index).map Layout.toNat = indices.words[index]? := by
  rw [PrimitiveArray.value, PrimitiveArray.words, List.getElem?_map, Option.map_map]
  rfl

theorem length_words (indices : PrimitiveArray I) : indices.words.length = indices.slots.length :=
  List.length_map _

/-- The search reads inside its range only, and halves it as a bisection does. -/
theorem lowerBound_eq_bisectPoint (fuel low high : Nat) (enough : high - low ≤ fuel)
    (inside : high ≤ indices.slots.length) :
    SparseWeights.lowerBound indices target low high = some
      (bisectPoint indices.words (fun word => decide (word < Layout.toNat target)) fuel low
        high) := by
  induction fuel generalizing low high with
  | zero =>
    rw [SparseWeights.lowerBound, if_neg (by omega), bisectPoint]
  | succ fuel ih =>
    rw [SparseWeights.lowerBound, bisectPoint]
    by_cases empty : high ≤ low
    · rw [if_neg (Nat.not_lt.mpr empty), if_pos empty]
    · have bound : low + (high - low) / 2 < indices.slots.length := by omega
      have read : indices.value (low + (high - low) / 2) =
          some (indices.slots[low + (high - low) / 2]).value := by
        rw [PrimitiveArray.value, List.getElem?_eq_getElem bound, Option.map_some]
      rw [if_pos (Nat.not_le.mp empty), if_neg empty]
      simp only [← value_eq, read, Option.bind_eq_bind, Option.bind_some, Option.map_some,
        Option.any_some, decide_eq_true_eq]
      split
      · exact ih (low + (high - low) / 2 + 1) high (by omega) inside
      · exact ih low (low + (high - low) / 2) (by omega) (by omega)

/-- In ascending indexes the search ends where the target is, when it is stored. -/
theorem lowerBound_spec (ascending : indices.words.Pairwise (· < ·)) (target : I) :
    ∃ point, SparseWeights.lowerBound indices target 0 indices.slots.length = some point ∧
      (Layout.toNat target ∈ indices.words ↔
        indices.words[point]? = some (Layout.toNat target)) := by
  have partitioned : indices.words.Pairwise fun before after =>
      decide (after < Layout.toNat target) = true →
        decide (before < Layout.toNat target) = true := by
    refine ascending.imp fun less => ?_
    simp only [decide_eq_true_eq]
    exact Nat.lt_trans less
  obtain ⟨inside, boundary⟩ := bisectPoint_spec partitioned indices.slots.length 0
    indices.slots.length (Nat.le_refl _) (Nat.zero_le _) (length_words indices ▸ Nat.le_refl _)
    (fun _ _ before => absurd before (Nat.not_lt_zero _))
    (fun index bound behind => absurd bound (by rw [length_words]; omega))
  refine ⟨_, lowerBound_eq_bisectPoint _ 0 _ (Nat.sub_le _ _) (Nat.le_refl _), fun member => ?_,
    List.mem_of_getElem?⟩
  -- The index before the boundary are below the target, and ascend to it from the boundary on.
  generalize bisectPoint indices.words (fun word => decide (word < Layout.toNat target))
    indices.slots.length 0 indices.slots.length = point at inside boundary
  simp only [decide_eq_true_eq] at boundary
  obtain ⟨position, bound, same⟩ := List.getElem_of_mem member
  have behind : ¬ position < point := by
    rw [← boundary position bound, same]
    exact Nat.lt_irrefl _
  have first : position = point := by
    by_contra apart
    have before : point < position := by omega
    have less := List.pairwise_iff_getElem.mp ascending point position (by omega) bound before
    rw [same, boundary point (by omega)] at less
    exact Nat.lt_irrefl _ less
  rw [← first, List.getElem?_eq_getElem bound, same]

/-- The search returns the value of an index that is stored, and else the default. -/
theorem sparseValue_eq {N : Type} {values : PrimitiveArray N} (default : N)
    (ascending : indices.words.Pairwise (· < ·))
    (aligned : indices.slots.length = values.slots.length) (index : Nat) :
    SparseWeights.sparseValue indices values default index = some
      (((indices.words.zip (values.slots.map Slot.value)).lookup index).getD default) := by
  unfold SparseWeights.sparseValue
  cases converted : (fromUsize index : Option I) with
  | none =>
    -- No index of the width is as large, so that none is stored.
    have absent : index ∉ indices.words := by
      intro member
      obtain ⟨slot, _, same⟩ := List.mem_map.mp member
      rw [fromUsize_eq_some.mpr same] at converted
      cases converted
    rw [lookup_zip_eq_none absent, Option.getD_none]
  | some target =>
    obtain rfl := fromUsize_eq_some.mp converted
    obtain ⟨point, searched, stored⟩ := lowerBound_spec ascending target
    simp only [searched, Option.bind_eq_bind, Option.bind_some]
    rw [← value_eq] at stored
    by_cases last : point < indices.slots.length
    · have read : indices.value point = some indices.slots[point].value := by
        rw [PrimitiveArray.value, List.getElem?_eq_getElem last, Option.map_some]
      rw [read, Option.map_some, Option.some.injEq] at stored
      rw [if_pos last, read, Option.bind_some]
      by_cases same : Layout.toNat indices.slots[point].value = Layout.toNat target
      · have here : indices.words[point]? = some (Layout.toNat target) := by
          rw [← value_eq, read, Option.map_some, same]
        have room : point < (values.slots.map Slot.value).length := by
          rw [List.length_map, ← aligned]
          exact last
        rw [if_pos same, lookup_zip_of_getElem? (ascending.imp Nat.ne_of_lt)
          (by rw [length_words, List.length_map, aligned]) here, PrimitiveArray.value,
          ← List.getElem?_map, List.getElem?_eq_getElem room, Option.getD_some]
      · rw [if_neg same, lookup_zip_eq_none (mt stored.mp same), Option.getD_none]
    · -- The search has run past the end, where nothing is stored.
      have past : indices.value point = none := by
        rw [PrimitiveArray.value, List.getElem?_eq_none (Nat.not_lt.mp last), Option.map_none]
      rw [past, Option.map_none] at stored
      rw [if_neg last, lookup_zip_eq_none (by simpa using stored), Option.getD_none]

end

-- Selected layers.

section

variable [DecidableEq T] [PropertyIndex I] {primitive : ArrowPrimitiveType T}
  {layer : PropertyLayer Id I T V}

/-- What a dense selection has checked. -/
structure DenseSelected (primitive : ArrowPrimitiveType T) (layer : PropertyLayer Id I T V)
    (expected : IdFamily) (required : Nat) (array : PrimitiveArray (primitive.Native V))
    (values : ArrowArray T V) : Prop where
  idFamily : layer.descriptor.idFamily = expected
  long : required ≤ layer.len
  data : layer.data = .dense values
  downcast : primitive.downcast values = some array
  nulls : ensureNoNullsFrom 0 array.nulls = .ok ()

/-- What a sparse selection has checked. -/
structure SparseSelected (primitive : ArrowPrimitiveType T) (layer : PropertyLayer Id I T V)
    (expected : IdFamily) (required : Nat) (indices : PrimitiveArray I)
    (array : PrimitiveArray (primitive.Native V)) (default : primitive.Native V)
    (values defaultArray : ArrowArray T V) : Prop where
  idFamily : layer.descriptor.idFamily = expected
  long : required ≤ layer.len
  data : layer.data = .sparse indices values (some defaultArray)
  downcast : primitive.downcast values = some array
  nulls : ensureNoNullsFrom 0 array.nulls = .ok ()
  downcastDefault : primitive.downcast defaultArray = some ⟨[⟨default, false⟩]⟩

variable {array : PrimitiveArray (primitive.Native V)} {expected : IdFamily} {required : Nat}

/-- A dense layer is selected exactly when it passes the checks. -/
theorem validateDensePrimitiveSelection_eq_ok :
    validateDensePrimitiveSelection primitive layer expected required = .ok array ↔
      ∃ values, DenseSelected primitive layer expected required array values := by
  constructor
  · intro selected
    unfold validateDensePrimitiveSelection at selected
    split at selected
    · cases selected
    rename_i idFamily
    split at selected
    · cases selected
    rename_i long
    split at selected
    · cases selected
    rename_i values data
    split at selected
    · cases selected
    rename_i downcast
    obtain ⟨nulls, returned⟩ := seq_eq_ok.mp selected
    cases returned
    exact ⟨values, not_not.mp idFamily, Nat.not_lt.mp long, data, downcast, nulls⟩
  · rintro ⟨values, idFamily, long, data, downcast, nulls⟩
    rw [validateDensePrimitiveSelection, if_neg (not_not.mpr idFamily), if_neg (Nat.not_lt.mpr long)]
    simp only [data, downcast]
    exact seq_eq_ok.mpr ⟨nulls, rfl⟩

/-- A sparse layer is selected exactly when it passes the checks. -/
theorem validateSparsePrimitiveSelection_eq_ok {indices : PrimitiveArray I}
    {default : primitive.Native V} :
    validateSparsePrimitiveSelection primitive layer expected required =
        .ok (indices, array, default) ↔
      ∃ values defaultArray, SparseSelected primitive layer expected required indices array default
        values defaultArray := by
  constructor
  · intro selected
    unfold validateSparsePrimitiveSelection at selected
    split at selected
    · cases selected
    rename_i idFamily
    split at selected
    · cases selected
    rename_i long
    split at selected
    · cases selected
    · cases selected
    rename_i stored values defaultArray data
    split at selected
    · cases selected
    rename_i found downcast
    obtain ⟨nulls, returned⟩ := seq_eq_ok.mp selected
    split at returned
    · cases returned
    rename_i defaultPrimitive downcastDefault
    split at returned
    · rename_i value one
      cases returned
      refine ⟨values, defaultArray, not_not.mp idFamily, Nat.not_lt.mp long, data, downcast, nulls,
        ?_⟩
      rw [downcastDefault, ← one]
    · cases returned
  · rintro ⟨values, defaultArray, idFamily, long, data, downcast, nulls, downcastDefault⟩
    rw [validateSparsePrimitiveSelection, if_neg (not_not.mpr idFamily),
      if_neg (Nat.not_lt.mpr long)]
    simp only [data, downcast, downcastDefault]
    exact seq_eq_ok.mpr ⟨nulls, rfl⟩

/-- A dense selection holds below the required length what its layer holds. -/
theorem DenseSelected.value {values : ArrowArray T V}
    (selected : DenseSelected primitive layer expected required array values) {index : Nat}
    (inside : index < required) : ∃ native, array.value index = some native ∧
      layer.value index = some (primitive.cell native) := by
  have checked := layer.checked
  rw [selected.data] at checked
  have cells := cells_eq selected.downcast selected.nulls
  have length : layer.len = array.slots.length := by
    rw [checked.len, ← ArrowArray.length_cells, cells, List.length_map, List.length_map]
  have bound : index < array.slots.length := by
    have long := selected.long
    omega
  refine ⟨array.slots[index].value, ?_, ?_⟩
  · rw [PrimitiveArray.value, List.getElem?_eq_getElem bound, Option.map_some]
  · rw [PropertyLayer.value, selected.data]
    simp [denseValue, cells, bound]

/-- A sparse selection returns for every index what its layer holds. -/
theorem SparseSelected.value {indices : PrimitiveArray I} {default : primitive.Native V}
    {values defaultArray : ArrowArray T V}
    (selected : SparseSelected primitive layer expected required indices array default values
      defaultArray) (index : Nat) :
    ∃ native, SparseWeights.sparseValue indices array default index = some native ∧
      layer.value index = some (primitive.cell native) := by
  have checked := layer.checked
  rw [selected.data] at checked
  have cells := cells_eq selected.downcast selected.nulls
  have aligned : indices.slots.length = array.slots.length := by
    rw [checked.lengths, ← ArrowArray.length_cells, cells, List.length_map, List.length_map]
  have ascending := (validateSparseIndices_eq_ok.mp checked.ascending).1
  refine ⟨_, sparseValue_eq default ascending aligned index, ?_⟩
  -- The default array holds the default, and a stored value is the cell of a native one.
  have missing : missingValue (some defaultArray) = some (primitive.cell default) := by
    rw [missingValue, Option.bind_some,
      cells_eq selected.downcastDefault
        (ensureNoNullsFrom_eq_ok.mpr (by simp [PrimitiveArray.nulls]))]
    rfl
  rw [PropertyLayer.value, selected.data]
  dsimp only
  rw [sparseValue, explicitValues, cells, missing, lookup_zip_map]
  cases (indices.words.zip (array.slots.map Slot.value)).lookup index <;> rfl

-- Weights.

variable {E R C : Type} {topology : DenseTopology E R C} {axis : PropertyAxis}

/-- Dense weights are what the layer holds. -/
theorem DenseWeights.weighs {weights : DenseWeights axis E R C (primitive.Native V)}
    (accepted : DenseWeights.new axis primitive topology layer = .ok weights) :
    (topology.along axis).Weighs weights.weight primitive.cell layer.value := by
  obtain ⟨array, validated, returned⟩ := bind_eq_ok.mp accepted
  cases returned
  obtain ⟨values, selected⟩ := validateDensePrimitiveSelection_eq_ok.mp validated
  intro id index indexed inside
  obtain ⟨native, read, holds⟩ := selected.value inside
  refine ⟨native, ?_, holds⟩
  rw [DenseWeights.weight, indexed]
  exact read

/-- Sparse weights are what the layer holds. -/
theorem SparseWeights.weighs {weights : SparseWeights axis E R C I (primitive.Native V)}
    (accepted : SparseWeights.new axis primitive topology layer = .ok weights) :
    (topology.along axis).Weighs weights.weight primitive.cell layer.value := by
  obtain ⟨⟨indices, array, default⟩, validated, returned⟩ := bind_eq_ok.mp accepted
  cases returned
  obtain ⟨values, defaultArray, selected⟩ := validateSparsePrimitiveSelection_eq_ok.mp validated
  intro id index indexed inside
  obtain ⟨native, read, holds⟩ := selected.value index
  refine ⟨native, ?_, holds⟩
  rw [SparseWeights.weight, indexed]
  exact read

end

/--
Accepted weights are what their layers hold, and layers of the same content weigh the same.

No lookup of an ID below the bound panics. Layers may be longer than the axis, and the two layers
that are compared may have different index widths.
-/
theorem weights_total_and_equal {Jd J E R C : Type} [DecidableEq T] [PropertyIndex I]
    [PropertyIndex J] (primitive : ArrowPrimitiveType T) (topology : DenseTopology E R C)
    (axis : PropertyAxis) :
    (∀ (layer : PropertyLayer Id I T V) weights,
      DenseWeights.new axis primitive topology layer = .ok weights →
        (topology.along axis).Weighs weights.weight primitive.cell layer.value) ∧
    (∀ (layer : PropertyLayer Jd J T V) weights,
      SparseWeights.new axis primitive topology layer = .ok weights →
        (topology.along axis).Weighs weights.weight primitive.cell layer.value) ∧
    ∀ (dense : PropertyLayer Id I T V) denseWeights (sparse : PropertyLayer Jd J T V) sparseWeights,
      DenseWeights.new axis primitive topology dense = .ok denseWeights →
      SparseWeights.new axis primitive topology sparse = .ok sparseWeights →
      (∀ index < topology.axisBound axis, dense.value index = sparse.value index) →
      ∀ id index, (topology.along axis).index id = some index → index < topology.axisBound axis →
        denseWeights.weight id = sparseWeights.weight id := by
  refine ⟨fun layer weights => DenseWeights.weighs, fun layer weights => SparseWeights.weighs, ?_⟩
  intro dense denseWeights sparse sparseWeights denseAccepted sparseAccepted same id index indexed
    inside
  obtain ⟨left, leftWeight, leftHolds⟩ := DenseWeights.weighs denseAccepted id index indexed inside
  obtain ⟨right, rightWeight, rightHolds⟩ :=
    SparseWeights.weighs sparseAccepted id index indexed inside
  -- Both natives stand for the one value that the layers hold at the index.
  have cells := leftHolds.symm.trans ((same index inside).trans rightHolds)
  rw [leftWeight, rightWeight, ArrowPrimitiveType.cell_injective (Option.some.inj cells)]

/-- A topology view of two elements, each its own index. -/
def twoElements : DenseTopology Nat Empty Empty where
  element := ⟨2, some⟩
  relation := ⟨0, nofun⟩
  incidence := ⟨0, nofun⟩

/-- Weights of three elements, all of them stored. -/
def denseFives : PropertyLayer Unit UInt32 Unit Unit where
  descriptor :=
    { layerId := (), name := weightName, idFamily := .element, role := .weight
      storage := .dense, arrowField := { name := "weight", dataType := .uint64, nullable := true } }
  len := 3
  data := .dense (.uint64 ⟨[⟨5, false⟩, ⟨9, false⟩, ⟨5, false⟩]⟩)
  checked := { storage := rfl, type := rfl, nulls := nofun, len := rfl }

/-- Weights of four elements, one of them stored. -/
def sparseFives : PropertyLayer Bool UInt16 Unit Unit where
  descriptor :=
    { layerId := true, name := weightName, idFamily := .element, role := .weight
      storage := .sparse .default
      arrowField := { name := "weight", dataType := .uint64, nullable := false } }
  len := 4
  data := .sparse ⟨[⟨1, false⟩]⟩ (.uint64 ⟨[⟨9, false⟩]⟩) (some (.uint64 ⟨[⟨5, false⟩]⟩))
  checked :=
    { policy := ⟨.default, rfl, rfl⟩, type := rfl, lengths := rfl, indexNulls := rfl
      nulls := fun _ => rfl, ascending := rfl }

/-- The two layers weigh both elements the same. -/
theorem fives_weigh_equal : ∃ dense sparse,
    DenseWeights.new .element .uint64 twoElements denseFives = .ok dense ∧
      SparseWeights.new .element .uint64 twoElements sparseFives = .ok sparse ∧
      (∃ native, dense.elementWeight 1 = some native ∧ denseFives.value 1 = some (.uint64 native)) ∧
      (∃ native, sparse.elementWeight 0 = some native ∧
        sparseFives.value 0 = some (.uint64 native)) ∧
      ∀ id < 2, dense.elementWeight id = sparse.elementWeight id := by
  obtain ⟨dense, sparse, equal⟩ := @weights_total_and_equal Unit UInt32 Unit Unit Bool UInt16 Nat
    Empty Empty _ _ _ .uint64 twoElements .element
  refine ⟨_, _, rfl, rfl, dense denseFives _ rfl (1 : Nat) 1 rfl (by decide),
    sparse sparseFives _ rfl (0 : Nat) 0 rfl (by decide), fun id inside => ?_⟩
  exact equal denseFives _ sparseFives _ rfl rfl (by decide) id id rfl inside

end Oxgraph.Property
