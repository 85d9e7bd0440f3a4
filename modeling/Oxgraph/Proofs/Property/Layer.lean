import Oxgraph.Spec.LayerValue
import Oxgraph.Spec.Property

/-! What a stream of columns says in plain numbers, and what the layer constructors check of values. -/

namespace Oxgraph.Property

open Layout

-- Numbers.

/-- A number as that many ones and a zero. -/
def unary (number : Nat) : Bytes := List.replicate number 1 ++ [0]

/-- The numbers of a stream, from a number that was begun on. -/
def readUnary : Nat → Bytes → List Nat
  | _, [] => []
  | begun, byte :: rest =>
    if byte = 0 then begun :: readUnary 0 rest else readUnary (begun + 1) rest

theorem readUnary_unary (begun number : Nat) (rest : Bytes) :
    readUnary begun (unary number ++ rest) = (begun + number) :: readUnary 0 rest := by
  induction number generalizing begun with
  | zero => rfl
  | succ number ih =>
    have step := ih (begun + 1)
    rw [Nat.add_assoc, Nat.add_comm 1] at step
    simpa [unary, List.replicate_succ, readUnary] using step

/-- A stream of numbers reads back. -/
theorem readUnary_flatMap (numbers : List Nat) : readUnary 0 (numbers.flatMap unary) = numbers := by
  induction numbers with
  | nil => rfl
  | cons number rest ih => rw [List.flatMap_cons, readUnary_unary, Nat.zero_add, ih]

-- Slots.

section Slots

variable {I : Type}

/-- Slots as numbers: each its value, and one for null. -/
def slotNumbers (write : I → Nat) (slots : List (Slot I)) : List Nat :=
  slots.flatMap fun slot => [write slot.value, if slot.isNull then 1 else 0]

/-- As many slots as asked for, and the numbers behind them. -/
def readSlots (read : Nat → I) : Nat → List Nat → List (Slot I) × List Nat
  | count + 1, value :: flag :: rest =>
    let (slots, rest) := readSlots read count rest
    (⟨read value, flag = 1⟩ :: slots, rest)
  | _, numbers => ([], numbers)

/-- Slots read back when their values do. -/
theorem readSlots_slotNumbers {write : I → Nat} {read : Nat → I}
    (inverse : ∀ value, read (write value) = value) (slots : List (Slot I)) (rest : List Nat) :
    readSlots read slots.length (slotNumbers write slots ++ rest) = (slots, rest) := by
  induction slots with
  | nil => cases rest <;> rfl
  | cons slot others ih =>
    have flag : decide ((if slot.isNull then 1 else 0) = 1) = slot.isNull := by
      cases slot.isNull <;> rfl
    rw [slotNumbers, List.flatMap_cons, ← slotNumbers]
    simp only [List.length_cons, List.cons_append, List.nil_append, readSlots, ih, inverse, flag]

end Slots

-- Columns.

/-- A column as numbers: its type, its length, and its slots. -/
def columnNumbers : ArrowArray Unit Unit → List Nat
  | .uint16 array => 0 :: array.slots.length :: slotNumbers toNat array.slots
  | .uint32 array => 1 :: array.slots.length :: slotNumbers toNat array.slots
  | .uint64 array => 2 :: array.slots.length :: slotNumbers toNat array.slots
  | .other _ slots => 3 :: slots.length :: slotNumbers (fun _ => 0) slots

/-- One column, and the numbers behind it. -/
def readColumn : List Nat → Option (ArrowArray Unit Unit × List Nat)
  | type :: length :: numbers =>
    match type with
    | 0 => let (slots, rest) := readSlots LayoutIndex.ofNat length numbers
      some (.uint16 ⟨slots⟩, rest)
    | 1 => let (slots, rest) := readSlots LayoutIndex.ofNat length numbers
      some (.uint32 ⟨slots⟩, rest)
    | 2 => let (slots, rest) := readSlots LayoutIndex.ofNat length numbers
      some (.uint64 ⟨slots⟩, rest)
    | 3 => let (slots, rest) := readSlots (fun _ => ()) length numbers
      some (.other () slots, rest)
    | _ => none
  | _ => none

theorem readColumn_columnNumbers (column : ArrowArray Unit Unit) (rest : List Nat) :
    readColumn (columnNumbers column ++ rest) = some (column, rest) := by
  -- A word of a width is the number that it stands for.
  cases column with
  | uint16 array =>
    simp [columnNumbers, readColumn, readSlots_slotNumbers LayoutIndex.ofNat_toNat]
  | uint32 array =>
    simp [columnNumbers, readColumn, readSlots_slotNumbers LayoutIndex.ofNat_toNat]
  | uint64 array =>
    simp [columnNumbers, readColumn, readSlots_slotNumbers LayoutIndex.ofNat_toNat]
  | other type slots =>
    have read := @readSlots_slotNumbers Unit (fun _ => 0) (fun _ => ()) (fun _ => rfl) slots rest
    simp [columnNumbers, readColumn, read]

/-- As many columns as asked for. -/
def readColumns : Nat → List Nat → Option (List (ArrowArray Unit Unit))
  | 0, _ => some []
  | count + 1, numbers => do
    let (column, rest) ← readColumn numbers
    let columns ← readColumns count rest
    return column :: columns

theorem readColumns_flatMap (columns : List (ArrowArray Unit Unit)) :
    readColumns columns.length (columns.flatMap columnNumbers) = some columns := by
  induction columns with
  | nil => rfl
  | cons column rest ih =>
    rw [List.flatMap_cons, List.length_cons, readColumns, readColumn_columnNumbers]
    simp [ih]

-- Streams.

/-- A stream of one batch: the number of its columns, and the columns. -/
def ArrowIpc.plain : ArrowIpc Unit Unit where
  write _ columns := .ok ((columns.length :: columns.flatMap columnNumbers).flatMap unary)
  read bytes :=
    match readUnary 0 bytes with
    | [] => .error "no batch"
    | count :: numbers =>
      match readColumns count numbers with
      | none => .error "truncated batch"
      | some columns => .ok [.ok ⟨columns⟩]

/-- What was written is read back. -/
theorem ArrowIpc.inverse_plain : ArrowIpc.plain.Inverse := by
  intro fields columns _
  refine ⟨_, rfl, by simp [unary], ?_⟩
  simp only [ArrowIpc.plain, readUnary_flatMap, readColumns_flatMap]

end Oxgraph.Property

-- What the constructors of property layers check, said of the values that the arrays hold.

namespace Oxgraph.Property

open Layout

variable {Id I T V : Type}

namespace ArrowArray

variable (array : ArrowArray T V)

/-- A slot is null when it has no value. -/
theorem nulls_eq : array.nulls = array.cells.map Option.isNone := by
  cases array <;> simp [nulls, cells, Slot.cell, Function.comp_def] <;>
    exact fun slot _ => by cases slot.isNull <;> rfl

theorem length_cells : array.cells.length = array.len := by
  rw [len, nulls_eq, List.length_map]

end ArrowArray

/-- The check passes when no slot from the index on is null. -/
theorem ensureNoNullsFrom_eq_ok {index : Nat} {nulls : List Bool} :
    ensureNoNullsFrom index nulls = .ok () ↔ ∀ null ∈ nulls, null = false := by
  induction nulls generalizing index with
  | nil => simp [ensureNoNullsFrom]
  | cons null rest ih =>
    cases null with
    | false => simpa [ensureNoNullsFrom] using ih
    | true => simp [ensureNoNullsFrom]

/-- The check passes when no slot is null. -/
theorem ensureNoNulls_eq_ok_iff_nulls {array : ArrowArray T V} :
    ensureNoNulls array = .ok () ↔ ∀ null ∈ array.nulls, null = false :=
  ensureNoNullsFrom_eq_ok

/-- The check passes when every slot has a value. -/
theorem ensureNoNulls_eq_ok {array : ArrowArray T V} :
    ensureNoNulls array = .ok () ↔ ∀ cell ∈ array.cells, cell ≠ none := by
  rw [ensureNoNulls_eq_ok_iff_nulls, ArrowArray.nulls_eq]
  simp only [List.forall_mem_map, Option.isNone_eq_false_iff, Option.isSome_iff_ne_none]

variable [DecidableEq T] [PropertyIndex I]

/-- Sparse indexes are accepted when they ascend strictly and are below the length. -/
theorem validateSparseIndices_eq_ok {indices : PrimitiveArray I} {len : Nat} :
    validateSparseIndices indices len = .ok () ↔
      indices.words.Pairwise (· < ·) ∧ ∀ word ∈ indices.words, word < len := by
  -- The previous index stands in front of those that are left.
  have general (slots : List (Slot I)) (position : Nat) (previous : Option I) :
      validateSparseIndicesFrom len position previous slots = .ok () ↔
        (previous.toList.map Layout.toNat ++
            slots.map fun slot => Layout.toNat slot.value).IsChain (· < ·) ∧
          ∀ slot ∈ slots, Layout.toNat slot.value < len := by
    induction slots generalizing position previous with
    | nil =>
      cases previous <;> simp [validateSparseIndicesFrom]
    | cons slot rest ih =>
      have next := ih (position + 1) (some slot.value)
      rw [validateSparseIndicesFrom, toUsize_eq, List.forall_mem_cons]
      dsimp only
      by_cases outside : len ≤ Layout.toNat slot.value
      · rw [if_pos outside]
        simp only [reduceCtorEq, false_iff]
        exact fun all => absurd all.2.1 (Nat.not_lt.mpr outside)
      · rw [if_neg outside]
        cases previous with
        | none =>
          simp only [Option.any_none, Bool.false_eq_true, if_false, next]
          simp only [Option.toList_some, Option.toList_none, List.map_cons, List.map_nil,
            List.nil_append, List.singleton_append]
          exact ⟨fun ⟨chain, below⟩ => ⟨chain, Nat.not_le.mp outside, below⟩,
            fun ⟨chain, _, below⟩ => ⟨chain, below⟩⟩
        | some prior =>
          by_cases descends : Layout.toNat slot.value ≤ Layout.toNat prior
          · rw [if_pos (by simpa using descends)]
            simp only [reduceCtorEq, false_iff]
            rintro ⟨chain, _⟩
            exact absurd (List.isChain_cons_cons.mp chain).1 (Nat.not_lt.mpr descends)
          · rw [if_neg (by simpa using descends), next]
            simp only [Option.toList_some, List.map_cons, List.map_nil, List.singleton_append,
              List.isChain_cons_cons]
            exact ⟨fun ⟨chain, below⟩ =>
                ⟨⟨Nat.not_le.mp descends, chain⟩, Nat.not_le.mp outside, below⟩,
              fun ⟨⟨_, chain⟩, _, below⟩ => ⟨chain, below⟩⟩
  rw [validateSparseIndices, general, ← List.isChain_iff_pairwise]
  simp only [Option.toList_none, List.map_nil, List.nil_append, PrimitiveArray.words,
    List.forall_mem_map]

namespace PropertyLayer

theorem passing_eq {check : Except PropertyError Unit} (passes : check = .ok ()) :
    passing check = .ok ⟨passes⟩ := by
  subst passes
  rfl

theorem passingUnless_eq {nullable : Bool} {check : Except PropertyError Unit}
    (passes : nullable = false → check = .ok ()) : passingUnless nullable check = .ok ⟨passes⟩ := by
  cases nullable with
  | true => rfl
  | false =>
    have passed := passes rfl
    subst passed
    rfl

/-- A dense layer that meets the checks is built. -/
theorem tryNewDense_eq_ok {descriptor : PropertyLayerDescriptor Id T} {values : ArrowArray T V}
    (checks : DenseChecks descriptor values.len values) :
    (tryNewDense descriptor values : Except PropertyError (PropertyLayer Id I T V)) =
      .ok { descriptor, len := values.len, data := .dense values, checked := checks } := by
  unfold tryNewDense
  rw [dif_pos checks.storage, passing_eq checks.type, passingUnless_eq checks.nulls]
  rfl

/-- A sparse layer that meets the checks is built. -/
theorem tryNewSparse_eq_ok {descriptor : PropertyLayerDescriptor Id T} {len : Nat}
    {indices : PrimitiveArray I} {values : ArrowArray T V} {default : Option (ArrowArray T V)}
    (checks : SparseChecks descriptor len indices values default) :
    tryNewSparse descriptor len indices values default =
      .ok { descriptor, len, data := .sparse indices values default, checked := checks } := by
  obtain ⟨missing, storage, policy⟩ := checks.policy
  unfold tryNewSparse
  split
  · rename_i dense
    rw [dense] at storage
    cases storage
  · rename_i other same
    rw [same] at storage
    cases storage
    rw [passing_eq policy, passing_eq checks.type, passing_eq checks.indexNulls,
      passingUnless_eq checks.nulls, passing_eq checks.ascending]
    exact dif_pos checks.lengths

end PropertyLayer

/-- The name of a layer of weights. -/
def weightName : LayerName := ⟨"weight", by decide⟩

end Oxgraph.Property
