import Mathlib.Data.List.Duplicate
import Oxgraph.Property.Rekey
import Oxgraph.Property.Weights

/-! The values that a property layer stands for, rekeying as pointwise remapping, and weights. -/

namespace Oxgraph.Property

open Layout

variable {Id I T V : Type}

/-- A value of an array, in its type. -/
inductive Cell (V : Type) where
  | uint16 (value : UInt16)
  | uint32 (value : UInt32)
  | uint64 (value : UInt64)
  | other (value : V)
  deriving DecidableEq, Repr

/-- The value of a slot, unless it is null. -/
def Slot.cell (slot : Slot I) (cell : I → Cell V) : Option (Cell V) :=
  if slot.isNull then none else some (cell slot.value)

/-- The values of an array; a null slot has none. -/
def ArrowArray.cells : ArrowArray T V → List (Option (Cell V))
  | uint16 array => array.slots.map fun slot => slot.cell .uint16
  | uint32 array => array.slots.map fun slot => slot.cell .uint32
  | uint64 array => array.slots.map fun slot => slot.cell .uint64
  | other _ slots => slots.map fun slot => slot.cell .other

/-- What a sparse layer holds where it stores no value: its default, else null. -/
def missingValue (default : Option (ArrowArray T V)) : Option (Cell V) :=
  default.bind fun array => array.cells.head?.join

/-- The explicit values of a sparse layer, with their indexes. -/
def explicitValues (indexes : List Nat) (values : ArrowArray T V) :
    List (Nat × Option (Cell V)) :=
  indexes.zip values.cells

/-- The value at an index of a sparse layer: the explicit one, else the missing one. -/
def sparseValue (indexes : List Nat) (values : ArrowArray T V) (default : Option (ArrowArray T V))
    (index : Nat) : Option (Cell V) :=
  ((explicitValues indexes values).lookup index).getD (missingValue default)

/-- The value at an index of a dense layer. -/
def denseValue (values : ArrowArray T V) (index : Nat) : Option (Cell V) :=
  values.cells[index]?.join

/-- The indexes of an array of words. -/
def PrimitiveArray.words [LayoutIndex I] (array : PrimitiveArray I) : List Nat :=
  array.slots.map fun slot => Layout.toNat slot.value

namespace PropertyLayer

variable [DecidableEq T] [PropertyIndex I] (layer : PropertyLayer Id I T V)

/-- The value that a layer stands for at an index; null is none. -/
def value (index : Nat) : Option (Cell V) :=
  match layer.data with
  | .dense values => denseValue values index
  | .sparse indices values default => sparseValue indices.words values default index

/-- The indexes at which a sparse layer stores a value; a dense one stores all alike. -/
def explicit : List Nat :=
  match layer.data with
  | .dense _ => []
  | .sparse indices _ _ => indices.words

/-- What a layer holds where it stores no value. -/
def missing : Option (Cell V) :=
  match layer.data with
  | .dense _ => none
  | .sparse _ _ default => missingValue default

/-- Two layers stand for the same values. -/
structure SameContent (left right : PropertyLayer Id I T V) : Prop where
  len : left.len = right.len
  value : ∀ index < left.len, left.value index = right.value index

/-- A layer stores all values. -/
def IsDense : Prop := ∃ values, layer.data = .dense values

end PropertyLayer

-- Rekeying.

variable [DecidableEq T] [PropertyIndex I]

/-- Taking selects positions: the slots at indexes that are there, of the type of the array. -/
def ArrowSelect.Positional (arrow : ArrowSelect T V) : Prop :=
  ∀ (values indices : ArrowArray T V) (positions : List Nat),
    indices.indexes = some positions → indices.nullCount = 0 →
    (∀ position ∈ positions, position < values.len) →
    ∃ taken, arrow.take values indices = .ok taken ∧ taken.dataType = values.dataType ∧
      taken.cells = positions.map fun position => values.cells[position]?.join

variable (arrow : ArrowSelect T V) (layer : PropertyLayer Id I T V) (localToCanonical : List I)

/-- The canonical index of each local position. -/
def canonicals : List Nat := localToCanonical.map Layout.toNat

/-- An entry is not below the layer's length, or an explicit index does not occur in the map. -/
def PropertyLayer.Refuses : Prop :=
  (∃ canonical ∈ canonicals localToCanonical, layer.len ≤ canonical) ∨
    ∃ index ∈ layer.explicit, index ∉ canonicals localToCanonical

/-- A layer holds at each local position what another one holds at the canonical index there. -/
structure PropertyLayer.Remaps (rekeyed : PropertyLayer Id I T V) : Prop where
  descriptor : rekeyed.descriptor = layer.descriptor
  len : rekeyed.len = localToCanonical.length
  value : ∀ position canonical, (canonicals localToCanonical)[position]? = some canonical →
    rekeyed.value position = layer.value canonical

/-- A layer is dense, or memory can hold a slot for each of its indexes. -/
def PropertyLayer.Invertible : Prop := layer.IsDense ∨ layer.len ≤ sliceBound (optionBytes I)

/-- Rekeying is pointwise remapping, and so the same for all layers of the same content. -/
structure RekeysPointwise : Prop where
  refuses : (∃ error, rekeyLayerToLocal arrow layer localToCanonical = throw error) ↔
    layer.Refuses localToCanonical
  returns : ¬ layer.Refuses localToCanonical →
    ∃ rekeyed, rekeyLayerToLocal arrow layer localToCanonical = pure rekeyed
  remaps : ∀ rekeyed, rekeyLayerToLocal arrow layer localToCanonical = pure rekeyed →
    layer.Remaps localToCanonical rekeyed
  agrees : ∀ dense : PropertyLayer Id I T V, dense.IsDense → dense.SameContent layer →
    ∀ left right, rekeyLayerToLocal arrow dense localToCanonical = pure left →
      rekeyLayerToLocal arrow layer localToCanonical = pure right → left.SameContent right

/-- An explicit index that occurs again in the map holds what is held where nothing is explicit. -/
def PropertyLayer.KeepsRepeats : Prop :=
  ∀ index ∈ layer.explicit, (canonicals localToCanonical).Duplicate index →
    layer.value index = layer.missing

end Oxgraph.Property

-- The weights that a layer stands for along an axis of a topology view.

namespace Oxgraph.Property

/-- A value of a primitive type, in its type. -/
def ArrowPrimitiveType.cell {T V : Type} :
    (primitive : ArrowPrimitiveType T) → primitive.Native V → Cell V
  | uint16, value => .uint16 value
  | uint32, value => .uint32 value
  | uint64, value => .uint64 value
  | other _, value => .other value

/-- Every ID with a dense index below the bound weighs what a layer holds at that index. -/
def DenseIndex.Weighs {Id N V : Type} (ids : DenseIndex Id) (weight : Id → Option N)
    (cell : N → Cell V) (value : Nat → Option (Cell V)) : Prop :=
  ∀ id index, ids.index id = some index → index < ids.bound →
    ∃ native, weight id = some native ∧ value index = some (cell native)

end Oxgraph.Property
