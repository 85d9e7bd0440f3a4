import Oxgraph.Property.Model

/-! Topology weights over selected primitive property layers. -/

namespace Oxgraph.Property

open Layout

-- Primitive arrays.

/-- A primitive Arrow type; one of the others may have several data types, such as time zones. -/
inductive ArrowPrimitiveType (T : Type) where
  | uint16
  | uint32
  | uint64
  | other (types : T → Bool)

namespace ArrowPrimitiveType

/-- The type of the values of a primitive type. -/
def Native (V : Type) {T : Type} : ArrowPrimitiveType T → Type
  | uint16 => UInt16
  | uint32 => UInt32
  | uint64 => UInt64
  | other _ => V

/-- The array of a primitive type, when it is one. -/
def downcast {T V : Type} : (primitive : ArrowPrimitiveType T) → ArrowArray T V →
    Option (PrimitiveArray (primitive.Native V))
  | uint16, .uint16 array => some array
  | uint32, .uint32 array => some array
  | uint64, .uint64 array => some array
  | other types, .other type slots => if types type then some ⟨slots⟩ else none
  | _, _ => none

end ArrowPrimitiveType

namespace PrimitiveArray

variable {N : Type} (array : PrimitiveArray N)

/-- Whether each slot is null. -/
def nulls : List Bool := array.slots.map Slot.isNull

/-- The value of a slot, whether or not it is null; an index outside panics. -/
def value (index : Nat) : Option N := array.slots[index]?.map Slot.value

end PrimitiveArray

-- Axes.

/-- The axis of a topology view that a layer is keyed by. -/
inductive PropertyAxis where
  | element
  | relation
  | incidence
  deriving DecidableEq, Repr

namespace PropertyAxis

/-- The family that an axis selects from a layer. -/
def idFamily : PropertyAxis → IdFamily
  | element => .element
  | relation => .relation
  | incidence => .incidence

/-- The IDs along an axis. -/
def Id (E R C : Type) : PropertyAxis → Type
  | element => E
  | relation => R
  | incidence => C

end PropertyAxis

/-- The dense indexes of the IDs of one family in a topology view. -/
structure DenseIndex (Id : Type) where
  -- Exclusive upper bound for the indexes of valid IDs.
  bound : Nat
  -- The index of an ID; one that the view does not know may panic.
  index : Id → Option Nat

/-- A topology view with dense indexes along each axis. -/
structure DenseTopology (E R C : Type) where
  element : DenseIndex E
  relation : DenseIndex R
  incidence : DenseIndex C

namespace DenseTopology

variable {E R C : Type} (topology : DenseTopology E R C)

/-- The dense indexes along an axis. -/
def along : (axis : PropertyAxis) → DenseIndex (axis.Id E R C)
  | .element => topology.element
  | .relation => topology.relation
  | .incidence => topology.incidence

/-- The dense index bound along an axis. -/
def axisBound (axis : PropertyAxis) : Nat := (topology.along axis).bound

end DenseTopology

-- Selecting layers.

section

variable {Id I T V : Type} [DecidableEq T] [PropertyIndex I] (primitive : ArrowPrimitiveType T)
  (layer : PropertyLayer Id I T V) (expected : IdFamily) (required : Nat)

/-- Validates a dense primitive layer selection. -/
def validateDensePrimitiveSelection :
    Except PropertyError (PrimitiveArray (primitive.Native V)) :=
  if layer.descriptor.idFamily ≠ expected then
    .error (.idFamilyMismatch expected layer.descriptor.idFamily)
  else if layer.len < required then .error (.layerTooShort required layer.len)
  else
    match layer.data with
    | .sparse _ _ _ => .error (.expectedDenseStorage layer.descriptor.name)
    | .dense values =>
      match primitive.downcast values with
      | none => .error (.arrowTypeMismatch layer.descriptor.name)
      | some array => do
        ensureNoNullsFrom 0 array.nulls
        return array

/-- Validates a sparse primitive layer selection. -/
def validateSparsePrimitiveSelection : Except PropertyError
    (PrimitiveArray I × PrimitiveArray (primitive.Native V) × primitive.Native V) :=
  if layer.descriptor.idFamily ≠ expected then
    .error (.idFamilyMismatch expected layer.descriptor.idFamily)
  else if layer.len < required then .error (.layerTooShort required layer.len)
  else
    match layer.data with
    | .dense _ => .error (.expectedSparseStorage layer.descriptor.name)
    | .sparse _ _ none => .error (.sparseNullMissingNotTotal layer.descriptor.name)
    | .sparse indices values (some defaultArray) =>
      match primitive.downcast values with
      | none => .error (.arrowTypeMismatch layer.descriptor.name)
      | some array => do
        ensureNoNullsFrom 0 array.nulls
        match primitive.downcast defaultArray with
        | none => .error (.arrowTypeMismatch layer.descriptor.name)
        | some defaultPrimitive =>
          match defaultPrimitive.slots with
          | [⟨default, false⟩] => .ok (indices, array, default)
          | _ => .error (.defaultPolicyMismatch layer.descriptor.name)

end

-- Dense weights.

/-- Selected dense primitive weights bound to one axis of a topology view. -/
structure DenseWeights (axis : PropertyAxis) (E R C N : Type) where
  topology : DenseTopology E R C
  values : PrimitiveArray N

namespace DenseWeights

section

variable {Id I T V E R C : Type} [DecidableEq T] [PropertyIndex I]

/-- Selects a dense primitive layer as weights along an axis. -/
def new (axis : PropertyAxis) (primitive : ArrowPrimitiveType T) (topology : DenseTopology E R C)
    (layer : PropertyLayer Id I T V) :
    Except PropertyError (DenseWeights axis E R C (primitive.Native V)) := do
  let values ← validateDensePrimitiveSelection primitive layer axis.idFamily
    (topology.axisBound axis)
  return { topology, values }

end

variable {E R C N : Type}

/-- The weight of an ID: the value at its dense index. -/
def weight {axis : PropertyAxis} (weights : DenseWeights axis E R C N) (id : axis.Id E R C) :
    Option N := do
  let index ← (weights.topology.along axis).index id
  weights.values.value index

/-- The weight of an element. -/
def elementWeight : DenseWeights .element E R C N → E → Option N := weight

/-- The weight of a relation. -/
def relationWeight : DenseWeights .relation E R C N → R → Option N := weight

/-- The weight of an incidence. -/
def incidenceWeight : DenseWeights .incidence E R C N → C → Option N := weight

end DenseWeights

-- Sparse weights.

/-- Selected sparse primitive weights bound to one axis of a topology view. -/
structure SparseWeights (axis : PropertyAxis) (E R C I N : Type) where
  topology : DenseTopology E R C
  indices : PrimitiveArray I
  values : PrimitiveArray N
  -- The value where none is stored.
  default : N

namespace SparseWeights

section

variable {Id I T V E R C : Type} [DecidableEq T] [PropertyIndex I]

/-- Selects a sparse primitive layer as total weights along an axis. -/
def new (axis : PropertyAxis) (primitive : ArrowPrimitiveType T) (topology : DenseTopology E R C)
    (layer : PropertyLayer Id I T V) :
    Except PropertyError (SparseWeights axis E R C I (primitive.Native V)) := do
  let (indices, values, default) ← validateSparsePrimitiveSelection primitive layer axis.idFamily
    (topology.axisBound axis)
  return { topology, indices, values, default }

end

section

variable {I N : Type} [LayoutIndex I]

/-- Halves the range `[low, high)` until it is the first position that is not below the target. -/
def lowerBound (indices : PrimitiveArray I) (target : I) (low high : Nat) : Option Nat :=
  if low < high then do
    let mid := low + (high - low) / 2
    let value ← indices.value mid
    if toNat value < toNat target then lowerBound indices target (mid + 1) high
    else lowerBound indices target low mid
  else some low
termination_by high - low

/-- A sparse value, or the layer default. -/
def sparseValue (indices : PrimitiveArray I) (values : PrimitiveArray N) (default : N)
    (index : Nat) : Option N :=
  match (fromUsize index : Option I) with
  | none => some default
  | some target => do
    let low ← lowerBound indices target 0 indices.slots.length
    if low < indices.slots.length then do
      let value ← indices.value low
      if toNat value = toNat target then values.value low else some default
    else some default

end

variable {E R C I N : Type} [LayoutIndex I]

/-- The weight of an ID: the value stored for its dense index, else the default. -/
def weight {axis : PropertyAxis} (weights : SparseWeights axis E R C I N) (id : axis.Id E R C) :
    Option N := do
  let index ← (weights.topology.along axis).index id
  sparseValue weights.indices weights.values weights.default index

/-- The weight of an element. -/
def elementWeight : SparseWeights .element E R C I N → E → Option N := weight

/-- The weight of a relation. -/
def relationWeight : SparseWeights .relation E R C I N → R → Option N := weight

/-- The weight of an incidence. -/
def incidenceWeight : SparseWeights .incidence E R C I N → C → Option N := weight

end SparseWeights

end Oxgraph.Property
