import Oxgraph.Layout.Index
import Oxgraph.Lib.Result
import Oxgraph.Lib.TreeMap
import Oxgraph.Snapshot.Container

/-! Property layers: Arrow arrays under a descriptor, as their constructors check them. -/

namespace Oxgraph.Property

open Layout

-- Arrow arrays.

/-- A data type of Arrow arrays: an unsigned width, or one of the other types. -/
inductive DataType (T : Type) where
  | uint16
  | uint32
  | uint64
  | other (type : T)
  deriving DecidableEq, Repr

/-- One slot of an array; a null slot still stores a value. -/
structure Slot (V : Type) where
  value : V
  isNull : Bool
  deriving DecidableEq, Repr

/-- An Arrow array of unsigned words. -/
structure PrimitiveArray (I : Type) where
  slots : List (Slot I)
  deriving DecidableEq, Repr

/-- An Arrow array of any type; values of the other types are whatever they are. -/
inductive ArrowArray (T V : Type) where
  | uint16 (array : PrimitiveArray UInt16)
  | uint32 (array : PrimitiveArray UInt32)
  | uint64 (array : PrimitiveArray UInt64)
  | other (type : T) (slots : List (Slot V))
  deriving DecidableEq, Repr

namespace ArrowArray

variable {T V : Type}

/-- The data type of an array. -/
def dataType : ArrowArray T V → DataType T
  | uint16 _ => .uint16
  | uint32 _ => .uint32
  | uint64 _ => .uint64
  | other type _ => .other type

/-- Whether each slot is null. -/
def nulls : ArrowArray T V → List Bool
  | uint16 array => array.slots.map Slot.isNull
  | uint32 array => array.slots.map Slot.isNull
  | uint64 array => array.slots.map Slot.isNull
  | other _ slots => slots.map Slot.isNull

/-- The number of slots. -/
def len (array : ArrowArray T V) : Nat := array.nulls.length

/-- The number of null slots. -/
def nullCount (array : ArrowArray T V) : Nat := array.nulls.count true

/-- Whether a slot is null; an index outside panics. -/
def isNull (array : ArrowArray T V) (index : Nat) : Option Bool := array.nulls[index]?

/-- The values of an unsigned array, whether or not they are null. -/
def indexes : ArrowArray T V → Option (List Nat)
  | uint16 array => some (array.slots.map fun slot => toNat slot.value)
  | uint32 array => some (array.slots.map fun slot => toNat slot.value)
  | uint64 array => some (array.slots.map fun slot => toNat slot.value)
  | other _ _ => none

end ArrowArray

/-- The Arrow data type of an index width. -/
def indexDataType (I : Type) [FixedLayout I] {T : Type} : DataType T :=
  if FixedLayout.size I = FixedLayout.size UInt16 then .uint16
  else if FixedLayout.size I = FixedLayout.size UInt32 then .uint32
  else .uint64

/-- A width of sparse indexes and of metadata words, with its Arrow arrays. -/
class PropertyIndex (I : Type) extends SnapshotWidth I where
  -- The array, of whichever type it is.
  intoArray : ∀ {T V : Type}, PrimitiveArray I → ArrowArray T V
  -- The array of this width, when it is one.
  downcast : ∀ {T V : Type}, ArrowArray T V → Option (PrimitiveArray I)
  dataType_intoArray : ∀ {T V : Type} (array : PrimitiveArray I),
    (intoArray array : ArrowArray T V).dataType = indexDataType I
  nulls_intoArray : ∀ {T V : Type} (array : PrimitiveArray I),
    (intoArray array : ArrowArray T V).nulls = array.slots.map Slot.isNull
  indexes_intoArray : ∀ {T V : Type} (array : PrimitiveArray I),
    (intoArray array : ArrowArray T V).indexes = some (array.slots.map fun slot => toNat slot.value)
  downcast_eq_some : ∀ {T V : Type} (column : ArrowArray T V) (array : PrimitiveArray I),
    downcast column = some array ↔ column = intoArray array

instance : PropertyIndex UInt16 where
  intoArray := .uint16
  downcast
    | .uint16 array => some array
    | _ => none
  dataType_intoArray _ := rfl
  nulls_intoArray _ := rfl
  indexes_intoArray _ := rfl
  downcast_eq_some column _ := by cases column <;> simp

instance : PropertyIndex UInt32 where
  intoArray := .uint32
  downcast
    | .uint32 array => some array
    | _ => none
  dataType_intoArray _ := rfl
  nulls_intoArray _ := rfl
  indexes_intoArray _ := rfl
  downcast_eq_some column _ := by cases column <;> simp

instance : PropertyIndex UInt64 where
  intoArray := .uint64
  downcast
    | .uint64 array => some array
    | _ => none
  dataType_intoArray _ := rfl
  nulls_intoArray _ := rfl
  indexes_intoArray _ := rfl
  downcast_eq_some column _ := by cases column <;> simp

/-- A field of an Arrow schema. -/
structure Field (T : Type) where
  name : String
  dataType : DataType T
  nullable : Bool
  deriving DecidableEq, Repr

-- Descriptors.

/-- A layer name, which is not empty. -/
structure LayerName where
  value : String
  nonempty : value ≠ ""
  deriving DecidableEq, Repr

/-- The ID family that a layer is keyed by. -/
inductive IdFamily where
  | element
  | relation
  | incidence
  deriving DecidableEq, Repr

/-- The declared role of a layer. -/
inductive LayerRole where
  | weight
  | property
  deriving DecidableEq, Repr

/-- What a sparse layer holds where it stores no value. -/
inductive MissingPolicy where
  | null
  | default
  deriving DecidableEq, Repr

/-- The physical storage of a layer. -/
inductive StorageMode where
  | dense
  | sparse (missing : MissingPolicy)
  deriving DecidableEq, Repr

/-- Reasons a property layer or a property snapshot is refused. -/
inductive PropertyError where
  | emptyLayerName
  | expectedDenseStorage (name : LayerName)
  | expectedSparseStorage (name : LayerName)
  | defaultPolicyMismatch (name : LayerName)
  | arrowTypeMismatch (name : LayerName)
  | idFamilyMismatch (expected actual : IdFamily)
  | layerTooShort (required actual : Nat)
  | unexpectedNull (index : Nat)
  | sparseLengthMismatch (indices values : Nat)
  | sparseIndexOrder (position : Nat)
  | sparseIndexOutOfBounds (index : UInt64) (len : Nat)
  | duplicateName (idFamily : IdFamily) (name : LayerName)
  | sparseNullMissingNotTotal (name : LayerName)
  | duplicateLayerId (layerId : UInt64)
  | missingSnapshotSection (kind : UInt32)
  | snapshotSectionVersion (kind version : UInt32)
  | snapshotSectionView (kind : UInt32) (error : Container.SectionViewError)
  | snapshotRangeOutOfBounds (offset len available : Nat)
  | snapshotInvalidUtf8 (offset : Nat)
  | unknownIdFamilyTag (tag : UInt32)
  | unknownLayerRoleTag (tag : UInt32)
  | unknownStorageTag (tag : UInt32)
  | unknownMissingPolicyTag (tag : UInt32)
  | unknownIdentityModeTag (tag : UInt32)
  | snapshotDescriptorMismatch (reason : String)
  | snapshotDataLength (reason : String)
  | arrow (message : String)
  | missingIdentityMap (idFamily : IdFamily)
  | identityMapLength (idFamily : IdFamily) (required actual : Nat)
  | lengthDoesNotFitU64 (value : Nat)
  deriving DecidableEq

/-- Builds a layer name. -/
def LayerName.tryNew (value : String) : Except PropertyError LayerName :=
  if empty : value = "" then .error .emptyLayerName else .ok ⟨value, empty⟩

/-- The descriptor of a layer. -/
structure PropertyLayerDescriptor (Id T : Type) where
  layerId : Id
  name : LayerName
  idFamily : IdFamily
  role : LayerRole
  storage : StorageMode
  arrowField : Field T

-- Tags.

/-- The snapshot tag of an ID family. -/
def idFamilyTag : IdFamily → UInt32
  | .element => 0
  | .relation => 1
  | .incidence => 2

/-- Reads an ID family tag. -/
def idFamilyFromTag (tag : UInt32) : Except PropertyError IdFamily :=
  if tag = 0 then .ok .element
  else if tag = 1 then .ok .relation
  else if tag = 2 then .ok .incidence
  else .error (.unknownIdFamilyTag tag)

/-- Families compare by their tags. -/
instance : Ord IdFamily where
  compare left right := compare (idFamilyTag left) (idFamilyTag right)

instance : Std.TransOrd IdFamily where
  eq_swap := Std.OrientedOrd.eq_swap (α := UInt32)
  isLE_trans := Std.TransOrd.isLE_trans (α := UInt32)

instance : Std.LawfulEqOrd IdFamily where
  compare_self := Std.ReflOrd.compare_self (α := UInt32)
  eq_of_compare {left right} same := by
    have tags : idFamilyTag left = idFamilyTag right := Std.LawfulEqOrd.eq_of_compare same
    cases left <;> cases right <;> first | rfl | cases tags

/-- The snapshot tag of a role. -/
def layerRoleTag : LayerRole → UInt32
  | .weight => 0
  | .property => 1

/-- Reads a role tag. -/
def layerRoleFromTag (tag : UInt32) : Except PropertyError LayerRole :=
  if tag = 0 then .ok .weight
  else if tag = 1 then .ok .property
  else .error (.unknownLayerRoleTag tag)

/-- The snapshot tag of a storage mode. -/
def storageTag : StorageMode → UInt32
  | .dense => 0
  | .sparse _ => 1

/-- The snapshot tag of a missing policy. -/
def missingPolicyTag : StorageMode → UInt32
  | .dense => 0
  | .sparse .null => 1
  | .sparse .default => 2

/-- Reads the tags of a storage mode and its missing policy. -/
def storageFromTags (storage missing : UInt32) : Except PropertyError StorageMode :=
  if storage = 0 ∧ missing = 0 then .ok .dense
  else if storage = 1 ∧ missing = 1 then .ok (.sparse .null)
  else if storage = 1 ∧ missing = 2 then .ok (.sparse .default)
  else if storage = 0 then .error (.unknownMissingPolicyTag missing)
  else .error (.unknownStorageTag storage)

-- Layers.

section

variable {Id I T V : Type} [DecidableEq T] [PropertyIndex I]

/-- Checks that an array has the type of the descriptor's field. -/
def ensureArrowType (descriptor : PropertyLayerDescriptor Id T) (values : ArrowArray T V) :
    Except PropertyError Unit :=
  if descriptor.arrowField.dataType = values.dataType then .ok ()
  else .error (.arrowTypeMismatch descriptor.name)

/-- Checks that no slot from an index on is null. -/
def ensureNoNullsFrom : Nat → List Bool → Except PropertyError Unit
  | _, [] => .ok ()
  | index, null :: rest =>
    if null then .error (.unexpectedNull index) else ensureNoNullsFrom (index + 1) rest

/-- Checks that no slot is null. -/
def ensureNoNulls (array : ArrowArray T V) : Except PropertyError Unit :=
  ensureNoNullsFrom 0 array.nulls

/-- Checks that a default is there exactly for the default policy, as one value that is not null. -/
def validateDefaultPolicy (descriptor : PropertyLayerDescriptor Id T) (missing : MissingPolicy)
    (default : Option (ArrowArray T V)) : Except PropertyError Unit :=
  match missing, default with
  | .null, none => .ok ()
  | .default, some array => do
    ensureArrowType descriptor array
    if array.len = 1 ∧ array.isNull 0 = some false then .ok ()
    else .error (.defaultPolicyMismatch descriptor.name)
  | _, _ => .error (.defaultPolicyMismatch descriptor.name)

/-- Checks that indexes from a position on ascend past the previous one and are below a length. -/
def validateSparseIndicesFrom (len : Nat) :
    Nat → Option I → List (Slot I) → Except PropertyError Unit
  | _, _, [] => .ok ()
  | position, previous, slot :: rest =>
    match toUsize slot.value with
    | none => .error (.sparseIndexOutOfBounds (.ofNat (toNat slot.value)) len)
    | some index =>
      if len ≤ index then .error (.sparseIndexOutOfBounds (.ofNat (toNat slot.value)) len)
      else if previous.any fun prior => Layout.toNat slot.value ≤ Layout.toNat prior then
        .error (.sparseIndexOrder position)
      else validateSparseIndicesFrom len (position + 1) (some slot.value) rest

/-- Checks that indexes strictly ascend and are below a length. -/
def validateSparseIndices (indices : PrimitiveArray I) (len : Nat) : Except PropertyError Unit :=
  validateSparseIndicesFrom len 0 none indices.slots

/-- The data of a layer. -/
inductive PropertyLayerData (I T V : Type) where
  | dense (values : ArrowArray T V)
  | sparse (indices : PrimitiveArray I) (values : ArrowArray T V)
    (default : Option (ArrowArray T V))

/-- The checks that the constructor of a dense layer makes. -/
structure DenseChecks (descriptor : PropertyLayerDescriptor Id T) (len : Nat)
    (values : ArrowArray T V) : Prop where
  storage : descriptor.storage = .dense
  type : ensureArrowType descriptor values = .ok ()
  nulls : descriptor.arrowField.nullable = false → ensureNoNulls values = .ok ()
  len : len = values.len

/-- The checks that the constructor of a sparse layer makes. -/
structure SparseChecks (descriptor : PropertyLayerDescriptor Id T) (len : Nat)
    (indices : PrimitiveArray I) (values : ArrowArray T V) (default : Option (ArrowArray T V)) :
    Prop where
  policy : ∃ missing, descriptor.storage = .sparse missing ∧
    validateDefaultPolicy descriptor missing default = .ok ()
  type : ensureArrowType descriptor values = .ok ()
  lengths : indices.slots.length = values.len
  indexNulls : ensureNoNulls (PropertyIndex.intoArray indices : ArrowArray T V) = .ok ()
  nulls : descriptor.arrowField.nullable = false → ensureNoNulls values = .ok ()
  ascending : validateSparseIndices indices len = .ok ()

/-- What a layer's constructor has checked of its data. -/
def LayerChecks (descriptor : PropertyLayerDescriptor Id T) (len : Nat) :
    PropertyLayerData I T V → Prop
  | .dense values => DenseChecks descriptor len values
  | .sparse indices values default => SparseChecks descriptor len indices values default

/-- An Arrow-backed layer, which its constructors have checked. -/
structure PropertyLayer (Id I T V : Type) [DecidableEq T] [PropertyIndex I] where
  descriptor : PropertyLayerDescriptor Id T
  len : Nat
  data : PropertyLayerData I T V
  checked : LayerChecks descriptor len data

namespace PropertyLayer

/-- A check, with the proof that it has passed. -/
def passing (check : Except PropertyError Unit) : Except PropertyError (PLift (check = .ok ())) :=
  match check with
  | .ok () => .ok ⟨rfl⟩
  | .error error => .error error

/-- A check that only a nullable field is spared, with the proof that it has passed. -/
def passingUnless (nullable : Bool) (check : Except PropertyError Unit) :
    Except PropertyError (PLift (nullable = false → check = .ok ())) :=
  match nullable, check with
  | true, _ => .ok ⟨fun never => (nomatch never)⟩
  | false, .ok () => .ok ⟨fun _ => rfl⟩
  | false, .error error => .error error

/-- Builds a dense layer. -/
def tryNewDense (descriptor : PropertyLayerDescriptor Id T) (values : ArrowArray T V) :
    Except PropertyError (PropertyLayer Id I T V) :=
  if storage : descriptor.storage = .dense then do
    let type ← passing (ensureArrowType descriptor values)
    let nulls ← passingUnless descriptor.arrowField.nullable (ensureNoNulls values)
    return { descriptor, len := values.len, data := .dense values
             checked := ⟨storage, type.down, nulls.down, rfl⟩ }
  else .error (.expectedDenseStorage descriptor.name)

/-- Builds a sparse layer. -/
def tryNewSparse (descriptor : PropertyLayerDescriptor Id T) (len : Nat)
    (indices : PrimitiveArray I) (values : ArrowArray T V) (default : Option (ArrowArray T V)) :
    Except PropertyError (PropertyLayer Id I T V) :=
  match storage : descriptor.storage with
  | .dense => .error (.expectedSparseStorage descriptor.name)
  | .sparse missing => do
    let policy ← passing (validateDefaultPolicy descriptor missing default)
    let type ← passing (ensureArrowType descriptor values)
    if lengths : indices.slots.length = values.len then
      let indexNulls ← passing (ensureNoNulls (PropertyIndex.intoArray indices : ArrowArray T V))
      let nulls ← passingUnless descriptor.arrowField.nullable (ensureNoNulls values)
      let ascending ← passing (validateSparseIndices indices len)
      return { descriptor, len, data := .sparse indices values default
               checked := ⟨⟨missing, storage, policy.down⟩, type.down, lengths, indexNulls.down,
                 nulls.down, ascending.down⟩ }
    else .error (.sparseLengthMismatch indices.slots.length values.len)

end PropertyLayer

end

end Oxgraph.Property
