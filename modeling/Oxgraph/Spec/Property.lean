import Oxgraph.Property.Snapshot

/-! What a property snapshot must keep, and what an accepted one must hold. -/

namespace Oxgraph.Property

open Layout

variable {Id W T V : Type} [DecidableEq T]

-- Layers of any index width.

/-- A layer with its index width. -/
structure AnyLayer (Id T V : Type) [DecidableEq T] where
  I : Type
  [index : PropertyIndex I]
  layer : PropertyLayer Id I T V

attribute [instance] AnyLayer.index

/-- A layer, with its width forgotten. -/
def PropertyLayer.any {I : Type} [PropertyIndex I] (layer : PropertyLayer Id I T V) :
    AnyLayer Id T V := { I, layer }

/-- Encodes layers of any widths. -/
def encodeLayers (W : Type) [PropertyIndex W] [LayerId Id W] (ipc : ArrowIpc T V)
    (layers : List (AnyLayer Id T V)) : Except PropertyError EncodedPropertySnapshot := do
  let encoder : PropertySnapshotEncoder W ←
    layers.foldlM (fun encoder any => encoder.append ipc any.layer) .new
  encoder.finish

namespace AnyLayer

variable (any : AnyLayer Id T V)

/-- The family and the name of a layer. -/
def named : IdFamily × String :=
  (any.layer.descriptor.idFamily, any.layer.descriptor.name.value)

/-- The ID of a layer as a `u64`. -/
def id (W : Type) [LayoutIndex W] [LayerId Id W] : UInt64 :=
  LayerId.intoU64 W any.layer.descriptor.layerId

/-- The columns of a layer as they are decoded. -/
def columns : DecodedPropertyData T V :=
  match any.layer.data with
  | .dense values => .dense values
  | .sparse indices values default => .sparse (PropertyIndex.intoArray indices) values default

/-- The layer as it is decoded. -/
def decoded (W : Type) [LayoutIndex W] [LayerId Id W] : DecodedPropertyLayer T V :=
  { layerId := LayerId.intoU64 W any.layer.descriptor.layerId
    name := any.layer.descriptor.name.value
    idFamily := any.layer.descriptor.idFamily
    role := any.layer.descriptor.role
    storage := any.layer.descriptor.storage
    logicalLen := any.layer.len
    data := any.columns }

/-- The bytes of a layer's value stream. -/
def valueStream (ipc : ArrowIpc T V) : Bytes :=
  match encodeLayerValueIpc ipc any.layer with
  | .ok bytes => bytes
  | .error _ => []

/-- The bytes of a layer's default stream; a layer without a default has no such stream. -/
def defaultStream (ipc : ArrowIpc T V) : Option Bytes :=
  match encodeLayerDefaultIpc ipc any.layer with
  | .ok bytes => bytes
  | .error _ => none

/-- Where the default stream starts: after the value stream, or at zero where there is none. -/
def defaultOffset (ipc : ArrowIpc T V) (dataOffset : Nat) : Nat :=
  match any.defaultStream ipc with
  | none => 0
  | some _ => dataOffset + (any.valueStream ipc).length

/-- A width can hold the ID, the offsets and the lengths of a layer laid out at these offsets. -/
structure FitsAt (W : Type) [LayoutIndex W] [LayerId Id W] (ipc : ArrowIpc T V)
    (nameOffset dataOffset : Nat) : Prop where
  layerId : (LayerId.intoU64 W any.layer.descriptor.layerId).toNat < LayoutIndex.bound W
  nameOffset : nameOffset < LayoutIndex.bound W
  nameLen : (utf8Bytes any.layer.descriptor.name.value).length < LayoutIndex.bound W
  logicalLen : any.layer.len < LayoutIndex.bound W
  valueCount : layerValueCount any.layer < LayoutIndex.bound W
  valueOffset : dataOffset < LayoutIndex.bound W
  valueLen : (any.valueStream ipc).length < LayoutIndex.bound W
  defaultOffset : any.defaultOffset ipc dataOffset < LayoutIndex.bound W
  defaultLen : ((any.defaultStream ipc).getD []).length < LayoutIndex.bound W

end AnyLayer

/-- A width can hold the IDs, the offsets and the lengths of layers laid out one after the other. -/
def FitFrom (W : Type) [LayoutIndex W] [LayerId Id W] (ipc : ArrowIpc T V) :
    Nat → Nat → List (AnyLayer Id T V) → Prop
  | _, _, [] => True
  | nameOffset, dataOffset, any :: rest =>
    any.FitsAt W ipc nameOffset dataOffset ∧
      FitFrom W ipc (nameOffset + (utf8Bytes any.layer.descriptor.name.value).length)
        (dataOffset + (any.valueStream ipc).length + ((any.defaultStream ipc).getD []).length) rest

/-- Layers that a width can encode: of different IDs, of different names, and all fitting it. -/
structure Encodable (W : Type) [LayoutIndex W] [LayerId Id W] (ipc : ArrowIpc T V)
    (layers : List (AnyLayer Id T V)) : Prop where
  ids : (layers.map fun any => any.id W).Nodup
  -- A name is unique among the layers of its family.
  names : (layers.map AnyLayer.named).Nodup
  fits : FitFrom W ipc 0 0 layers

/-- What is validated of layers that were laid out. -/
def summaryOf (layers : List (AnyLayer Id T V)) : PropertySnapshotSummary where
  layerCount := layers.length
  totalLogicalValues := (layers.map fun any => any.layer.len).sum

-- Arrow.

/-- Columns that make a batch of a schema: of its types, of one length, null only where allowed. -/
structure Batches (fields : List (Field T)) (columns : List (ArrowArray T V)) : Prop where
  nonempty : columns ≠ []
  typed : columns.map ArrowArray.dataType = fields.map Field.dataType
  alike : ∀ column ∈ columns, ∀ other ∈ columns, column.len = other.len
  nulls : ∀ pair ∈ fields.zip columns, pair.1.nullable = false → pair.2.nullCount = 0

/-- Writing a batch and reading its stream are inverse, and no stream is empty. -/
def ArrowIpc.Inverse (ipc : ArrowIpc T V) : Prop :=
  ∀ fields columns, Batches fields columns → ∃ bytes,
    ipc.write fields columns = .ok bytes ∧ bytes ≠ [] ∧ ipc.read bytes = .ok [.ok ⟨columns⟩]

/-- A reader does not take the empty slice for a stream. -/
def ArrowIpc.RejectsEmpty (ipc : ArrowIpc T V) : Prop := ∃ message, ipc.read [] = .error message

-- Accepted bytes.

/-- A default is there exactly for the default policy, as one value that is not null. -/
def DefaultFits (values : ArrowArray T V) : MissingPolicy → Option (ArrowArray T V) → Prop
  | .null, default => default = none
  | .default, default => ∃ array, default = some array ∧ array.len = 1 ∧
      array.dataType = values.dataType ∧ array.isNull 0 = some false

/-- Index and value columns that a sparse layer may hold, but for null indexes. -/
structure SparseFits (logicalLen : Nat) (missing : MissingPolicy) (indices values : ArrowArray T V)
    (default : Option (ArrowArray T V)) : Prop where
  ascending : ∃ indexes, indices.indexes = some indexes ∧ indexes.Pairwise (· < ·) ∧
    ∀ index ∈ indexes, index < logicalLen
  counts : values.len = indices.len
  default : DefaultFits values missing default

/-- The data of a decoded layer meets the contract of the layer constructors. -/
def MeetsContract (logicalLen : Nat) : StorageMode → DecodedPropertyData T V → Prop
  | .dense, .dense values => values.len = logicalLen
  | .sparse missing, .sparse indices values default =>
    indices.nullCount = 0 ∧ SparseFits logicalLen missing indices values default
  | _, _ => False

-- Stored sections.

/-- A stream that lies inside the data section and holds one batch. -/
structure StreamAt (ipc : ArrowIpc T V) (data : Bytes) (offset len : Nat)
    (batch : RecordBatch T V) : Prop where
  addressed : offset + len < usizeBound
  inside : offset + len ≤ data.length
  batch : readOneIpcBatch ipc ((data.drop offset).take len) = .ok batch

/-- A default stream, which is there unless it has no bytes. -/
def DefaultAt (ipc : ArrowIpc T V) (data : Bytes) (offset len : Nat) :
    Option (RecordBatch T V) → Prop
  | none => len = 0
  | some batch => len ≠ 0 ∧ StreamAt ipc data offset len batch

/-- The columns that the batches of a layer hold, as its storage mode arranges them. -/
inductive Holds (logicalLen valueCount : Nat) : StorageMode → RecordBatch T V →
    Option (RecordBatch T V) → DecodedPropertyData T V → Prop
  | dense {values : ArrowArray T V} (logical : values.len = logicalLen)
      (count : values.len = valueCount) :
      Holds logicalLen valueCount .dense ⟨[values]⟩ none (.dense values)
  | sparse {missing : MissingPolicy} {indices values : ArrowArray T V}
      {default : Option (ArrowArray T V)}
      (fits : SparseFits logicalLen missing indices values default)
      (count : indices.len = valueCount) :
      Holds logicalLen valueCount (.sparse missing) ⟨[indices, values]⟩
        (default.map fun array => ⟨[array]⟩) (.sparse indices values default)

namespace PropertySnapshotRecord

variable [LayoutIndex W] (record : PropertySnapshotRecord W)

/-- The ranges of the data section that a record declares. -/
def ranges : List (Nat × Nat) :=
  let value :=
    (toNat record.valueDataOffset, toNat record.valueDataOffset + toNat record.valueDataLen)
  if toNat record.defaultDataLen ≠ 0 then
    [value, (toNat record.defaultDataOffset,
      toNat record.defaultDataOffset + toNat record.defaultDataLen)]
  else [value]

/-- A record stores a layer whose name is in a string table and whose streams are in the data. -/
structure Stores (ipc : ArrowIpc T V) (strings data : Bytes) (layer : DecodedPropertyLayer T V) :
    Prop where
  layerId : toNat record.layerId = layer.layerId.toNat
  idFamily : toNat record.idFamily = (idFamilyTag layer.idFamily).toNat
  role : toNat record.role = (layerRoleTag layer.role).toNat
  storage : toNat record.storage = (storageTag layer.storage).toNat
  missingPolicy : toNat record.missingPolicy = (missingPolicyTag layer.storage).toNat
  nameAddressed : toNat record.nameOffset + toNat record.nameLen < usizeBound
  nameInside : toNat record.nameOffset + toNat record.nameLen ≤ strings.length
  name : (strings.drop (toNat record.nameOffset)).take (toNat record.nameLen) =
    utf8Bytes layer.name
  logicalLen : toNat record.logicalLen = layer.logicalLen
  reserved : toNat record.reserved = 0
  columns : ∃ valueBatch defaultBatch,
    StreamAt ipc data (toNat record.valueDataOffset) (toNat record.valueDataLen) valueBatch ∧
    DefaultAt ipc data (toNat record.defaultDataOffset) (toNat record.defaultDataLen)
      defaultBatch ∧
    Holds layer.logicalLen (toNat record.valueCount) layer.storage valueBatch defaultBatch
      layer.data

end PropertySnapshotRecord

/-- Ranges cover each byte of a section once, and nothing else. -/
structure Tiles (ranges : List (Nat × Nat)) (length : Nat) : Prop where
  nonempty : ∀ range ∈ ranges, range.1 < range.2
  inside : ∀ range ∈ ranges, range.2 ≤ length
  once : ∀ position < length,
    ranges.countP (fun range => decide (range.1 ≤ position ∧ position < range.2)) = 1

/-- The header of a descriptor section. -/
def storedHeader (descriptors : Bytes) : PropertySnapshotHeader := readFromPrefix descriptors

section

variable (W) [PropertyIndex W] (ipc : ArrowIpc T V) (descriptors data : Bytes)

/-- The records that a descriptor section stores behind its header. -/
def storedRecords : List (PropertySnapshotRecord W) :=
  readArray (storedHeader descriptors).recordCount.toNat
    (descriptors.drop (FixedLayout.size PropertySnapshotHeader))

/-- Where the records end, and the string table starts. -/
def recordsEnd : Nat :=
  FixedLayout.size PropertySnapshotHeader +
    (storedHeader descriptors).recordCount.toNat * FixedLayout.size (PropertySnapshotRecord W)

/-- Two sections store layers: a header, a record for each layer, the names, and the streams. -/
structure StoresLayers (layers : List (DecodedPropertyLayer T V)) : Prop where
  header : FixedLayout.size PropertySnapshotHeader ≤ descriptors.length
  recordBytes : (storedHeader descriptors).recordBytes.toNat =
    (storedHeader descriptors).recordCount.toNat * FixedLayout.size (PropertySnapshotRecord W)
  addressed : recordsEnd W descriptors < usizeBound
  inside : recordsEnd W descriptors ≤ descriptors.length
  stored : List.Forall₂
    (fun record => record.Stores ipc (descriptors.drop (recordsEnd W descriptors)) data)
    (storedRecords W descriptors) layers
  ids : (layers.map DecodedPropertyLayer.layerId).Nodup
  names : (layers.map fun layer => (layer.idFamily, layer.name)).Nodup
  total : (layers.map DecodedPropertyLayer.logicalLen).sum < usizeBound
  tiles : Tiles ((storedRecords W descriptors).flatMap PropertySnapshotRecord.ranges) data.length

/-- What the two sections have to be for the readers of them. -/
structure SectionsContract : Prop where
  -- Neither reader panics.
  validates : (validatePropertySections W ipc descriptors data).run ≠ none
  decodes : (DecodedPropertyLayer.decodeSections W ipc descriptors data).run ≠ none
  -- Either both readers accept the sections, or neither does.
  together : (∃ summary, validatePropertySections W ipc descriptors data = pure summary) ↔
    ∃ layers, DecodedPropertyLayer.decodeSections W ipc descriptors data = pure layers
  ids : ∀ layers, DecodedPropertyLayer.decodeSections W ipc descriptors data = pure layers →
    (layers.map DecodedPropertyLayer.layerId).Nodup
  names : ∀ layers, DecodedPropertyLayer.decodeSections W ipc descriptors data = pure layers →
    (layers.map fun layer => (layer.idFamily, layer.name)).Nodup
  tiles : ∀ layers, DecodedPropertyLayer.decodeSections W ipc descriptors data = pure layers →
    Tiles ((storedRecords W descriptors).flatMap PropertySnapshotRecord.ranges) data.length
  contract : ∀ layers, DecodedPropertyLayer.decodeSections W ipc descriptors data = pure layers →
    ∀ layer ∈ layers, MeetsContract layer.logicalLen layer.storage layer.data

end

/-- No index column of a layer has a null slot. -/
def DecodedPropertyData.IndexesNotNull : DecodedPropertyData T V → Prop
  | .dense _ => True
  | .sparse indices _ _ => indices.nullCount = 0

end Oxgraph.Property
