import Oxgraph.Property.Model

/-! Property snapshots: layers encoded as records, names and Arrow streams, and read back. -/

namespace Oxgraph.Property

open Layout

-- Arrow streams.

/-- A record batch, by its columns. -/
structure RecordBatch (T V : Type) where
  columns : List (ArrowArray T V)
  deriving DecidableEq, Repr

/-- The Arrow IPC stream writer and reader. -/
structure ArrowIpc (T V : Type) where
  -- Builds one batch and writes it as a stream, or fails with a message.
  write : List (Field T) → List (ArrowArray T V) → Except String Bytes
  -- Opens a stream, and yields each batch of it or a message.
  read : Bytes → Except String (List (Except String (RecordBatch T V)))

-- Metadata words.

section

variable {W : Type} [PropertyIndex W]

/-- Converts a value into a metadata word. -/
def leWord (value : Nat) : Except PropertyError W :=
  match fromUsize value with
  | none => .error (.snapshotDescriptorMismatch "value does not fit selected metadata width")
  | some word => .ok word

/-- Decodes a metadata word as a `usize`. -/
def leWordToUsize (word : W) : Except PropertyError Nat :=
  match toUsize word with
  | none => .error (.snapshotDescriptorMismatch "metadata word does not fit usize")
  | some value => .ok value

/-- Decodes a metadata word as a `u64`. -/
def leWordToU64 (word : W) : UInt64 := .ofNat (toNat word)

/-- Decodes a metadata word as a tag. -/
def leWordToU32 (word : W) : Except PropertyError UInt32 :=
  match (fromUsize (leWordToU64 word).toNat : Option UInt32) with
  | none => .error (.snapshotDescriptorMismatch "metadata word does not fit u32 tag")
  | some tag => .ok tag

end

/-- Reads a `u64` off a slice. -/
def readU64Le (bytes : Bytes) : Fallible PropertyError UInt64 :=
  if bytes.length < FixedLayout.size UInt64 then
    throw (.snapshotDataLength "u64 field is truncated")
  else do
    let field ← .orPanic (sliceOf bytes 0 8)
    return readFromPrefix field

/-- Converts a `u64` length to a `usize`. -/
def u64ToUsize (value : UInt64) : Except PropertyError Nat :=
  if value.toNat < usizeBound then .ok value.toNat
  else .error (.snapshotDescriptorMismatch "snapshot length does not fit usize")

/-- Converts a `usize` length to a `u64`. -/
def usizeToU64 (value : Nat) : Except PropertyError UInt64 :=
  if value < 2 ^ 64 then .ok (.ofNat value) else .error (.lengthDoesNotFitU64 value)

-- Wire records.

/-- The header of a descriptor section. -/
structure PropertySnapshotHeader where
  recordCount : UInt64
  recordBytes : UInt64
  deriving DecidableEq, Repr

instance : FixedLayout PropertySnapshotHeader :=
  FixedLayout.ofFields (fun header => (header.recordCount, header.recordBytes))
    (fun (recordCount, recordBytes) => ⟨recordCount, recordBytes⟩) (fun _ => rfl) (fun _ => rfl)

/-- The descriptor record of one layer. -/
structure PropertySnapshotRecord (W : Type) where
  layerId : W
  -- The name in the string table.
  nameOffset : W
  nameLen : W
  idFamily : W
  role : W
  storage : W
  missingPolicy : W
  logicalLen : W
  -- The number of stored values.
  valueCount : W
  -- The value stream in the data section.
  valueDataOffset : W
  valueDataLen : W
  -- The default stream in the data section; one of no bytes is not there.
  defaultDataOffset : W
  defaultDataLen : W
  reserved : W
  deriving DecidableEq, Repr

instance {W : Type} [FixedLayout W] : FixedLayout (PropertySnapshotRecord W) :=
  FixedLayout.ofFields
    (fun record => (record.layerId, record.nameOffset, record.nameLen, record.idFamily,
      record.role, record.storage, record.missingPolicy, record.logicalLen, record.valueCount,
      record.valueDataOffset, record.valueDataLen, record.defaultDataOffset,
      record.defaultDataLen, record.reserved))
    (fun (layerId, nameOffset, nameLen, idFamily, role, storage, missingPolicy, logicalLen,
      valueCount, valueDataOffset, valueDataLen, defaultDataOffset, defaultDataLen, reserved) =>
      ⟨layerId, nameOffset, nameLen, idFamily, role, storage, missingPolicy, logicalLen,
        valueCount, valueDataOffset, valueDataLen, defaultDataOffset, defaultDataLen, reserved⟩)
    (fun _ => rfl) (fun _ => rfl)

-- Encoding.

/-- A layer ID, which converts into a `u64` and, where that fits, into a metadata word. -/
class LayerId (Id W : Type) [LayoutIndex W] where
  intoU64 : Id → UInt64
  tryIntoWord : Id → Option W
  tryIntoWord_eq_some : ∀ id word, tryIntoWord id = some word ↔ toNat word = (intoU64 id).toNat

/-- Every `u64` is a layer ID. -/
instance {W : Type} [LayoutIndex W] : LayerId UInt64 W where
  intoU64 id := id
  tryIntoWord id := fromUsize id.toNat
  tryIntoWord_eq_some _ _ := fromUsize_eq_some

section

variable {Id I T V : Type} [DecidableEq T] [PropertyIndex I]

/-- The number of values that a layer stores. -/
def layerValueCount (layer : PropertyLayer Id I T V) : Nat :=
  match layer.data with
  | .dense values => values.len
  | .sparse indices _ _ => indices.slots.length

/-- Writes one batch as a stream. -/
def writeOneIpcBatch (ipc : ArrowIpc T V) (fields : List (Field T))
    (columns : List (ArrowArray T V)) : Except PropertyError Bytes :=
  (ipc.write fields columns).mapError .arrow

/-- Encodes the value stream of a layer. -/
def encodeLayerValueIpc (ipc : ArrowIpc T V) (layer : PropertyLayer Id I T V) :
    Except PropertyError Bytes :=
  match layer.data with
  | .dense values => writeOneIpcBatch ipc [layer.descriptor.arrowField] [values]
  | .sparse indices values _ =>
    writeOneIpcBatch ipc
      [{ name := "index", dataType := indexDataType I, nullable := false },
        layer.descriptor.arrowField] [PropertyIndex.intoArray indices, values]

/-- Encodes the default stream of a layer that has a default. -/
def encodeLayerDefaultIpc (ipc : ArrowIpc T V) (layer : PropertyLayer Id I T V) :
    Except PropertyError (Option Bytes) :=
  match layer.data with
  | .sparse _ _ (some default) => do
    let bytes ← writeOneIpcBatch ipc [layer.descriptor.arrowField] [default]
    return some bytes
  | _ => .ok none

end

/-- Encoded descriptor and data sections. -/
structure EncodedPropertySnapshot where
  descriptors : Bytes
  data : Bytes
  deriving DecidableEq, Repr

/-- An encoding pass under way. -/
structure PropertySnapshotEncoder (W : Type) where
  data : Bytes
  strings : Bytes
  records : List (PropertySnapshotRecord W)
  names : BTreeSet (IdFamily × String)
  ids : BTreeSet UInt64

namespace PropertySnapshotEncoder

variable {W Id I T V : Type} [PropertyIndex W] [DecidableEq T] [PropertyIndex I]

/-- An encoder that holds nothing. -/
def new : PropertySnapshotEncoder W :=
  { data := [], strings := [], records := [], names := ∅, ids := ∅ }

/-- Builds the record of a layer from where its name and its streams are. -/
def record [LayerId Id W] (layer : PropertyLayer Id I T V)
    (nameOffset valueDataOffset valueDataLen defaultDataOffset defaultDataLen : Nat) :
    Except PropertyError (PropertySnapshotRecord W) := do
  let descriptor := layer.descriptor
  let layerId ← match LayerId.tryIntoWord descriptor.layerId with
    | none => .error (.snapshotDescriptorMismatch "layer ID does not fit selected metadata width")
    | some word => .ok word
  return {
    layerId
    nameOffset := ← leWord nameOffset
    nameLen := ← leWord (utf8Bytes descriptor.name.value).length
    idFamily := ← leWord (idFamilyTag descriptor.idFamily).toNat
    role := ← leWord (layerRoleTag descriptor.role).toNat
    storage := ← leWord (storageTag descriptor.storage).toNat
    missingPolicy := ← leWord (missingPolicyTag descriptor.storage).toNat
    logicalLen := ← leWord layer.len
    valueCount := ← leWord (layerValueCount layer)
    valueDataOffset := ← leWord valueDataOffset
    valueDataLen := ← leWord valueDataLen
    defaultDataOffset := ← leWord defaultDataOffset
    defaultDataLen := ← leWord defaultDataLen
    reserved := ← leWord 0 }

/-- Encodes a layer into a record, and appends its name and its streams. -/
def append [LayerId Id W] (ipc : ArrowIpc T V) (encoder : PropertySnapshotEncoder W)
    (layer : PropertyLayer Id I T V) : Except PropertyError (PropertySnapshotEncoder W) :=
  let descriptor := layer.descriptor
  let named := (descriptor.idFamily, descriptor.name.value)
  let diagnosticLayerId : UInt64 := LayerId.intoU64 W descriptor.layerId
  if encoder.names.contains named then
    .error (.duplicateName descriptor.idFamily descriptor.name)
  else if encoder.ids.contains diagnosticLayerId then
    .error (.duplicateLayerId diagnosticLayerId)
  else do
    let layerData ← encodeLayerValueIpc ipc layer
    let data := encoder.data ++ layerData
    let defaultData ← encodeLayerDefaultIpc ipc layer
    let (defaultDataOffset, defaultDataLen) :=
      match defaultData with
      | none => (0, 0)
      | some bytes => (data.length, bytes.length)
    let record ← record layer encoder.strings.length encoder.data.length layerData.length
      defaultDataOffset defaultDataLen
    return { data := data ++ defaultData.getD []
             strings := encoder.strings ++ utf8Bytes descriptor.name.value
             records := encoder.records ++ [record]
             names := encoder.names.insert named
             ids := encoder.ids.insert diagnosticLayerId }

/-- Lays out the sections. -/
def finish (encoder : PropertySnapshotEncoder W) :
    Except PropertyError EncodedPropertySnapshot :=
  match checkedMul encoder.records.length (FixedLayout.size (PropertySnapshotRecord W)) with
  | none => .error (.snapshotDescriptorMismatch "record byte length overflow")
  | some recordBytes => do
    let header : PropertySnapshotHeader :=
      { recordCount := ← usizeToU64 encoder.records.length
        recordBytes := ← usizeToU64 recordBytes }
    return { descriptors := asBytes header ++ arrayBytes encoder.records ++ encoder.strings
             data := encoder.data }

end PropertySnapshotEncoder

section

variable {W Id T V : Type} [PropertyIndex W] [DecidableEq T] [LayerId Id W] (ipc : ArrowIpc T V)

/-- Encodes the layers of a graph. -/
def encodeGraphPropertySnapshot {NodeIndex EdgeIndex : Type} [PropertyIndex NodeIndex]
    [PropertyIndex EdgeIndex] (element : List (PropertyLayer Id NodeIndex T V))
    (relation : List (PropertyLayer Id EdgeIndex T V)) :
    Except PropertyError EncodedPropertySnapshot := do
  let encoder : PropertySnapshotEncoder W ← element.foldlM (PropertySnapshotEncoder.append ipc) .new
  let encoder ← relation.foldlM (PropertySnapshotEncoder.append ipc) encoder
  encoder.finish

/-- Encodes the layers of a hypergraph. -/
def encodeHyperPropertySnapshot {VertexIndex RelationIndex IncidenceIndex : Type}
    [PropertyIndex VertexIndex] [PropertyIndex RelationIndex] [PropertyIndex IncidenceIndex]
    (element : List (PropertyLayer Id VertexIndex T V))
    (relation : List (PropertyLayer Id RelationIndex T V))
    (incidence : List (PropertyLayer Id IncidenceIndex T V)) :
    Except PropertyError EncodedPropertySnapshot := do
  let encoder : PropertySnapshotEncoder W ← element.foldlM (PropertySnapshotEncoder.append ipc) .new
  let encoder ← relation.foldlM (PropertySnapshotEncoder.append ipc) encoder
  let encoder ← incidence.foldlM (PropertySnapshotEncoder.append ipc) encoder
  encoder.finish

end

-- Reading.

/-- Checks a byte range against an available length. -/
def checkedEnd (offset len available : Nat) : Except PropertyError Nat :=
  match checkedAdd offset len with
  | none => .error (.snapshotRangeOutOfBounds offset len available)
  | some stop =>
    if available < stop then .error (.snapshotRangeOutOfBounds offset len available) else .ok stop

/-- Reads a string off a string table. -/
def readSnapshotStr (bytes : Bytes) (offset len : Nat) : Fallible PropertyError String := do
  let stop ← .ofResult (checkedEnd offset len bytes.length)
  let spelled ← .orPanic (sliceOf bytes offset stop)
  match fromUtf8 spelled with
  | none => throw (.snapshotInvalidUtf8 offset)
  | some string => return string

/-- Parses one record from the front of a buffer. -/
def parsePropertyRecord {W : Type} [FixedLayout W] (bytes : Bytes) :
    Fallible PropertyError (PropertySnapshotRecord W) :=
  let need := FixedLayout.size (PropertySnapshotRecord W)
  if bytes.length < need then throw (.snapshotDataLength "property record is truncated")
  else do
    let own ← .orPanic (sliceOf bytes 0 need)
    return readFromPrefix own

section

variable {W T V : Type} [PropertyIndex W] [DecidableEq T] (ipc : ArrowIpc T V)

/-- Takes the batches of a stream until there are two. -/
def collectBatches : List (RecordBatch T V) → List (Except String (RecordBatch T V)) →
    Except PropertyError (List (RecordBatch T V))
  | batches, [] => .ok batches
  | _, .error message :: _ => .error (.arrow message)
  | batches, .ok batch :: rest =>
    if 1 < (batches ++ [batch]).length then
      .error (.snapshotDescriptorMismatch "property IPC stream contains more than one batch")
    else collectBatches (batches ++ [batch]) rest

/-- Reads exactly one batch. -/
def readOneIpcBatch (bytes : Bytes) : Except PropertyError (RecordBatch T V) := do
  let stream ← (ipc.read bytes).mapError .arrow
  let batches ← collectBatches [] stream
  match batches with
  | [] => .error (.snapshotDescriptorMismatch "property IPC stream contains no batches")
  | batch :: _ => .ok batch

/-- Checks that a column does not count more nulls than slots. -/
def validateValueColumn (values : ArrowArray T V) : Except PropertyError Unit :=
  if values.len < values.nullCount then
    .error (.snapshotDescriptorMismatch "Arrow value column has invalid null accounting")
  else .ok ()

/-- Checks the batch of a dense layer. -/
def validateDenseBatch (record : PropertySnapshotRecord W) (batch : RecordBatch T V) :
    Fallible PropertyError Unit :=
  if batch.columns.length ≠ 1 then
    throw (.snapshotDescriptorMismatch "dense property batch must contain one column")
  else do
    let values ← .orPanic batch.columns[0]?
    let logicalLen ← .ofResult (leWordToUsize record.logicalLen)
    let valueCount ← .ofResult (leWordToUsize record.valueCount)
    if values.len ≠ logicalLen ∨ values.len ≠ valueCount then
      throw (.snapshotDataLength "dense property Arrow length does not match descriptor")
    else .ofResult (validateValueColumn values)

/-- Checks a decoded column as the indexes of a width. -/
def validateTypedIndexes (I : Type) [PropertyIndex I] (indices : ArrowArray T V) (len : Nat) :
    Except PropertyError Unit :=
  match (PropertyIndex.downcast indices : Option (PrimitiveArray I)) with
  | none => .error (.snapshotDescriptorMismatch
      "sparse property index column does not match its declared Arrow width")
  | some typed => validateSparseIndices typed len

/-- Checks a decoded index column against a logical length. -/
def validateSparseIndexColumn (indices : ArrowArray T V) (len : Nat) : Except PropertyError Unit :=
  match indices.dataType with
  | .uint16 => validateTypedIndexes UInt16 indices len
  | .uint32 => validateTypedIndexes UInt32 indices len
  | .uint64 => validateTypedIndexes UInt64 indices len
  | .other _ => .error (.snapshotDescriptorMismatch
      "sparse property index column is not UInt16, UInt32, or UInt64")

/-- Whether a default column is anything but one value of the type that is not null. -/
def notMatchingScalar (default values : ArrowArray T V) : Option Bool :=
  if default.len ≠ 1 ∨ default.dataType ≠ values.dataType then some true else default.isNull 0

/-- Checks that a default batch is there exactly for the default policy, and that it fits. -/
def validateDefaultBatch (missing : MissingPolicy) (values : ArrowArray T V)
    (defaultBatch : Option (RecordBatch T V)) : Fallible PropertyError Unit :=
  match missing, defaultBatch with
  | .null, none => return
  | .null, some _ => throw (.snapshotDescriptorMismatch
      "sparse-null property must not declare a default stream")
  | .default, some defaultBatch =>
    if defaultBatch.columns.length ≠ 1 then
      throw (.snapshotDescriptorMismatch "sparse default stream must contain one column")
    else do
      let default ← .orPanic defaultBatch.columns[0]?
      let mismatched ← .orPanic (notMatchingScalar default values)
      if mismatched then
        throw (.snapshotDescriptorMismatch
          "sparse property default column is not a non-null matching scalar")
      else return
  | .default, none => throw (.snapshotDescriptorMismatch
      "sparse-default property is missing its default stream")

/-- Checks the batches of a sparse layer. -/
def validateSparseBatch (record : PropertySnapshotRecord W) (missing : MissingPolicy)
    (valueBatch : RecordBatch T V) (defaultBatch : Option (RecordBatch T V)) :
    Fallible PropertyError Unit :=
  if valueBatch.columns.length ≠ 2 then
    throw (.snapshotDescriptorMismatch
      "sparse property value stream must contain index and value columns")
  else do
    let indexes ← .orPanic valueBatch.columns[0]?
    let values ← .orPanic valueBatch.columns[1]?
    let valueCount ← .ofResult (leWordToUsize record.valueCount)
    if indexes.len ≠ valueCount ∨ values.len ≠ valueCount then
      throw (.snapshotDataLength "sparse property Arrow value count does not match descriptor")
    else do
      .ofResult (validateValueColumn values)
      let logicalLen ← .ofResult (leWordToUsize record.logicalLen)
      .ofResult (validateSparseIndexColumn indexes logicalLen)
      validateDefaultBatch missing values defaultBatch

/-- Reads the batch of a stream in the data section, and returns where the stream ends. -/
def readStream (data : Bytes) (offset len : Nat) :
    Fallible PropertyError (Nat × RecordBatch T V) := do
  let stop ← .ofResult (checkedEnd offset len data.length)
  let stream ← .orPanic (sliceOf data offset stop)
  let batch ← .ofResult (readOneIpcBatch ipc stream)
  return (stop, batch)

/-- Reads the batch of a default stream, unless that has no bytes. -/
def readDefault (data : Bytes) (offset len : Nat) :
    Fallible PropertyError (Option (RecordBatch T V)) :=
  if len = 0 then return none
  else do
    let (_, batch) ← readStream ipc data offset len
    return some batch

/-- Checks the batches of one record under its storage mode. -/
def validateBatches (record : PropertySnapshotRecord W) (storage : StorageMode) (defaultLen : Nat)
    (valueBatch : RecordBatch T V) (defaultBatch : Option (RecordBatch T V)) :
    Fallible PropertyError Unit :=
  match storage with
  | .dense =>
    if defaultLen ≠ 0 then
      throw (.snapshotDescriptorMismatch "dense property must not declare a default stream")
    else validateDenseBatch record valueBatch
  | .sparse missing => validateSparseBatch record missing valueBatch defaultBatch

/-- Checks the data of one record, and returns the ranges it declares. -/
def validatePropertyRecordData (record : PropertySnapshotRecord W) (storage : StorageMode)
    (data : Bytes) : Fallible PropertyError (List (Nat × Nat)) :=
  if leWordToU64 record.reserved ≠ 0 then
    throw (.snapshotDescriptorMismatch "property descriptor reserved word must be zero")
  else do
    let offset ← .ofResult (leWordToUsize record.valueDataOffset)
    let len ← .ofResult (leWordToUsize record.valueDataLen)
    let (stop, valueBatch) ← readStream ipc data offset len
    let defaultOffset ← .ofResult (leWordToUsize record.defaultDataOffset)
    let defaultLen ← .ofResult (leWordToUsize record.defaultDataLen)
    let defaultBatch ← readDefault ipc data defaultOffset defaultLen
    validateBatches record storage defaultLen valueBatch defaultBatch
    return if defaultLen ≠ 0 then
        [(offset, stop), (defaultOffset, defaultOffset + defaultLen)]
      else [(offset, stop)]

end

/-- Walks ranges that have to follow on each other, and returns where the last one ends. -/
def coverFrom : Nat → List (Nat × Nat) → Except PropertyError Nat
  | cursor, [] => .ok cursor
  | cursor, range :: rest =>
    if range.1 ≠ cursor then
      .error (.snapshotDescriptorMismatch "property data ranges leave a gap or overlap")
    else coverFrom range.2 rest

/-- Checks that ranges cover the data exactly. -/
def validateDataCoverage (ranges : List (Nat × Nat)) (dataLen : Nat) : Except PropertyError Unit := do
  let cursor ← coverFrom 0 (ranges.mergeSort fun left right => decide (left.1 ≤ right.1))
  if cursor ≠ dataLen then
    .error (.snapshotDescriptorMismatch "property data section has trailing bytes")
  else .ok ()

/-- What a validated snapshot holds. -/
structure PropertySnapshotSummary where
  layerCount : Nat
  totalLogicalValues : Nat
  deriving DecidableEq, Repr

/-- What has been validated of the records before a position. -/
structure Validation where
  names : BTreeSet (IdFamily × String)
  ids : BTreeSet UInt64
  ranges : List (Nat × Nat)
  totalLogicalValues : Nat

section

variable (W : Type) {T V : Type} [PropertyIndex W] [DecidableEq T] (ipc : ArrowIpc T V)

/-- The record count and the record bytes that a header declares, with the bytes after it. -/
def splitDescriptors (descriptors : Bytes) :
    Fallible PropertyError (Nat × Bytes × Bytes) := do
  let countField ← .orPanic (sliceOf descriptors 0 8)
  let recordCount ← readU64Le countField
  let bytesField ← .orPanic (sliceOf descriptors 8 16)
  let recordBytes ← readU64Le bytesField
  let recordCount ← .ofResult (u64ToUsize recordCount)
  let recordBytes ← .ofResult (u64ToUsize recordBytes)
  match checkedMul recordCount (FixedLayout.size (PropertySnapshotRecord W)) with
  | none => throw (.snapshotDescriptorMismatch "record byte length overflow")
  | some expected =>
    if recordBytes ≠ expected then
      throw (.snapshotDescriptorMismatch "record byte length does not match record count")
    else
      let recordStart := FixedLayout.size PropertySnapshotHeader
      match checkedAdd recordStart recordBytes with
      | none => throw (.snapshotDescriptorMismatch "descriptor section length overflow")
      | some stringStart =>
        if descriptors.length < stringStart then
          throw (.snapshotDataLength "descriptor records are truncated")
        else do
          let records ← .orPanic (sliceOf descriptors recordStart stringStart)
          let strings ← .orPanic (sliceOf descriptors stringStart descriptors.length)
          return (recordCount, records, strings)

/-- Parses the record at a position. -/
def recordAt (records : Bytes) (position : Nat) :
    Fallible PropertyError (PropertySnapshotRecord W) := do
  let start ← .orPanic (checkedMul position (FixedLayout.size (PropertySnapshotRecord W)))
  let rest ← .orPanic (sliceOf records start records.length)
  parsePropertyRecord rest

/-- Validates the record at a position. -/
def validateRecord (records strings data : Bytes) (seen : Validation) (position : Nat) :
    Fallible PropertyError Validation := do
  let record ← recordAt W records position
  let idFamily ← .ofResult (leWordToU32 record.idFamily >>= idFamilyFromTag)
  let _ ← .ofResult (leWordToU32 record.role >>= layerRoleFromTag)
  let storageWord ← .ofResult (leWordToU32 record.storage)
  let missingWord ← .ofResult (leWordToU32 record.missingPolicy)
  let storage ← .ofResult (storageFromTags storageWord missingWord)
  let nameOffset ← .ofResult (leWordToUsize record.nameOffset)
  let nameLen ← .ofResult (leWordToUsize record.nameLen)
  let name ← readSnapshotStr strings nameOffset nameLen
  let layerId := leWordToU64 record.layerId
  if seen.ids.contains layerId then throw (.duplicateLayerId layerId)
  else if seen.names.contains (idFamily, name) then do
    let name ← .ofResult (LayerName.tryNew name)
    throw (.duplicateName idFamily name)
  else do
    let ranges ← validatePropertyRecordData ipc record storage data
    let logicalLen ← .ofResult (leWordToUsize record.logicalLen)
    match checkedAdd seen.totalLogicalValues logicalLen with
    | none => throw (.snapshotDescriptorMismatch "logical value total overflow")
    | some total =>
      return { names := seen.names.insert (idFamily, name)
               ids := seen.ids.insert layerId
               ranges := seen.ranges ++ ranges
               totalLogicalValues := total }

/-- Validates a descriptor section and a data section. -/
def validatePropertySections (descriptors data : Bytes) :
    Fallible PropertyError PropertySnapshotSummary :=
  if descriptors.length < FixedLayout.size PropertySnapshotHeader then
    throw (.snapshotDataLength "descriptor header is truncated")
  else do
    let (recordCount, records, strings) ← splitDescriptors W descriptors
    let seen ← (List.range recordCount).foldlM (validateRecord W ipc records strings data)
      { names := ∅, ids := ∅, ranges := [], totalLogicalValues := 0 }
    .ofResult (validateDataCoverage seen.ranges data.length)
    return { layerCount := recordCount, totalLogicalValues := seen.totalLogicalValues }

end

/-- The Arrow payload of a decoded layer. -/
inductive DecodedPropertyData (T V : Type) where
  | dense (values : ArrowArray T V)
  | sparse (indices values : ArrowArray T V) (default : Option (ArrowArray T V))
  deriving DecidableEq, Repr

/-- A layer decoded from a snapshot. -/
structure DecodedPropertyLayer (T V : Type) where
  layerId : UInt64
  name : String
  idFamily : IdFamily
  role : LayerRole
  storage : StorageMode
  logicalLen : Nat
  data : DecodedPropertyData T V
  deriving DecidableEq, Repr

namespace DecodedPropertyLayer

variable (W : Type) {T V : Type} [PropertyIndex W] [DecidableEq T] (ipc : ArrowIpc T V)

/-- The columns of a layer's batches. -/
def columns (storage : StorageMode) (valueBatch : RecordBatch T V)
    (defaultBatch : Option (RecordBatch T V)) : Fallible PropertyError (DecodedPropertyData T V) :=
  match storage with
  | .dense => do
    let values ← .orPanic valueBatch.columns[0]?
    return .dense values
  | .sparse _ => do
    let indices ← .orPanic valueBatch.columns[0]?
    let values ← .orPanic valueBatch.columns[1]?
    match defaultBatch with
    | none => return .sparse indices values none
    | some batch => do
      let default ← .orPanic batch.columns[0]?
      return .sparse indices values (some default)

/-- The record count, the record bytes, and the strings of a descriptor section. -/
def reopenDescriptors (descriptors : Bytes) : Fallible PropertyError (Nat × Bytes × Bytes) := do
  let countField ← .orPanic (sliceOf descriptors 0 8)
  let recordCount ← readU64Le countField
  let recordCount ← .ofResult (u64ToUsize recordCount)
  let bytesField ← .orPanic (sliceOf descriptors 8 16)
  let recordBytes ← readU64Le bytesField
  let recordBytes ← .ofResult (u64ToUsize recordBytes)
  let recordStart := FixedLayout.size PropertySnapshotHeader
  match checkedAdd recordStart recordBytes with
  | none => throw (.snapshotDescriptorMismatch "descriptor section length overflow")
  | some stringStart => do
    let records ← .orPanic (sliceOf descriptors recordStart stringStart)
    let strings ← .orPanic (sliceOf descriptors stringStart descriptors.length)
    return (recordCount, records, strings)

/-- Parses the record at a position. -/
def reparseRecord (records : Bytes) (position : Nat) :
    Fallible PropertyError (PropertySnapshotRecord W) :=
  match checkedMul position (FixedLayout.size (PropertySnapshotRecord W)) with
  | none => throw (.snapshotDescriptorMismatch "record offset overflow")
  | some start => do
    let rest ← .orPanic (sliceOf records start records.length)
    parsePropertyRecord rest

/-- Decodes the layer at a position. -/
def decodeAt (records strings data : Bytes) (position : Nat) :
    Fallible PropertyError (DecodedPropertyLayer T V) := do
  let record ← reparseRecord W records position
  let layerId := leWordToU64 record.layerId
  let idFamily ← .ofResult (leWordToU32 record.idFamily >>= idFamilyFromTag)
  let role ← .ofResult (leWordToU32 record.role >>= layerRoleFromTag)
  let storageWord ← .ofResult (leWordToU32 record.storage)
  let missingWord ← .ofResult (leWordToU32 record.missingPolicy)
  let storage ← .ofResult (storageFromTags storageWord missingWord)
  let nameOffset ← .ofResult (leWordToUsize record.nameOffset)
  let nameLen ← .ofResult (leWordToUsize record.nameLen)
  let name ← readSnapshotStr strings nameOffset nameLen
  let logicalLen ← .ofResult (leWordToUsize record.logicalLen)
  let valueOffset ← .ofResult (leWordToUsize record.valueDataOffset)
  let valueLen ← .ofResult (leWordToUsize record.valueDataLen)
  let (_, valueBatch) ← readStream ipc data valueOffset valueLen
  let defaultOffset ← .ofResult (leWordToUsize record.defaultDataOffset)
  let defaultLen ← .ofResult (leWordToUsize record.defaultDataLen)
  let defaultBatch ← readDefault ipc data defaultOffset defaultLen
  let data ← columns storage valueBatch defaultBatch
  return { layerId, name, idFamily, role, storage, logicalLen, data }

/-- Validates the sections, and decodes every layer. -/
def decodeSections (descriptors data : Bytes) :
    Fallible PropertyError (List (DecodedPropertyLayer T V)) := do
  let _ ← validatePropertySections W ipc descriptors data
  let (recordCount, records, strings) ← reopenDescriptors descriptors
  (List.range recordCount).mapM (decodeAt W ipc records strings data)

end DecodedPropertyLayer

end Oxgraph.Property
