import Oxgraph.Proofs.Property.Encode

/-! Layers that were laid out are validated, and decoded as they were. -/

namespace Oxgraph.Property

open Layout
open Fallible (bind_eq_pure bind_of_pure ofResult_eq_pure ofResult_ok orPanic_eq_pure)
open FixedLayout (length_asBytes)
open LayoutIndex (toNat_ofNat)
open List (append_assoc append_nil flatMap_cons length_append length_nil nil_append)

variable {Id W T V : Type} [DecidableEq T] {ipc : ArrowIpc T V}

-- What a laid out record stores.

variable {default : Option (ArrowArray T V)} {missing : MissingPolicy}

/-- A default passes the policy check exactly as one value of the type of the values. -/
theorem defaultFits_of_policy {descriptor : PropertyLayerDescriptor Id T}
    {values : ArrowArray T V} (type : ensureArrowType descriptor values = .ok ())
    (policy : validateDefaultPolicy descriptor missing default = .ok ()) :
    DefaultFits values missing default := by
  cases default with
  | none =>
    cases missing with
    | null => rfl
    | default => cases policy
  | some array =>
    obtain ⟨length, present, typed, _⟩ := batches_default policy
    cases missing with
    | null => cases policy
    | default =>
      have same := (ensureArrowType_eq_ok.mp typed).symm.trans (ensureArrowType_eq_ok.mp type)
      exact ⟨array, rfl, length, same, present⟩

/-- The columns of a layer are as its storage mode arranges them. -/
theorem AnyLayer.holds (any : AnyLayer Id T V) :
    Holds any.layer.len (layerValueCount any.layer) any.layer.descriptor.storage
      ⟨any.valueColumns⟩ (any.default.map fun array => ⟨[array]⟩) any.columns := by
  have checked := any.layer.checked
  unfold layerValueCount valueColumns AnyLayer.default columns
  cases stored : any.layer.data with
  | dense values =>
    rw [stored] at checked
    rw [checked.storage]
    exact .dense checked.len.symm rfl
  | sparse indices values default =>
    rw [stored] at checked
    obtain ⟨missing, storage, policy⟩ := checked.policy
    have ascending := validateSparseIndices_eq_ok.mp checked.ascending
    have length : (PropertyIndex.intoArray indices : ArrowArray T V).len = indices.slots.length := by
      rw [ArrowArray.len, PropertyIndex.nulls_intoArray, List.length_map]
    rw [storage]
    refine .sparse ⟨⟨_, PropertyIndex.indexes_intoArray indices, ascending⟩, ?_, ?_⟩ length
    · rw [length, checked.lengths]
    · exact defaultFits_of_policy checked.type policy

variable {batch : RecordBatch T V}

omit [DecidableEq T] in
/-- A stream of one batch is read as that. -/
theorem readOneIpcBatch_eq_ok {bytes : Bytes} (read : ipc.read bytes = .ok [.ok batch]) :
    readOneIpcBatch ipc bytes = .ok batch := by
  unfold readOneIpcBatch
  rw [read]
  rfl

omit [DecidableEq T] in
/-- A part of the data section that is written as a stream is a stream there. -/
theorem streamAt_middle {before stream after : Bytes}
    (counted : (before ++ stream ++ after).length < usizeBound)
    (read : ipc.read stream = .ok [.ok batch]) :
    StreamAt ipc (before ++ stream ++ after) before.length stream.length batch := by
  rw [length_append, length_append] at counted
  refine ⟨by omega, by rw [length_append, length_append]; omega, ?_⟩
  rw [append_assoc, List.drop_left, List.take_left]
  exact readOneIpcBatch_eq_ok read

variable [PropertyIndex W] [LayerId Id W]

/-- The record of a layer stores it where its name and its streams are. -/
theorem stores_record (inverse : ipc.Inverse) {any : AnyLayer Id T V}
    {namesBefore namesAfter before after : Bytes}
    (fits : any.FitsAt W ipc namesBefore.length before.length)
    (named : (namesBefore ++ any.nameBytes ++ namesAfter).length < usizeBound)
    (counted : (before ++ any.streams ipc ++ after).length < usizeBound) :
    (any.record W ipc namesBefore.length before.length).Stores ipc
      (namesBefore ++ any.nameBytes ++ namesAfter) (before ++ any.streams ipc ++ after)
      (any.decoded W) := by
  obtain ⟨family, role, storage, missing⟩ := @tags_fit W _ any.layer.descriptor.idFamily
    any.layer.descriptor.role any.layer.descriptor.storage
  have zero : 0 < LayoutIndex.bound W := Nat.lt_trans Nat.zero_lt_one LayoutIndex.one_lt
  -- Every number fits its word, so reading the word gives the number back.
  have nameOffset : Layout.toNat (LayoutIndex.ofNat namesBefore.length : W) = namesBefore.length :=
    toNat_ofNat _ fits.nameOffset
  have nameLen : Layout.toNat (LayoutIndex.ofNat any.nameBytes.length : W) =
      any.nameBytes.length := toNat_ofNat _ fits.nameLen
  rw [length_append, length_append] at named
  refine {
    layerId := toNat_ofNat _ fits.layerId
    idFamily := toNat_ofNat _ family
    role := toNat_ofNat _ role
    storage := toNat_ofNat _ storage
    missingPolicy := toNat_ofNat _ missing
    nameAddressed := ?_
    nameInside := ?_
    name := ?_
    logicalLen := toNat_ofNat _ fits.logicalLen
    reserved := toNat_ofNat _ zero
    columns := ⟨⟨any.valueColumns⟩, any.default.map fun array => ⟨[array]⟩, ?_, ?_, ?_⟩ }
  · show Layout.toNat (LayoutIndex.ofNat namesBefore.length : W) +
      Layout.toNat (LayoutIndex.ofNat any.nameBytes.length : W) < _
    rw [nameOffset, nameLen]
    omega
  · show Layout.toNat (LayoutIndex.ofNat namesBefore.length : W) +
      Layout.toNat (LayoutIndex.ofNat any.nameBytes.length : W) ≤ _
    rw [nameOffset, nameLen, length_append, length_append]
    omega
  · -- The name stands between the names before it and those after.
    show (List.drop (Layout.toNat (LayoutIndex.ofNat namesBefore.length : W)) _).take
      (Layout.toNat (LayoutIndex.ofNat any.nameBytes.length : W)) = _
    rw [nameOffset, nameLen, append_assoc, List.drop_left, List.take_left]
    rfl
  · -- The value stream comes first.
    obtain ⟨_, _, read⟩ := any.valueStream_spec inverse
    have valueOffset : Layout.toNat (LayoutIndex.ofNat before.length : W) = before.length :=
      toNat_ofNat _ fits.valueOffset
    have valueLen : Layout.toNat (LayoutIndex.ofNat (any.valueStream ipc).length : W) =
        (any.valueStream ipc).length := toNat_ofNat _ fits.valueLen
    show StreamAt ipc _ (Layout.toNat (LayoutIndex.ofNat before.length : W))
      (Layout.toNat (LayoutIndex.ofNat (any.valueStream ipc).length : W)) _
    rw [valueOffset, valueLen]
    unfold AnyLayer.streams at counted ⊢
    rw [← append_assoc, append_assoc _ _ after] at counted ⊢
    exact streamAt_middle counted read
  · -- The default stream follows it, if there is one.
    obtain ⟨_, stored⟩ := any.defaultStream_spec inverse
    have defaultOffset : Layout.toNat (LayoutIndex.ofNat (any.defaultOffset ipc before.length) : W) =
        any.defaultOffset ipc before.length := toNat_ofNat _ fits.defaultOffset
    have defaultLen : Layout.toNat
        (LayoutIndex.ofNat ((any.defaultStream ipc).getD []).length : W) =
        ((any.defaultStream ipc).getD []).length := toNat_ofNat _ fits.defaultLen
    show DefaultAt ipc _ (Layout.toNat (LayoutIndex.ofNat (any.defaultOffset ipc before.length) : W))
      (Layout.toNat (LayoutIndex.ofNat ((any.defaultStream ipc).getD []).length : W)) _
    rw [defaultOffset, defaultLen]
    unfold AnyLayer.defaultOffset
    unfold AnyLayer.streams at counted ⊢
    cases default : any.default with
    | none =>
      rw [default] at stored
      rw [stored]
      rfl
    | some array =>
      rw [default] at stored
      obtain ⟨bytes, same, nonempty, read⟩ := stored
      rw [same, Option.getD_some, ← append_assoc] at counted ⊢
      refine ⟨fun empty => nonempty (List.length_eq_zero_iff.mp empty), ?_⟩
      rw [← length_append]
      exact streamAt_middle counted read
  · -- The columns hold what the layer holds.
    have count : Layout.toNat (LayoutIndex.ofNat (layerValueCount any.layer) : W) =
        layerValueCount any.layer := toNat_ofNat _ fits.valueCount
    show Holds any.layer.len (Layout.toNat (LayoutIndex.ofNat (layerValueCount any.layer) : W))
      any.layer.descriptor.storage _ _ any.columns
    rw [count]
    exact any.holds

/-- The records of layers laid out one after the other store them. -/
theorem stores_laidRecords (inverse : ipc.Inverse) {layers : List (AnyLayer Id T V)}
    {namesBefore before : Bytes} (fits : FitFrom W ipc namesBefore.length before.length layers)
    (named : (namesBefore ++ layers.flatMap AnyLayer.nameBytes).length < usizeBound)
    (counted : (before ++ layers.flatMap fun any => any.streams ipc).length < usizeBound) :
    List.Forall₂
      (fun record => record.Stores ipc (namesBefore ++ layers.flatMap AnyLayer.nameBytes)
        (before ++ layers.flatMap fun any => any.streams ipc))
      (laidRecords W ipc namesBefore.length before.length layers)
      (layers.map fun any => any.decoded W) := by
  induction layers generalizing namesBefore before with
  | nil => exact .nil
  | cons any rest ih =>
    obtain ⟨own, others⟩ := fits
    rw [flatMap_cons, flatMap_cons, ← append_assoc, ← append_assoc] at *
    refine .cons (stores_record inverse own named counted) ?_
    -- What follows lies after this layer's name and its streams.
    have lengths : namesBefore.length + any.nameBytes.length =
        (namesBefore ++ any.nameBytes).length ∧
        before.length + (any.streams ipc).length = (before ++ any.streams ipc).length :=
      ⟨length_append.symm, length_append.symm⟩
    rw [lengths.1, lengths.2]
    refine ih ?_ named counted
    rw [length_append, length_append, AnyLayer.length_streams, ← Nat.add_assoc]
    exact others

-- Reading words.

omit [LayerId Id W] in
theorem leWordToUsize_eq (word : W) : leWordToUsize word = .ok (Layout.toNat word) := by
  unfold leWordToUsize
  rw [toUsize_eq]

theorem toNat_leWordToU64 (word : W) : (leWordToU64 word).toNat = Layout.toNat word :=
  UInt64.toNat_ofNat_of_lt' (Nat.lt_of_lt_of_le (LayoutIndex.toNat_lt word) LayoutIndex.bound_le)

/-- A word that carries a tag is read as the tag. -/
theorem leWordToU32_eq_ok {word : W} {tag : UInt32} (same : Layout.toNat word = tag.toNat) :
    leWordToU32 word = .ok tag := by
  have carried : (fromUsize (leWordToU64 word).toNat : Option UInt32) = some tag := by
    rw [fromUsize_eq_some, toNat_leWordToU64, same]
    rfl
  unfold leWordToU32
  rw [carried]

theorem idFamilyFromTag_eq_ok (idFamily : IdFamily) :
    idFamilyFromTag (idFamilyTag idFamily) = .ok idFamily := by
  cases idFamily <;> rfl

theorem layerRoleFromTag_eq_ok (role : LayerRole) :
    layerRoleFromTag (layerRoleTag role) = .ok role := by
  cases role <;> rfl

theorem storageFromTags_eq_ok (storage : StorageMode) :
    storageFromTags (storageTag storage) (missingPolicyTag storage) = .ok storage := by
  rcases storage with _ | _ | _ <;> rfl

-- Reading streams.

omit [DecidableEq T] in
/-- A stream is read where it is. -/
theorem StreamAt.readStream_eq {data : Bytes} {offset len : Nat}
    (stream : StreamAt ipc data offset len batch) :
    readStream ipc data offset len = pure (offset + len, batch) := by
  have stop : checkedEnd offset len data.length = .ok (offset + len) := by
    unfold checkedEnd checkedAdd
    rw [if_pos stream.addressed]
    exact if_neg (Nat.not_lt.mpr stream.inside)
  have slice : sliceOf data offset (offset + len) = some ((data.drop offset).take len) := by
    rw [sliceOf, if_pos ⟨Nat.le_add_right _ _, stream.inside⟩, Nat.add_sub_cancel_left]
  unfold readStream
  rw [bind_of_pure (ofResult_eq_pure.mpr stop),
    bind_of_pure (orPanic_eq_pure.mpr slice),
    bind_of_pure (ofResult_eq_pure.mpr stream.batch)]

omit [DecidableEq T] in
/-- A default stream is read where it is, if there is one. -/
theorem DefaultAt.readDefault_eq {data : Bytes} {offset len : Nat}
    {batch : Option (RecordBatch T V)} (stored : DefaultAt ipc data offset len batch) :
    readDefault ipc data offset len = pure batch := by
  unfold readDefault
  cases batch with
  | none => rw [if_pos (show len = 0 from stored)]
  | some batch =>
    obtain ⟨some, stream⟩ := stored
    rw [if_neg some, stream.readStream_eq]
    rfl

omit [DecidableEq T] in
/-- Indexes that ascend below a length pass as an index column. -/
theorem SparseFits.indexes_eq_ok {logicalLen : Nat} {indices values : ArrowArray T V}
    (fits : SparseFits logicalLen missing indices values default) :
    validateSparseIndexColumn indices logicalLen = .ok () := by
  obtain ⟨indexes, listed, ascending⟩ := fits.ascending
  cases indices with
  | uint16 array =>
    cases listed
    exact validateSparseIndices_eq_ok.mpr ascending
  | uint32 array =>
    cases listed
    exact validateSparseIndices_eq_ok.mpr ascending
  | uint64 array =>
    cases listed
    exact validateSparseIndices_eq_ok.mpr ascending
  | other type slots => cases listed

/-- A default that fits its policy passes as a default batch. -/
theorem validateDefaultBatch_eq {values : ArrowArray T V}
    (fits : DefaultFits values missing default) :
    validateDefaultBatch missing values (default.map fun array => ⟨[array]⟩) = pure () := by
  cases missing with
  | null =>
    rw [show default = none from fits]
    rfl
  | default =>
    obtain ⟨array, rfl, length, type, present⟩ := fits
    have scalar : notMatchingScalar array values = some false := by
      unfold notMatchingScalar
      rw [if_neg (by simp [length, type]), present]
    show (Fallible.orPanic (notMatchingScalar array values) >>= _) = _
    rw [scalar]
    rfl

omit [DecidableEq T] in
theorem validateValueColumn_eq_ok (values : ArrowArray T V) :
    validateValueColumn values = .ok () :=
  if_neg (Nat.not_lt.mpr List.count_le_length)

/-- Batches that hold the columns of a layer are valid under its storage mode. -/
theorem Holds.validateBatches_eq {record : PropertySnapshotRecord W} {storage : StorageMode}
    {data : Bytes} {valueBatch : RecordBatch T V} {defaultBatch : Option (RecordBatch T V)}
    {columns : DecodedPropertyData T V}
    (holds : Holds (Layout.toNat record.logicalLen) (Layout.toNat record.valueCount) storage
      valueBatch defaultBatch columns)
    (stored : DefaultAt ipc data (Layout.toNat record.defaultDataOffset)
      (Layout.toNat record.defaultDataLen) defaultBatch) :
    validateBatches record storage (Layout.toNat record.defaultDataLen) valueBatch defaultBatch =
      pure () := by
  cases holds with
  | @dense values length count =>
    -- A dense layer has no default stream, and one column of its length.
    have alike : ¬ (values.len ≠ Layout.toNat record.logicalLen ∨
        values.len ≠ Layout.toNat record.valueCount) := by simp [← length, ← count]
    unfold validateBatches validateDenseBatch
    dsimp only
    rw [if_neg (not_not.mpr (show Layout.toNat record.defaultDataLen = 0 from stored)),
      if_neg (not_not.mpr (List.length_singleton)), leWordToUsize_eq, leWordToUsize_eq]
    refine bind_eq_pure.mpr ⟨values, rfl, ?_⟩
    show (if _ then _ else _) = _
    rw [if_neg alike, validateValueColumn_eq_ok]
    rfl
  | @sparse missing indices values default fits count =>
    have alike : ¬ (indices.len ≠ Layout.toNat record.valueCount ∨
        values.len ≠ Layout.toNat record.valueCount) := by simp [fits.counts, ← count]
    unfold validateBatches validateSparseBatch
    dsimp only
    rw [if_neg (by simp), leWordToUsize_eq, leWordToUsize_eq]
    refine bind_eq_pure.mpr ⟨indices, rfl, bind_eq_pure.mpr ⟨values, rfl, ?_⟩⟩
    show (if _ then _ else _) = _
    rw [if_neg alike, validateValueColumn_eq_ok]
    refine bind_eq_pure.mpr ⟨(), rfl, bind_eq_pure.mpr ⟨_, rfl,
      bind_eq_pure.mpr ⟨(), ?_, validateDefaultBatch_eq fits.default⟩⟩⟩
    exact ofResult_eq_pure.mpr fits.indexes_eq_ok

omit [DecidableEq T] in
/-- Batches that hold the columns of a layer are decoded as these. -/
theorem Holds.columns_eq {logicalLen valueCount : Nat} {storage : StorageMode}
    {valueBatch : RecordBatch T V} {defaultBatch : Option (RecordBatch T V)}
    {columns : DecodedPropertyData T V}
    (holds : Holds logicalLen valueCount storage valueBatch defaultBatch columns) :
    DecodedPropertyLayer.columns storage valueBatch defaultBatch = pure columns := by
  cases holds with
  | dense _ _ => rfl
  | @sparse _ _ _ default _ _ => cases default <;> rfl

namespace PropertySnapshotRecord.Stores

variable {record : PropertySnapshotRecord W} {strings data : Bytes}
  {layer : DecodedPropertyLayer T V}

/-- The data of a record that stores a layer is valid, and has the ranges the record declares. -/
theorem validateData_eq (stores : record.Stores ipc strings data layer) :
    validatePropertyRecordData ipc record layer.storage data = pure record.ranges := by
  obtain ⟨valueBatch, defaultBatch, value, stored, holds⟩ := stores.columns
  have reserved : leWordToU64 record.reserved = 0 :=
    UInt64.toNat_inj.mp ((toNat_leWordToU64 _).trans stores.reserved)
  rw [← stores.logicalLen] at holds
  unfold validatePropertyRecordData
  rw [if_neg (not_not.mpr reserved), leWordToUsize_eq, leWordToUsize_eq, leWordToUsize_eq,
    leWordToUsize_eq]
  refine bind_eq_pure.mpr ⟨_, rfl, bind_eq_pure.mpr ⟨_, rfl,
    bind_eq_pure.mpr ⟨_, value.readStream_eq, ?_⟩⟩⟩
  refine bind_eq_pure.mpr ⟨_, rfl, bind_eq_pure.mpr ⟨_, rfl,
    bind_eq_pure.mpr ⟨_, stored.readDefault_eq, ?_⟩⟩⟩
  refine Fallible.seq_eq_pure.mpr ⟨holds.validateBatches_eq stored, ?_⟩
  unfold ranges
  rfl

omit [DecidableEq T] in
/-- The name of a layer is read where the record says it is. -/
theorem readName_eq (stores : record.Stores ipc strings data layer) :
    readSnapshotStr strings (Layout.toNat record.nameOffset) (Layout.toNat record.nameLen) =
      pure layer.name := by
  have stop : checkedEnd (Layout.toNat record.nameOffset) (Layout.toNat record.nameLen)
      strings.length = .ok (Layout.toNat record.nameOffset + Layout.toNat record.nameLen) := by
    unfold checkedEnd checkedAdd
    rw [if_pos stores.nameAddressed]
    exact if_neg (Nat.not_lt.mpr stores.nameInside)
  have slice : sliceOf strings (Layout.toNat record.nameOffset)
      (Layout.toNat record.nameOffset + Layout.toNat record.nameLen) =
      some (utf8Bytes layer.name) := by
    rw [sliceOf, if_pos ⟨Nat.le_add_right _ _, stores.nameInside⟩, Nat.add_sub_cancel_left,
      stores.name]
  unfold readSnapshotStr
  refine bind_eq_pure.mpr ⟨_, ofResult_eq_pure.mpr stop,
    bind_eq_pure.mpr ⟨_, orPanic_eq_pure.mpr slice, ?_⟩⟩
  rw [fromUtf8_utf8Bytes]

omit [DecidableEq T] in
/-- The tags of a layer are read off its record. -/
theorem readTags_eq (stores : record.Stores ipc strings data layer) :
    (leWordToU32 record.idFamily >>= idFamilyFromTag) = .ok layer.idFamily ∧
      (leWordToU32 record.role >>= layerRoleFromTag) = .ok layer.role ∧
      leWordToU32 record.storage = .ok (storageTag layer.storage) ∧
      leWordToU32 record.missingPolicy = .ok (missingPolicyTag layer.storage) := by
  refine ⟨?_, ?_, leWordToU32_eq_ok stores.storage, leWordToU32_eq_ok stores.missingPolicy⟩
  · rw [leWordToU32_eq_ok stores.idFamily]
    exact idFamilyFromTag_eq_ok layer.idFamily
  · rw [leWordToU32_eq_ok stores.role]
    exact layerRoleFromTag_eq_ok layer.role

omit [DecidableEq T] in
/-- The ID of a layer is read off its record. -/
theorem readLayerId_eq (stores : record.Stores ipc strings data layer) :
    leWordToU64 record.layerId = layer.layerId :=
  UInt64.toNat_inj.mp ((toNat_leWordToU64 _).trans stores.layerId)

end PropertySnapshotRecord.Stores

-- Records one after the other.

variable {before after : List (PropertySnapshotRecord W)} {record : PropertySnapshotRecord W}

/-- A record is parsed at its position. -/
theorem recordAt_eq (counted : (arrayBytes (before ++ record :: after)).length < usizeBound) :
    recordAt W (arrayBytes (before ++ record :: after)) before.length = pure record ∧
      DecodedPropertyLayer.reparseRecord W (arrayBytes (before ++ record :: after)) before.length =
        pure record := by
  have start : checkedMul before.length (FixedLayout.size (PropertySnapshotRecord W)) =
      some (arrayBytes before).length := by
    rw [arrayBytes_append, length_append, length_arrayBytes] at counted
    rw [length_arrayBytes]
    exact if_pos (by omega)
  have rest : sliceOf (arrayBytes (before ++ record :: after)) (arrayBytes before).length
      (arrayBytes (before ++ record :: after)).length = some (arrayBytes (record :: after)) := by
    have whole := sliceOf_middle (arrayBytes before) (arrayBytes (record :: after)) []
    rwa [append_nil, ← length_append, ← arrayBytes_append] at whole
  have own : sliceOf (arrayBytes (record :: after)) 0
      (FixedLayout.size (PropertySnapshotRecord W)) = some (asBytes record) := by
    have whole := sliceOf_middle [] (asBytes record) (arrayBytes after)
    rwa [nil_append, length_nil, Nat.zero_add, length_asBytes] at whole
  have parsed : (parsePropertyRecord (arrayBytes (record :: after)) :
      Fallible PropertyError (PropertySnapshotRecord W)) = pure record := by
    have long : FixedLayout.size (PropertySnapshotRecord W) ≤
        (arrayBytes (record :: after)).length := by
      rw [length_arrayBytes, List.length_cons, Nat.succ_mul]
      omega
    have read := FixedLayout.read_asBytes record []
    rw [append_nil] at read
    unfold parsePropertyRecord
    dsimp only
    rw [if_neg (Nat.not_lt.mpr long)]
    refine bind_eq_pure.mpr ⟨_, orPanic_eq_pure.mpr own, ?_⟩
    rw [read]
  constructor
  · exact bind_eq_pure.mpr ⟨_, orPanic_eq_pure.mpr start,
      bind_eq_pure.mpr ⟨_, orPanic_eq_pure.mpr rest, parsed⟩⟩
  · unfold DecodedPropertyLayer.reparseRecord
    rw [start]
    exact bind_eq_pure.mpr ⟨_, orPanic_eq_pure.mpr rest, parsed⟩

/-- What has been validated with one more record. -/
def Validation.withRecord (seen : Validation) (record : PropertySnapshotRecord W)
    (layer : DecodedPropertyLayer T V) : Validation where
  names := seen.names.insert (layer.idFamily, layer.name)
  ids := seen.ids.insert layer.layerId
  ranges := seen.ranges ++ record.ranges
  totalLogicalValues := seen.totalLogicalValues + layer.logicalLen

/-- The error of logical values that cannot be counted. -/
def totalOverflow : PropertyError := .snapshotDescriptorMismatch "logical value total overflow"

/-- A record that stores a layer of a new name and a new ID is valid if its values can be counted. -/
theorem validateRecord_eq {strings data : Bytes} {layer : DecodedPropertyLayer T V}
    (counted : (arrayBytes (before ++ record :: after)).length < usizeBound)
    (stores : record.Stores ipc strings data layer) {seen : Validation}
    (unnamed : (layer.idFamily, layer.name) ∉ seen.names) (fresh : layer.layerId ∉ seen.ids) :
    validateRecord W ipc (arrayBytes (before ++ record :: after)) strings data seen before.length =
      if seen.totalLogicalValues + layer.logicalLen < usizeBound then
        pure (seen.withRecord record layer)
      else throw totalOverflow := by
  obtain ⟨family, role, storage, missing⟩ := stores.readTags_eq
  rw [← Std.ExtTreeSet.contains_iff_mem, Bool.not_eq_true] at unnamed fresh
  unfold validateRecord
  simp only [(recordAt_eq counted).1, family, role, storage, missing, storageFromTags_eq_ok,
    leWordToUsize_eq, ofResult_ok, pure_bind, stores.readName_eq, stores.readLayerId_eq,
    unnamed, fresh, stores.validateData_eq, stores.logicalLen]
  rw [if_neg (by simp), if_neg (by simp)]
  -- What is left is to count its values.
  unfold checkedAdd
  split_ifs
  · rfl
  · rfl

/-- Records that store layers of new names and new IDs are valid if their values can be counted. -/
theorem validateRecords_eq {before rest : List (PropertySnapshotRecord W)} {strings data : Bytes}
    {layers : List (DecodedPropertyLayer T V)}
    (counted : (arrayBytes (before ++ rest)).length < usizeBound)
    (stored : List.Forall₂ (fun record => record.Stores ipc strings data) rest layers)
    (names : (layers.map fun layer => (layer.idFamily, layer.name)).Nodup)
    (ids : (layers.map DecodedPropertyLayer.layerId).Nodup) {seen : Validation}
    (unnamed : ∀ layer ∈ layers, (layer.idFamily, layer.name) ∉ seen.names)
    (fresh : ∀ layer ∈ layers, layer.layerId ∉ seen.ids)
    (summed : seen.totalLogicalValues < usizeBound) :
    ∃ last : Validation,
      (List.range' before.length rest.length).foldlM
        (validateRecord W ipc (arrayBytes (before ++ rest)) strings data) seen =
        (if seen.totalLogicalValues + (layers.map DecodedPropertyLayer.logicalLen).sum < usizeBound
          then pure last else throw totalOverflow) ∧
      last.ranges = seen.ranges ++ rest.flatMap PropertySnapshotRecord.ranges ∧
      last.totalLogicalValues =
        seen.totalLogicalValues + (layers.map DecodedPropertyLayer.logicalLen).sum := by
  induction stored generalizing before seen with
  | nil =>
    refine ⟨seen, ?_, (append_nil _).symm, rfl⟩
    exact (if_pos summed).symm
  | @cons record layer rest layers own others ih =>
    obtain ⟨unnamedOwn, unnamedOthers⟩ := List.forall_mem_cons.mp unnamed
    obtain ⟨freshOwn, freshOthers⟩ := List.forall_mem_cons.mp fresh
    rw [List.map_cons, List.nodup_cons] at names ids
    have one := validateRecord_eq counted own unnamedOwn freshOwn
    rw [List.map_cons, List.sum_cons, List.length_cons, List.range'_succ, List.foldlM_cons, one,
      ← Nat.add_assoc]
    by_cases room : seen.totalLogicalValues + layer.logicalLen < usizeBound
    · -- The other layers have names and IDs that this one does not add.
      have next := @ih (before ++ [record])
        (by rwa [append_assoc, List.singleton_append]) names.2 ids.2
        (seen.withRecord record layer)
        (fun other member inserted => (mem_insert_set.mp inserted).elim
          (fun same => names.1 (List.mem_map.mpr ⟨other, member, same.symm⟩))
          (unnamedOthers other member))
        (fun other member inserted => (mem_insert_set.mp inserted).elim
          (fun same => ids.1 (List.mem_map.mpr ⟨other, member, same.symm⟩))
          (freshOthers other member)) room
      rw [append_assoc, List.singleton_append, length_append, List.length_singleton] at next
      obtain ⟨last, ran, ranges, total⟩ := next
      refine ⟨last, ?_, ?_, total⟩
      · rw [if_pos room, pure_bind]
        exact ran
      · rw [ranges, flatMap_cons, ← append_assoc]
        rfl
    · -- The total only grows, so it cannot be counted either.
      refine ⟨{ seen with
        ranges := seen.ranges ++ (record :: rest).flatMap PropertySnapshotRecord.ranges
        totalLogicalValues := seen.totalLogicalValues + layer.logicalLen +
          (layers.map DecodedPropertyLayer.logicalLen).sum }, ?_, rfl, rfl⟩
      rw [if_neg room, if_neg (by omega)]
      rfl

omit [DecidableEq T] in
/-- A record that stores a layer is decoded as that. -/
theorem decodeAt_eq {strings data : Bytes} {layer : DecodedPropertyLayer T V}
    (counted : (arrayBytes (before ++ record :: after)).length < usizeBound)
    (stores : record.Stores ipc strings data layer) :
    DecodedPropertyLayer.decodeAt W ipc (arrayBytes (before ++ record :: after)) strings data
      before.length = pure layer := by
  obtain ⟨family, role, storage, missing⟩ := stores.readTags_eq
  obtain ⟨valueBatch, defaultBatch, value, stored, holds⟩ := stores.columns
  unfold DecodedPropertyLayer.decodeAt
  simp only [(recordAt_eq counted).2, family, role, storage, missing, storageFromTags_eq_ok,
    leWordToUsize_eq, ofResult_ok, pure_bind, stores.readName_eq, stores.readLayerId_eq,
    stores.logicalLen, value.readStream_eq, stored.readDefault_eq, holds.columns_eq]

omit [DecidableEq T] in
/-- Records that store layers are decoded as these. -/
theorem decodeLayers_eq {before rest : List (PropertySnapshotRecord W)} {strings data : Bytes}
    {layers : List (DecodedPropertyLayer T V)}
    (counted : (arrayBytes (before ++ rest)).length < usizeBound)
    (stored : List.Forall₂ (fun record => record.Stores ipc strings data) rest layers) :
    (List.range' before.length rest.length).mapM
      (DecodedPropertyLayer.decodeAt W ipc (arrayBytes (before ++ rest)) strings data) =
      pure layers := by
  induction stored generalizing before with
  | nil => rfl
  | @cons record layer rest layers own others ih =>
    have one := decodeAt_eq counted own
    have next := @ih (before ++ [record]) (by rwa [append_assoc, List.singleton_append])
    rw [append_assoc, List.singleton_append, length_append, List.length_singleton] at next
    rw [List.length_cons, List.range'_succ, List.mapM_cons, one, pure_bind, next, pure_bind]

-- The two sections.

/-- A `u64` field is read as the word that was written. -/
theorem readU64Le_eq (word : UInt64) : readU64Le (asBytes word) = pure word := by
  have own : sliceOf (asBytes word) 0 8 = some (asBytes word) := by
    have whole := sliceOf_middle [] (asBytes word) []
    rwa [append_nil, nil_append, length_nil, Nat.zero_add,
      length_asBytes] at whole
  have read := FixedLayout.read_asBytes word []
  rw [append_nil] at read
  unfold readU64Le
  rw [if_neg (by rw [length_asBytes]; omega)]
  refine bind_eq_pure.mpr ⟨_, orPanic_eq_pure.mpr own, ?_⟩
  rw [read]

/-- A length that was written as a `u64` is read as the length. -/
theorem u64ToUsize_eq_ok {value : Nat} (counted : value < usizeBound) :
    u64ToUsize (.ofNat value) = .ok value := by
  have same : (UInt64.ofNat value).toNat = value := UInt64.toNat_ofNat_of_lt' counted
  unfold u64ToUsize
  rw [same, if_pos counted]

/-- The parts of a descriptor section: the two header fields, the records, and the names. -/
theorem descriptorSlices {records : List (PropertySnapshotRecord W)} {strings descriptors : Bytes}
    (whole : descriptors =
      asBytes (headerOf W records.length) ++ arrayBytes records ++ strings) :
    sliceOf descriptors 0 8 = some (asBytes (UInt64.ofNat records.length)) ∧
      sliceOf descriptors 8 16 = some (asBytes (UInt64.ofNat
        (records.length * FixedLayout.size (PropertySnapshotRecord W)))) ∧
      sliceOf descriptors 16 (16 + records.length * FixedLayout.size (PropertySnapshotRecord W)) =
        some (arrayBytes records) ∧
      sliceOf descriptors (16 + records.length * FixedLayout.size (PropertySnapshotRecord W))
        descriptors.length = some strings := by
  have parts : asBytes (headerOf W records.length) =
      asBytes (UInt64.ofNat records.length) ++ asBytes (UInt64.ofNat
        (records.length * FixedLayout.size (PropertySnapshotRecord W))) := rfl
  have width : FixedLayout.size UInt64 = 8 := rfl
  have header : FixedLayout.size PropertySnapshotHeader = 16 := rfl
  have count := sliceOf_middle [] (asBytes (UInt64.ofNat records.length))
    (asBytes (UInt64.ofNat (records.length * FixedLayout.size (PropertySnapshotRecord W))) ++
      (arrayBytes records ++ strings))
  have bytes := sliceOf_middle (asBytes (UInt64.ofNat records.length))
    (asBytes (UInt64.ofNat (records.length * FixedLayout.size (PropertySnapshotRecord W))))
    (arrayBytes records ++ strings)
  have stored := sliceOf_middle (asBytes (headerOf W records.length)) (arrayBytes records) strings
  have names := sliceOf_middle (asBytes (headerOf W records.length) ++ arrayBytes records) strings []
  rw [nil_append, ← append_assoc, ← parts, ← append_assoc, ← whole, length_nil,
    Nat.zero_add, length_asBytes, width] at count
  rw [← parts, ← append_assoc, ← whole, length_asBytes,
    length_asBytes, width] at bytes
  rw [← whole, length_asBytes, header, length_arrayBytes] at stored
  rw [append_nil, ← length_append, ← whole, length_append,
    length_asBytes, header, length_arrayBytes] at names
  exact ⟨count, bytes, stored, names⟩

/-- A descriptor section falls into its header, its records, and the names. -/
theorem splitDescriptors_eq {records : List (PropertySnapshotRecord W)} {strings descriptors : Bytes}
    (whole : descriptors = asBytes (headerOf W records.length) ++ arrayBytes records ++ strings)
    (counted : 16 + records.length * FixedLayout.size (PropertySnapshotRecord W) < usizeBound) :
    splitDescriptors W descriptors = pure (records.length, arrayBytes records, strings) ∧
      DecodedPropertyLayer.reopenDescriptors descriptors =
        pure (records.length, arrayBytes records, strings) := by
  obtain ⟨count, bytes, stored, names⟩ := descriptorSlices whole
  have header : FixedLayout.size PropertySnapshotHeader = 16 := rfl
  have length : descriptors.length =
      16 + records.length * FixedLayout.size (PropertySnapshotRecord W) + strings.length := by
    rw [whole, length_append, length_append, length_asBytes,
      length_arrayBytes, header]
  have few : records.length ≤ records.length * FixedLayout.size (PropertySnapshotRecord W) :=
    Nat.le_mul_of_pos_right _ FixedLayout.size_pos
  have readCount := @u64ToUsize_eq_ok records.length (by omega)
  have readBytes := @u64ToUsize_eq_ok
    (records.length * FixedLayout.size (PropertySnapshotRecord W)) (by omega)
  have product : checkedMul records.length (FixedLayout.size (PropertySnapshotRecord W)) =
      some (records.length * FixedLayout.size (PropertySnapshotRecord W)) := if_pos (by omega)
  have sum : checkedAdd 16 (records.length * FixedLayout.size (PropertySnapshotRecord W)) =
      some (16 + records.length * FixedLayout.size (PropertySnapshotRecord W)) := if_pos counted
  -- Both readers take the same four slices, and only the first one compares the lengths.
  unfold splitDescriptors DecodedPropertyLayer.reopenDescriptors
  simp only [bind_of_pure (orPanic_eq_pure.mpr count),
    bind_of_pure (orPanic_eq_pure.mpr bytes), readU64Le_eq, readCount, readBytes,
    ofResult_ok, pure_bind, product, header, sum, ne_eq, not_true_eq_false, if_false,
    bind_of_pure (orPanic_eq_pure.mpr stored),
    bind_of_pure (orPanic_eq_pure.mpr names)]
  exact ⟨if_neg (by omega), trivial⟩

-- The ranges of the streams.

omit [PropertyIndex W] [LayerId Id W] in
/-- Ranges that follow on each other have starts that ascend, from the cursor on. -/
theorem pairwise_of_coverFrom {cursor stop : Nat} {ranges : List (Nat × Nat)}
    (covers : coverFrom cursor ranges = .ok stop) (forward : ∀ range ∈ ranges, range.1 ≤ range.2) :
    (∀ range ∈ ranges, cursor ≤ range.1) ∧ ranges.Pairwise fun left right => left.1 ≤ right.1 := by
  induction ranges generalizing cursor with
  | nil => exact ⟨fun range member => (nomatch member), .nil⟩
  | cons range rest ih =>
    obtain ⟨own, others⟩ := List.forall_mem_cons.mp forward
    rw [coverFrom] at covers
    split at covers
    · cases covers
    · rename_i same
      have starts : range.1 = cursor := not_not.mp same
      obtain ⟨later, ascending⟩ := ih covers others
      refine ⟨List.forall_mem_cons.mpr ⟨starts.ge, fun other member => ?_⟩,
        List.pairwise_cons.mpr ⟨fun other member => ?_, ascending⟩⟩
      · have after := later other member
        omega
      · exact own.trans (later other member)

/-- Ranges that follow on each other from zero to the end of the data cover it. -/
theorem validateDataCoverage_eq_ok {ranges : List (Nat × Nat)} {length : Nat}
    (covers : coverFrom 0 ranges = .ok length) (forward : ∀ range ∈ ranges, range.1 ≤ range.2) :
    validateDataCoverage ranges length = .ok () := by
  have sorted : ranges.mergeSort (fun left right => decide (left.1 ≤ right.1)) = ranges :=
    List.mergeSort_of_pairwise
      ((pairwise_of_coverFrom covers forward).2.imp fun ordered => decide_eq_true ordered)
  unfold validateDataCoverage
  rw [sorted, covers]
  exact if_neg (not_not.mpr rfl)

/-- The ranges that records declare go forward. -/
theorem forward_ranges (record : PropertySnapshotRecord W) :
    ∀ range ∈ record.ranges, range.1 ≤ range.2 := by
  unfold PropertySnapshotRecord.ranges
  dsimp only
  split <;> simp

/-- Ranges follow on each other exactly when their first and their last ones do. -/
theorem coverFrom_append (cursor : Nat) (ranges others : List (Nat × Nat)) :
    coverFrom cursor (ranges ++ others) =
      coverFrom cursor ranges >>= fun middle => coverFrom middle others := by
  induction ranges generalizing cursor with
  | nil => rfl
  | cons range rest ih =>
    rw [List.cons_append, coverFrom, coverFrom, ih]
    split <;> rfl

/-- The ranges of one layer go from the start of its streams to their end. -/
theorem coverFrom_record {nameOffset dataOffset : Nat} {any : AnyLayer Id T V}
    (fits : any.FitsAt W ipc nameOffset dataOffset) :
    coverFrom dataOffset (any.record W ipc nameOffset dataOffset).ranges =
      .ok (dataOffset + (any.streams ipc).length) := by
  have valueOffset : Layout.toNat (LayoutIndex.ofNat dataOffset : W) = dataOffset :=
    toNat_ofNat _ fits.valueOffset
  have valueLen : Layout.toNat (LayoutIndex.ofNat (any.valueStream ipc).length : W) =
      (any.valueStream ipc).length := toNat_ofNat _ fits.valueLen
  have defaultOffset : Layout.toNat (LayoutIndex.ofNat (any.defaultOffset ipc dataOffset) : W) =
      any.defaultOffset ipc dataOffset := toNat_ofNat _ fits.defaultOffset
  have defaultLen : Layout.toNat (LayoutIndex.ofNat ((any.defaultStream ipc).getD []).length : W) =
      ((any.defaultStream ipc).getD []).length := toNat_ofNat _ fits.defaultLen
  unfold PropertySnapshotRecord.ranges AnyLayer.record
  dsimp only
  rw [valueOffset, valueLen, defaultOffset, defaultLen, AnyLayer.length_streams]
  unfold AnyLayer.defaultOffset
  cases any.defaultStream ipc with
  | none => simp [coverFrom]
  | some bytes =>
    rw [Option.getD_some]
    by_cases empty : bytes.length = 0
    · simp [coverFrom, empty]
    · rw [if_pos empty]
      simp [coverFrom, Nat.add_assoc]

/-- The ranges of layers laid out one after the other follow on each other. -/
theorem coverFrom_laidRecords {nameOffset dataOffset : Nat} {layers : List (AnyLayer Id T V)}
    (fits : FitFrom W ipc nameOffset dataOffset layers) :
    coverFrom dataOffset ((laidRecords W ipc nameOffset dataOffset layers).flatMap
      PropertySnapshotRecord.ranges) =
      .ok (dataOffset + (layers.flatMap fun any => any.streams ipc).length) := by
  induction layers generalizing nameOffset dataOffset with
  | nil => rfl
  | cons any rest ih =>
    obtain ⟨own, others⟩ := fits
    rw [Nat.add_assoc dataOffset, ← AnyLayer.length_streams] at others
    rw [laidRecords, flatMap_cons, coverFrom_append, coverFrom_record own, flatMap_cons,
      length_append, ← Nat.add_assoc]
    exact ih others

-- Layers that were laid out.

/-- Layers that were laid out are valid, and decoded as they were, if their values can be counted. -/
theorem readLayers_eq (inverse : ipc.Inverse) {layers : List (AnyLayer Id T V)}
    (names : (layers.map AnyLayer.named).Nodup) (ids : (layers.map fun any => any.id W).Nodup)
    (fits : FitFrom W ipc 0 0 layers)
    (addressed : (encodedLayers W ipc layers).descriptors.length < usizeBound)
    (counted : (encodedLayers W ipc layers).data.length < usizeBound) :
    validatePropertySections W ipc (encodedLayers W ipc layers).descriptors
        (encodedLayers W ipc layers).data =
        (if (layers.map fun any => any.layer.len).sum < usizeBound then pure (summaryOf layers)
          else throw totalOverflow) ∧
      DecodedPropertyLayer.decodeSections W ipc (encodedLayers W ipc layers).descriptors
        (encodedLayers W ipc layers).data =
        (if (layers.map fun any => any.layer.len).sum < usizeBound
          then pure (layers.map fun any => any.decoded W) else throw totalOverflow) := by
  have length : (laidRecords W ipc 0 0 layers).length = layers.length := length_laidRecords ..
  have whole : (encodedLayers W ipc layers).descriptors =
      asBytes (headerOf W (laidRecords W ipc 0 0 layers).length) ++
        arrayBytes (laidRecords W ipc 0 0 layers) ++ layers.flatMap AnyLayer.nameBytes := by
    rw [length]
    rfl
  -- The names, the records, and the streams can each be addressed.
  have parts := congrArg List.length whole
  rw [length_append, length_append, length_asBytes] at parts
  have header : FixedLayout.size PropertySnapshotHeader = 16 := rfl
  have split := splitDescriptors_eq whole (by rw [← length_arrayBytes]; omega)
  obtain ⟨split, reopened⟩ := split
  have named : (layers.flatMap AnyLayer.nameBytes).length < usizeBound := by omega
  have recorded : (arrayBytes (laidRecords W ipc 0 0 layers)).length < usizeBound := by omega
  have stored : List.Forall₂
      (fun record => record.Stores ipc (layers.flatMap AnyLayer.nameBytes)
        (encodedLayers W ipc layers).data)
      (laidRecords W ipc 0 0 layers) (layers.map fun any => any.decoded W) :=
    @stores_laidRecords _ _ _ _ _ _ _ _ inverse layers [] [] fits named counted
  obtain ⟨last, ran, ranges, total⟩ :=
    @validateRecords_eq _ _ _ _ _ _ [] _ _ _ _ recorded stored
      (by rwa [List.map_map]) (by rwa [List.map_map])
      { names := ∅, ids := ∅, ranges := [], totalLogicalValues := 0 }
      (fun _ _ => Std.ExtTreeSet.not_mem_empty) (fun _ _ => Std.ExtTreeSet.not_mem_empty) (by decide +kernel)
  have sums : ((layers.map fun any => any.decoded W).map DecodedPropertyLayer.logicalLen) =
      layers.map fun any => any.layer.len := List.map_map
  rw [sums, Nat.zero_add] at ran total
  rw [nil_append] at ran ranges
  rw [length_nil, ← List.range_eq_range'] at ran
  have covered : validateDataCoverage last.ranges (encodedLayers W ipc layers).data.length =
      .ok () := by
    have follows := coverFrom_laidRecords fits
    rw [Nat.zero_add] at follows
    rw [ranges]
    refine validateDataCoverage_eq_ok follows fun range member => ?_
    obtain ⟨record, _, declared⟩ := List.mem_flatMap.mp member
    exact forward_ranges record range declared
  have validated : validatePropertySections W ipc (encodedLayers W ipc layers).descriptors
      (encodedLayers W ipc layers).data =
      (if (layers.map fun any => any.layer.len).sum < usizeBound then pure (summaryOf layers)
        else throw totalOverflow) := by
    unfold validatePropertySections
    rw [if_neg (by omega), split, pure_bind]
    dsimp only
    rw [ran]
    split_ifs
    · rw [pure_bind, covered, total, length]
      rfl
    · rfl
  refine ⟨validated, ?_⟩
  unfold DecodedPropertyLayer.decodeSections
  rw [validated]
  split_ifs
  · have decoded := @decodeLayers_eq _ _ _ _ _ [] _ _ _ _ recorded stored
    rw [nil_append, length_nil, ← List.range_eq_range'] at decoded
    rw [pure_bind, reopened, pure_bind]
    exact decoded
  · rfl

end Oxgraph.Property
