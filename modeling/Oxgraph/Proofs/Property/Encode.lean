import Oxgraph.Proofs.Property.Layer
import Oxgraph.Spec.Property

/-! Encoding layers lays out a record, a name and the streams of each, one after the other. -/

namespace Oxgraph.Property

open Layout

variable {Id W T V : Type} [DecidableEq T] {ipc : ArrowIpc T V}

-- Streams.

omit [DecidableEq T] in
/-- An array counts no nulls when none of its slots is null. -/
theorem nullCount_eq_zero {array : ArrowArray T V} (valid : ensureNoNulls array = .ok ()) :
    array.nullCount = 0 := by
  rw [ArrowArray.nullCount, List.count_eq_zero]
  intro member
  have never := ensureNoNulls_eq_ok_iff_nulls.mp valid true member
  cases never

variable {descriptor : PropertyLayerDescriptor Id T} {values : ArrowArray T V}

/-- An array of the type of a descriptor's field. -/
theorem ensureArrowType_eq_ok :
    ensureArrowType descriptor values = .ok () ↔
      descriptor.arrowField.dataType = values.dataType := by
  unfold ensureArrowType
  split <;> simp_all

/-- An array alone makes a batch of its field. -/
theorem batches_one (type : ensureArrowType descriptor values = .ok ())
    (nulls : descriptor.arrowField.nullable = false → values.nullCount = 0) :
    Batches [descriptor.arrowField] [values] where
  nonempty := List.cons_ne_nil _ _
  typed := by
    rw [List.map_singleton, List.map_singleton, ensureArrowType_eq_ok.mp type]
  alike := by simp
  nulls := by simpa using nulls

/-- The indexes and the values of a sparse layer make a batch. -/
theorem batches_sparse {I : Type} [PropertyIndex I] {len : Nat} {indices : PrimitiveArray I}
    {default : Option (ArrowArray T V)}
    (checks : SparseChecks descriptor len indices values default) :
    Batches [{ name := "index", dataType := indexDataType I, nullable := false },
      descriptor.arrowField] [PropertyIndex.intoArray indices, values] where
  nonempty := List.cons_ne_nil _ _
  typed := by
    simp [PropertyIndex.dataType_intoArray, ensureArrowType_eq_ok.mp checks.type]
  alike := by
    have same : (PropertyIndex.intoArray indices : ArrowArray T V).len = values.len := by
      rw [ArrowArray.len, PropertyIndex.nulls_intoArray, List.length_map, checks.lengths]
    simp [same]
  nulls := by
    have valid := nullCount_eq_zero checks.indexNulls
    have others (strict : descriptor.arrowField.nullable = false) :=
      nullCount_eq_zero (checks.nulls strict)
    simpa using ⟨valid, others⟩

/-- The default of a sparse layer makes a batch. -/
theorem batches_default {missing : MissingPolicy} {array : ArrowArray T V}
    (policy : validateDefaultPolicy descriptor missing (some array) = .ok ()) :
    array.len = 1 ∧ array.isNull 0 = some false ∧ ensureArrowType descriptor array = .ok () ∧
      Batches [descriptor.arrowField] [array] := by
  cases missing with
  | null => cases policy
  | default =>
    obtain ⟨type, single⟩ := seq_eq_ok.mp policy
    split at single
    · rename_i one
      refine ⟨one.1, one.2, type, batches_one type fun _ => ?_⟩
      -- The one slot is not null.
      obtain ⟨length, present⟩ := one
      rw [ArrowArray.isNull] at present
      rw [ArrowArray.len] at length
      obtain ⟨null, listed⟩ := List.length_eq_one_iff.mp length
      rw [listed] at present
      rw [ArrowArray.nullCount, listed]
      simp_all
    · cases single

namespace AnyLayer

variable (any : AnyLayer Id T V)

/-- The columns of a layer's value stream. -/
def valueColumns : List (ArrowArray T V) :=
  match any.layer.data with
  | .dense values => [values]
  | .sparse indices values _ => [PropertyIndex.intoArray indices, values]

/-- The default that a layer has. -/
def default : Option (ArrowArray T V) :=
  match any.layer.data with
  | .dense _ => none
  | .sparse _ _ default => default

/-- The value stream of a layer is written, and read as its columns. -/
theorem valueStream_spec (inverse : ipc.Inverse) :
    encodeLayerValueIpc ipc any.layer = .ok (any.valueStream ipc) ∧ any.valueStream ipc ≠ [] ∧
      ipc.read (any.valueStream ipc) = .ok [.ok ⟨any.valueColumns⟩] := by
  have whole : ∃ bytes, encodeLayerValueIpc ipc any.layer = .ok bytes ∧ bytes ≠ [] ∧
      ipc.read bytes = .ok [.ok ⟨any.valueColumns⟩] := by
    have checked := any.layer.checked
    unfold encodeLayerValueIpc valueColumns
    cases stored : any.layer.data with
    | dense values =>
      rw [stored] at checked
      obtain ⟨bytes, wrote, nonempty, read⟩ :=
        inverse _ _ (batches_one checked.type fun strict => nullCount_eq_zero (checked.nulls strict))
      exact ⟨bytes, mapError_eq_ok.mpr wrote, nonempty, read⟩
    | sparse indices values default =>
      rw [stored] at checked
      obtain ⟨bytes, wrote, nonempty, read⟩ := inverse _ _ (batches_sparse checked)
      exact ⟨bytes, mapError_eq_ok.mpr wrote, nonempty, read⟩
  obtain ⟨bytes, wrote, nonempty, read⟩ := whole
  have same : any.valueStream ipc = bytes := by rw [valueStream, wrote]
  rw [same]
  exact ⟨wrote, nonempty, read⟩

/-- The default stream of a layer is there with its default, and read as that. -/
theorem defaultStream_spec (inverse : ipc.Inverse) :
    encodeLayerDefaultIpc ipc any.layer = .ok (any.defaultStream ipc) ∧
      match any.default with
      | none => any.defaultStream ipc = none
      | some array => ∃ bytes, any.defaultStream ipc = some bytes ∧ bytes ≠ [] ∧
          ipc.read bytes = .ok [.ok ⟨[array]⟩] := by
  have whole : ∃ stream, encodeLayerDefaultIpc ipc any.layer = .ok stream ∧
      match any.default with
      | none => stream = none
      | some array => ∃ bytes, stream = some bytes ∧ bytes ≠ [] ∧
          ipc.read bytes = .ok [.ok ⟨[array]⟩] := by
    have checked := any.layer.checked
    unfold encodeLayerDefaultIpc default
    cases stored : any.layer.data with
    | dense values => exact ⟨none, rfl, rfl⟩
    | sparse indices values default =>
      rw [stored] at checked
      cases default with
      | none => exact ⟨none, rfl, rfl⟩
      | some array =>
        obtain ⟨missing, _, policy⟩ := checked.policy
        obtain ⟨bytes, wrote, nonempty, read⟩ := inverse _ _ (batches_default policy).2.2.2
        refine ⟨some bytes, ?_, bytes, rfl, nonempty, read⟩
        exact bind_eq_ok.mpr ⟨bytes, mapError_eq_ok.mpr wrote, rfl⟩
  obtain ⟨stream, wrote, holds⟩ := whole
  have same : any.defaultStream ipc = stream := by rw [defaultStream, wrote]
  rw [same]
  exact ⟨wrote, holds⟩

/-- The bytes of a layer's name. -/
def nameBytes : Bytes := utf8Bytes any.layer.descriptor.name.value

/-- The bytes of a layer's streams, the value stream first. -/
def streams (ipc : ArrowIpc T V) : Bytes := any.valueStream ipc ++ (any.defaultStream ipc).getD []

theorem length_streams : (any.streams ipc).length =
    (any.valueStream ipc).length + ((any.defaultStream ipc).getD []).length :=
  List.length_append

end AnyLayer

-- Records.

variable [PropertyIndex W]

/-- A value that fits the width is a word. -/
theorem leWord_eq_ok {value : Nat} (fits : value < LayoutIndex.bound W) :
    leWord value = .ok (LayoutIndex.ofNat value : W) := by
  unfold leWord fromUsize
  rw [if_pos fits]

/-- Tags fit every width. -/
theorem tags_fit (idFamily : IdFamily) (role : LayerRole) (storage : StorageMode) :
    (idFamilyTag idFamily).toNat < LayoutIndex.bound W ∧
      (layerRoleTag role).toNat < LayoutIndex.bound W ∧
      (storageTag storage).toNat < LayoutIndex.bound W ∧
      (missingPolicyTag storage).toNat < LayoutIndex.bound W := by
  have room : 2 < LayoutIndex.bound W := two_lt_bound
  have family : (idFamilyTag idFamily).toNat ≤ 2 := by cases idFamily <;> decide
  have role : (layerRoleTag role).toNat ≤ 2 := by cases role <;> decide
  have mode : (storageTag storage).toNat ≤ 2 := by cases storage <;> simp [storageTag]
  have missing : (missingPolicyTag storage).toNat ≤ 2 := by
    rcases storage with _ | _ | _ <;> simp [missingPolicyTag]
  omega

variable [LayerId Id W]

/-- The record of a layer laid out at these offsets. -/
def AnyLayer.record (any : AnyLayer Id T V) (W : Type) [PropertyIndex W] [LayerId Id W]
    (ipc : ArrowIpc T V) (nameOffset dataOffset : Nat) : PropertySnapshotRecord W where
  layerId := LayoutIndex.ofNat (any.id W).toNat
  nameOffset := LayoutIndex.ofNat nameOffset
  nameLen := LayoutIndex.ofNat any.nameBytes.length
  idFamily := LayoutIndex.ofNat (idFamilyTag any.layer.descriptor.idFamily).toNat
  role := LayoutIndex.ofNat (layerRoleTag any.layer.descriptor.role).toNat
  storage := LayoutIndex.ofNat (storageTag any.layer.descriptor.storage).toNat
  missingPolicy := LayoutIndex.ofNat (missingPolicyTag any.layer.descriptor.storage).toNat
  logicalLen := LayoutIndex.ofNat any.layer.len
  valueCount := LayoutIndex.ofNat (layerValueCount any.layer)
  valueDataOffset := LayoutIndex.ofNat dataOffset
  valueDataLen := LayoutIndex.ofNat (any.valueStream ipc).length
  defaultDataOffset := LayoutIndex.ofNat (any.defaultOffset ipc dataOffset)
  defaultDataLen := LayoutIndex.ofNat ((any.defaultStream ipc).getD []).length
  reserved := LayoutIndex.ofNat 0

variable {any : AnyLayer Id T V}

/-- A record is built when the width can hold what goes into it. -/
theorem record_eq_ok {nameOffset dataOffset : Nat} (fits : any.FitsAt W ipc nameOffset dataOffset) :
    PropertySnapshotEncoder.record any.layer nameOffset dataOffset (any.valueStream ipc).length
      (any.defaultOffset ipc dataOffset) ((any.defaultStream ipc).getD []).length =
      .ok (any.record W ipc nameOffset dataOffset) := by
  obtain ⟨family, role, storage, missing⟩ := @tags_fit W _ any.layer.descriptor.idFamily
    any.layer.descriptor.role any.layer.descriptor.storage
  have zero : 0 < LayoutIndex.bound W := Nat.lt_trans Nat.zero_lt_one LayoutIndex.one_lt
  have word : (LayerId.tryIntoWord any.layer.descriptor.layerId : Option W) =
      some (LayoutIndex.ofNat (any.id W).toNat) := by
    rw [LayerId.tryIntoWord_eq_some]
    exact LayoutIndex.toNat_ofNat _ fits.layerId
  unfold PropertySnapshotEncoder.record
  dsimp only
  rw [word, leWord_eq_ok fits.nameOffset, leWord_eq_ok fits.nameLen, leWord_eq_ok family,
    leWord_eq_ok role, leWord_eq_ok storage, leWord_eq_ok missing, leWord_eq_ok fits.logicalLen,
    leWord_eq_ok fits.valueCount, leWord_eq_ok fits.valueOffset, leWord_eq_ok fits.valueLen,
    leWord_eq_ok fits.defaultOffset, leWord_eq_ok fits.defaultLen, leWord_eq_ok zero]
  rfl

/-- The records of layers laid out one after the other from these offsets. -/
def laidRecords (W : Type) [PropertyIndex W] [LayerId Id W] (ipc : ArrowIpc T V) :
    Nat → Nat → List (AnyLayer Id T V) → List (PropertySnapshotRecord W)
  | _, _, [] => []
  | nameOffset, dataOffset, any :: rest =>
    any.record W ipc nameOffset dataOffset ::
      laidRecords W ipc (nameOffset + any.nameBytes.length) (dataOffset + (any.streams ipc).length)
        rest

@[simp] theorem length_laidRecords (nameOffset dataOffset : Nat)
    (layers : List (AnyLayer Id T V)) :
    (laidRecords W ipc nameOffset dataOffset layers).length = layers.length := by
  induction layers generalizing nameOffset dataOffset with
  | nil => rfl
  | cons any rest ih => rw [laidRecords, List.length_cons, List.length_cons, ih]

-- Runs.

/-- An encoder with one more layer laid out after what it held. -/
def PropertySnapshotEncoder.withLayer (ipc : ArrowIpc T V) (encoder : PropertySnapshotEncoder W)
    (any : AnyLayer Id T V) : PropertySnapshotEncoder W where
  data := encoder.data ++ any.streams ipc
  strings := encoder.strings ++ any.nameBytes
  records := encoder.records ++ [any.record W ipc encoder.strings.length encoder.data.length]
  names := encoder.names.insert any.named
  ids := encoder.ids.insert (any.id W)

/-- Appending a layer of a new name and a new ID lays it out, if it fits. -/
theorem append_eq_ok (inverse : ipc.Inverse) {encoder : PropertySnapshotEncoder W}
    (unnamed : any.named ∉ encoder.names) (fresh : any.id W ∉ encoder.ids)
    (fits : any.FitsAt W ipc encoder.strings.length encoder.data.length) :
    encoder.append ipc any.layer = .ok (encoder.withLayer ipc any) := by
  obtain ⟨values, _, _⟩ := any.valueStream_spec inverse
  obtain ⟨defaults, _⟩ := any.defaultStream_spec inverse
  have record := record_eq_ok fits
  rw [← Std.ExtTreeSet.contains_iff_mem, Bool.not_eq_true] at unnamed fresh
  unfold PropertySnapshotEncoder.append
  dsimp only
  -- Neither the name nor the ID is there, so that the streams are written.
  rw [if_neg (by exact ne_true_of_eq_false unnamed), if_neg (by exact ne_true_of_eq_false fresh),
    values, defaults]
  unfold AnyLayer.defaultOffset at record
  unfold PropertySnapshotEncoder.withLayer AnyLayer.streams
  cases stream : any.defaultStream ipc with
  | none =>
    rw [stream] at record
    refine bind_eq_ok.mpr ⟨_, rfl, bind_eq_ok.mpr ⟨none, rfl, bind_eq_ok.mpr ⟨_, record, ?_⟩⟩⟩
    rw [← List.append_assoc]
    rfl
  | some bytes =>
    rw [stream, Option.getD_some] at record
    refine bind_eq_ok.mpr ⟨_, rfl, bind_eq_ok.mpr ⟨some bytes, rfl, bind_eq_ok.mpr
      ⟨any.record W ipc encoder.strings.length encoder.data.length, ?_, ?_⟩⟩⟩
    · show PropertySnapshotEncoder.record any.layer _ _ _ (encoder.data ++ _).length _ = _
      rw [List.length_append]
      exact record
    · rw [← List.append_assoc]
      rfl

/-- An encoder holds layers that it has laid out one after the other. -/
structure PropertySnapshotEncoder.HoldsLayers (ipc : ArrowIpc T V)
    (encoder : PropertySnapshotEncoder W) (layers : List (AnyLayer Id T V)) : Prop where
  data : encoder.data = layers.flatMap fun any => any.streams ipc
  strings : encoder.strings = layers.flatMap AnyLayer.nameBytes
  records : encoder.records = laidRecords W ipc 0 0 layers
  names : ∀ named, named ∈ encoder.names ↔ named ∈ layers.map AnyLayer.named
  ids : ∀ id, id ∈ encoder.ids ↔ id ∈ layers.map fun any => any.id W

omit [LayerId Id W] in
/-- A new encoder holds nothing. -/
theorem holdsLayers_new [LayerId Id W] :
    (PropertySnapshotEncoder.new : PropertySnapshotEncoder W).HoldsLayers ipc
      ([] : List (AnyLayer Id T V)) :=
  ⟨rfl, rfl, rfl, by simp [PropertySnapshotEncoder.new], by simp [PropertySnapshotEncoder.new]⟩

/-- One more layer is laid out after those before. -/
theorem laidRecords_append (nameOffset dataOffset : Nat) (layers : List (AnyLayer Id T V))
    (any : AnyLayer Id T V) :
    laidRecords W ipc nameOffset dataOffset (layers ++ [any]) =
      laidRecords W ipc nameOffset dataOffset layers ++
        [any.record W ipc (nameOffset + (layers.flatMap AnyLayer.nameBytes).length)
          (dataOffset + (layers.flatMap fun any => any.streams ipc).length)] := by
  induction layers generalizing nameOffset dataOffset with
  | nil => rfl
  | cons first rest ih =>
    rw [List.cons_append, laidRecords, ih, laidRecords, List.flatMap_cons, List.flatMap_cons,
      List.length_append, List.length_append, Nat.add_assoc, Nat.add_assoc]
    rfl

/-- A layer fits after those before it. -/
theorem fitsAt_of_fitFrom {nameOffset dataOffset : Nat} {layers rest : List (AnyLayer Id T V)}
    (fits : FitFrom W ipc nameOffset dataOffset (layers ++ any :: rest)) :
    any.FitsAt W ipc (nameOffset + (layers.flatMap AnyLayer.nameBytes).length)
      (dataOffset + (layers.flatMap fun any => any.streams ipc).length) := by
  induction layers generalizing nameOffset dataOffset with
  | nil => exact fits.1
  | cons first others ih =>
    have next := ih fits.2
    rw [List.flatMap_cons, List.flatMap_cons, List.length_append, List.length_append,
      AnyLayer.length_streams, ← Nat.add_assoc, ← Nat.add_assoc, ← Nat.add_assoc]
    exact next

/-- With one more layer laid out, an encoder holds that too. -/
theorem PropertySnapshotEncoder.HoldsLayers.withLayer {encoder : PropertySnapshotEncoder W}
    {layers : List (AnyLayer Id T V)} (holds : encoder.HoldsLayers ipc layers)
    (any : AnyLayer Id T V) : (encoder.withLayer ipc any).HoldsLayers ipc (layers ++ [any]) where
  data := by
    rw [List.flatMap_append, List.flatMap_singleton, ← holds.data]
    rfl
  strings := by
    rw [List.flatMap_append, List.flatMap_singleton, ← holds.strings]
    rfl
  records := by
    rw [laidRecords_append, Nat.zero_add, Nat.zero_add, ← holds.records, ← holds.strings,
      ← holds.data]
    rfl
  names named := by
    rw [List.map_append, List.mem_append, ← holds.names, List.map_singleton, List.mem_singleton]
    exact mem_insert_set.trans (or_comm.trans (or_congr_right eq_comm))
  ids id := by
    rw [List.map_append, List.mem_append, ← holds.ids, List.map_singleton, List.mem_singleton]
    exact mem_insert_set.trans (or_comm.trans (or_congr_right eq_comm))

/-- Layers of different names and IDs that fit are all laid out. -/
theorem appendAll_eq_ok (inverse : ipc.Inverse) {layers rest : List (AnyLayer Id T V)}
    (names : ((layers ++ rest).map AnyLayer.named).Nodup)
    (ids : ((layers ++ rest).map fun any => any.id W).Nodup)
    (fits : FitFrom W ipc 0 0 (layers ++ rest)) {encoder : PropertySnapshotEncoder W}
    (holds : encoder.HoldsLayers ipc layers) :
    ∃ last, rest.foldlM (fun encoder any => encoder.append ipc any.layer) encoder = .ok last ∧
      last.HoldsLayers ipc (layers ++ rest) := by
  induction rest generalizing layers encoder with
  | nil => exact ⟨encoder, rfl, by rwa [List.append_nil]⟩
  | cons any rest ih =>
    have own := fitsAt_of_fitFrom fits
    rw [Nat.zero_add, Nat.zero_add, ← holds.strings, ← holds.data] at own
    -- The layers before have other names and other IDs.
    have unnamed : any.named ∉ encoder.names := by
      rw [holds.names]
      rw [List.map_append, List.map_cons] at names
      exact fun member => (List.nodup_append.mp names).2.2 _ member _ List.mem_cons_self rfl
    have fresh : any.id W ∉ encoder.ids := by
      rw [holds.ids]
      rw [List.map_append, List.map_cons] at ids
      exact fun member => (List.nodup_append.mp ids).2.2 _ member _ List.mem_cons_self rfl
    have appended := append_eq_ok inverse unnamed fresh own
    rw [← List.singleton_append, ← List.append_assoc] at names ids fits ⊢
    obtain ⟨last, ran, after⟩ := ih names ids fits (holds.withLayer any)
    refine ⟨last, ?_, after⟩
    rw [List.singleton_append, List.foldlM_cons, appended]
    exact ran

-- The two sections.

/-- The descriptor header of a number of records. -/
def headerOf (W : Type) [PropertyIndex W] (count : Nat) : PropertySnapshotHeader where
  recordCount := .ofNat count
  recordBytes := .ofNat (count * FixedLayout.size (PropertySnapshotRecord W))

theorem usizeToU64_eq_ok {value : Nat} (counted : value < usizeBound) :
    usizeToU64 value = .ok (.ofNat value) :=
  if_pos counted

/-- The sections that layers are laid out in. -/
def encodedLayers (W : Type) [PropertyIndex W] [LayerId Id W] (ipc : ArrowIpc T V)
    (layers : List (AnyLayer Id T V)) : EncodedPropertySnapshot where
  descriptors := asBytes (headerOf W layers.length) ++
    arrayBytes (laidRecords W ipc 0 0 layers) ++ layers.flatMap AnyLayer.nameBytes
  data := layers.flatMap fun any => any.streams ipc

/-- Layers of different names and IDs that fit are encoded. -/
theorem encodeLayers_eq_ok (inverse : ipc.Inverse) {layers : List (AnyLayer Id T V)}
    (names : (layers.map AnyLayer.named).Nodup) (ids : (layers.map fun any => any.id W).Nodup)
    (fits : FitFrom W ipc 0 0 layers)
    (counted : layers.length * FixedLayout.size (PropertySnapshotRecord W) < usizeBound) :
    encodeLayers W ipc layers = .ok (encodedLayers W ipc layers) := by
  obtain ⟨encoder, ran, holds⟩ :=
    @appendAll_eq_ok _ _ _ _ _ _ _ _ inverse [] layers names ids fits _ holdsLayers_new
  rw [List.nil_append] at holds
  have count : encoder.records.length = layers.length := by
    rw [holds.records, length_laidRecords]
  have few : layers.length < usizeBound :=
    Nat.lt_of_le_of_lt (Nat.le_mul_of_pos_right _ FixedLayout.size_pos) counted
  refine bind_eq_ok.mpr ⟨encoder, ran, ?_⟩
  unfold PropertySnapshotEncoder.finish checkedMul
  rw [count, if_pos counted]
  dsimp only
  rw [usizeToU64_eq_ok few, usizeToU64_eq_ok counted, holds.records, holds.strings, holds.data]
  rfl

/-- The layers of a graph are encoded one after the other. -/
theorem encodeGraphPropertySnapshot_eq {N E : Type} [PropertyIndex N] [PropertyIndex E]
    (element : List (PropertyLayer Id N T V)) (relation : List (PropertyLayer Id E T V)) :
    @encodeGraphPropertySnapshot W Id T V _ _ _ ipc N E _ _ element relation =
      encodeLayers W ipc (element.map PropertyLayer.any ++ relation.map PropertyLayer.any) := by
  unfold encodeGraphPropertySnapshot encodeLayers
  rw [List.foldlM_append, List.foldlM_map, bind_assoc]
  simp only [List.foldlM_map]
  rfl

/-- The layers of a hypergraph are encoded one after the other. -/
theorem encodeHyperPropertySnapshot_eq {A R O : Type} [PropertyIndex A] [PropertyIndex R]
    [PropertyIndex O] (element : List (PropertyLayer Id A T V))
    (relation : List (PropertyLayer Id R T V)) (incidence : List (PropertyLayer Id O T V)) :
    @encodeHyperPropertySnapshot W Id T V _ _ _ ipc A R O _ _ _ element relation incidence =
      encodeLayers W ipc (element.map PropertyLayer.any ++ relation.map PropertyLayer.any ++
        incidence.map PropertyLayer.any) := by
  unfold encodeHyperPropertySnapshot encodeLayers
  rw [List.foldlM_append, List.foldlM_append, List.foldlM_map, bind_assoc, bind_assoc]
  simp only [List.foldlM_map]
  rfl

end Oxgraph.Property
