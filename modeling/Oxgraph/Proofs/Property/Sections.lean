import Oxgraph.Proofs.Layout.Sections
import Oxgraph.Proofs.Property.Decode
import Oxgraph.Proofs.Property.Rekey
import Oxgraph.Spec.Aligned

/-! The identity and property sections of a snapshot are read as they were appended. -/

namespace Oxgraph.Property

open Layout Container

/-- A snapshot has a section of its kind that holds what was planned. -/
def Located (snapshot : Container.Snapshot) (pending : PendingSection) : Prop :=
  ∃ found, snapshot.sectionOf pending.kind = some found ∧ found.planned = pending

/-- A located section is found. -/
theorem findSection_eq_ok {snapshot : Container.Snapshot} {pending : PendingSection}
    (located : Located snapshot pending) :
    ∃ found, findSection snapshot pending.kind = .ok found ∧ found.planned = pending := by
  obtain ⟨found, same, planned⟩ := located
  refine ⟨found, ?_, planned⟩
  unfold findSection
  rw [same]

/-- A section that was planned with the version passes. -/
theorem checkVersion_eq_ok {kind : UInt32} {found : Section} {pending : PendingSection}
    (planned : found.planned = pending) (version : pending.version = snapshotPropertyVersion) :
    checkVersion kind found = .ok () := by
  have same : found.version = snapshotPropertyVersion :=
    (congrArg PendingSection.version planned).trans version
  exact if_neg (not_not.mpr same)

/-- A section of words or records is borrowed as these. -/
theorem borrowRecords_eq_ok {R : Type} [FixedLayout R] {found : Section} {kind version : UInt32}
    {records : List R} (planned : found.planned = (wordSection kind version records).pending) :
    borrowRecords R kind found = .ok records := by
  have payload : found.payload = arrayBytes records :=
    (congrArg PendingSection.payload planned).trans (payload_wordSection kind version records)
  unfold borrowRecords Section.tryAsSlice
  rw [payload, refFromBytes_arrayBytes]
  rfl

-- Identity modes.

section

variable {W : Type} [PropertyIndex W]

/-- The record of a mode. -/
def IdentityModeSummary.record (W : Type) [LayoutIndex W] (summary : IdentityModeSummary) :
    IdentityModeRecord W where
  idFamily := LayoutIndex.ofNat (idFamilyTag summary.idFamily).toNat
  mode := LayoutIndex.ofNat summary.mode.tag.toNat
  localLen := LayoutIndex.ofNat summary.localLen

/-- The tags of a mode fit every width. -/
theorem identityTags_fit (idFamily : IdFamily) (mode : IdentityMapMode) :
    (idFamilyTag idFamily).toNat < LayoutIndex.bound W ∧ mode.tag.toNat < LayoutIndex.bound W := by
  have room : 2 < LayoutIndex.bound W := two_lt_bound
  have family : (idFamilyTag idFamily).toNat ≤ 2 := by cases idFamily <;> decide
  have mode : mode.tag.toNat ≤ 2 := by cases mode <;> decide
  omega

/-- The record of a mode is built when the width can count the local IDs. -/
theorem identityRecord_eq_ok (idFamily : IdFamily) (mode : IdentityMapMode) {localLen : Nat}
    (fits : localLen < LayoutIndex.bound W) :
    IdentityModeRecord.new idFamily mode localLen =
      .ok (IdentityModeSummary.record W ⟨idFamily, mode, localLen⟩) := by
  obtain ⟨familyFits, modeFits⟩ := @identityTags_fit W _ idFamily mode
  unfold IdentityModeRecord.new
  rw [leWord_eq_ok familyFits, leWord_eq_ok modeFits, leWord_eq_ok fits]
  rfl

/-- A record is read as the mode that it was built for. -/
theorem readIdentity_eq {summary : IdentityModeSummary}
    (fits : summary.localLen < LayoutIndex.bound W) :
    (summary.record W).readIdFamily = .ok summary.idFamily ∧
      (summary.record W).readMode = .ok summary.mode ∧
      (summary.record W).readLocalLen = summary.localLen := by
  obtain ⟨familyFits, modeFits⟩ := @identityTags_fit W _ summary.idFamily summary.mode
  have family : leWordToU32 (summary.record W).idFamily = .ok (idFamilyTag summary.idFamily) :=
    leWordToU32_eq_ok (LayoutIndex.toNat_ofNat _ familyFits)
  have mode : leWordToU32 (summary.record W).mode = .ok summary.mode.tag :=
    leWordToU32_eq_ok (LayoutIndex.toNat_ofNat _ modeFits)
  refine ⟨?_, ?_, ?_⟩
  · unfold IdentityModeRecord.readIdFamily
    rw [family]
    exact idFamilyFromTag_eq_ok summary.idFamily
  · unfold IdentityModeRecord.readMode
    rw [mode]
    cases summary.mode <;> rfl
  · unfold IdentityModeRecord.readLocalLen
    rw [leWordToUsize_eq]
    exact LayoutIndex.toNat_ofNat _ fits

/-- A snapshot has what a mode asks for: an explicit one, a map of as many entries. -/
def IdentityModeSummary.Mapped (W : Type) [PropertyIndex W] (snapshot : Container.Snapshot)
    (summary : IdentityModeSummary) : Prop :=
  summary.mode = .explicitMap → ∃ map : List W, map.length = summary.localLen ∧
    Located snapshot
      (wordSection (identityMapKind W summary.idFamily) snapshotPropertyVersion map).pending

variable {snapshot : Container.Snapshot}

/-- An explicit map that is there is valid. -/
theorem validateIdentityMapSection_eq_ok {idFamily : IdFamily} {map : List W}
    (located : Located snapshot
      (wordSection (identityMapKind W idFamily) snapshotPropertyVersion map).pending) :
    validateIdentityMapSection W snapshot idFamily map.length = .ok () := by
  obtain ⟨found, same, planned⟩ := located
  change snapshot.sectionOf (identityMapKind W idFamily) = some found at same
  unfold validateIdentityMapSection
  rw [same]
  refine seq_eq_ok.mpr ⟨checkVersion_eq_ok planned rfl, ?_⟩
  refine bind_eq_ok.mpr ⟨map, borrowRecords_eq_ok planned, ?_⟩
  exact if_neg (not_not.mpr rfl)

/-- A mode of a new family is valid when the snapshot has what it asks for. -/
theorem validateIdentityRecord_eq_ok {summary : IdentityModeSummary}
    (fits : summary.localLen < LayoutIndex.bound W) (mapped : summary.Mapped W snapshot)
    {seen : BTreeSet IdFamily} (fresh : summary.idFamily ∉ seen)
    (before : List IdentityModeSummary) :
    validateIdentityRecord W snapshot (seen, before) (summary.record W) =
      .ok (seen.insert summary.idFamily, before ++ [summary]) := by
  obtain ⟨family, ownMode, length⟩ := readIdentity_eq fits
  rw [← Std.ExtTreeSet.contains_iff_mem, Bool.not_eq_true] at fresh
  unfold validateIdentityRecord
  refine bind_eq_ok.mpr ⟨_, family, ?_⟩
  rw [if_neg (by simp [fresh]), length]
  refine bind_eq_ok.mpr ⟨_, ownMode, ?_⟩
  -- Only an explicit mode asks for a map.
  obtain ⟨idFamily, mode, localLen⟩ := summary
  cases mode with
  | localEqualsCanonical => rfl
  | explicitMap =>
    obtain ⟨map, rfl, located⟩ := mapped rfl
    exact seq_eq_ok.mpr ⟨validateIdentityMapSection_eq_ok located, rfl⟩

/-- Modes of families that were not seen are valid when the snapshot has what they ask for. -/
theorem foldlM_validateIdentityRecord {snapshot : Container.Snapshot}
    {summaries : List IdentityModeSummary}
    (families : (summaries.map IdentityModeSummary.idFamily).Nodup)
    (fits : ∀ summary ∈ summaries, summary.localLen < LayoutIndex.bound W)
    (mapped : ∀ summary ∈ summaries, summary.Mapped W snapshot) {seen : BTreeSet IdFamily}
    (fresh : ∀ summary ∈ summaries, summary.idFamily ∉ seen) (before : List IdentityModeSummary) :
    ∃ last, (summaries.map fun summary => summary.record W).foldlM
      (validateIdentityRecord W snapshot) (seen, before) = .ok (last, before ++ summaries) := by
  induction summaries generalizing seen before with
  | nil => exact ⟨seen, by rw [List.append_nil]; rfl⟩
  | cons summary rest ih =>
    obtain ⟨fitsOwn, fitsOthers⟩ := List.forall_mem_cons.mp fits
    obtain ⟨mappedOwn, mappedOthers⟩ := List.forall_mem_cons.mp mapped
    obtain ⟨freshOwn, freshOthers⟩ := List.forall_mem_cons.mp fresh
    rw [List.map_cons, List.nodup_cons] at families
    -- The other modes are of families that this one does not add.
    have unseen : ∀ other ∈ rest, other.idFamily ∉ seen.insert summary.idFamily := by
      intro other member inserted
      rcases mem_insert_set.mp inserted with equal | before
      · exact families.1 (List.mem_map.mpr ⟨other, member, equal.symm⟩)
      · exact freshOthers other member before
    obtain ⟨last, ran⟩ := ih families.2 fitsOthers mappedOthers unseen (before ++ [summary])
    rw [List.append_assoc, List.singleton_append] at ran
    refine ⟨last, ?_⟩
    rw [List.map_cons, List.foldlM_cons,
      validateIdentityRecord_eq_ok fitsOwn mappedOwn freshOwn before]
    exact ran

/-- A snapshot with the records of modes, and what they ask for, has these modes. -/
theorem validateIdentitySnapshot_eq_ok {summaries : List IdentityModeSummary}
    (families : (summaries.map IdentityModeSummary.idFamily).Nodup)
    (fits : ∀ summary ∈ summaries, summary.localLen < LayoutIndex.bound W)
    (mapped : ∀ summary ∈ summaries, summary.Mapped W snapshot)
    (located : Located snapshot (wordSection (identityModesKind W) snapshotPropertyVersion
      (summaries.map fun summary => summary.record W)).pending) :
    validateIdentitySnapshot W snapshot = .ok ⟨summaries⟩ := by
  obtain ⟨found, same, planned⟩ := findSection_eq_ok located
  refine bind_eq_ok.mpr ⟨found, same, seq_eq_ok.mpr ⟨checkVersion_eq_ok planned rfl, ?_⟩⟩
  refine bind_eq_ok.mpr ⟨_, borrowRecords_eq_ok planned, ?_⟩
  obtain ⟨last, ran⟩ := @foldlM_validateIdentityRecord _ _ _ _ families fits mapped ∅
    (fun _ _ => Std.ExtTreeSet.not_mem_empty) []
  exact bind_eq_ok.mpr ⟨_, bind_eq_ok.mpr ⟨_, ran, rfl⟩, rfl⟩

-- Property sections.

/-- The sections that follow the topology, in the order they are streamed. -/
def propertyStreams {M : Type} [FixedLayout M] (summaries : List IdentityModeSummary)
    (mapKind : UInt32) (map : List M) (W : Type) [PropertyIndex W]
    (encoded : EncodedPropertySnapshot) : List StreamedSection :=
  [rawSection (propertyDescriptorsKind W) snapshotPropertyVersion 0 encoded.descriptors,
    rawSection (propertyDataKind W) snapshotPropertyVersion 0 encoded.data,
    wordSection (identityModesKind W) snapshotPropertyVersion
      (summaries.map fun summary => summary.record W),
    wordSection mapKind snapshotPropertyVersion map]

/-- Appending the identity and property sections streams them. -/
theorem appendSections_eq {M : Type} [SnapshotWidth M] (checksum : Checksum32)
    (writer : SnapshotWriter) (summaries : List IdentityModeSummary) (mapKind : UInt32)
    (map : List M) (encoded : EncodedPropertySnapshot) :
    appendIdentityAndPropertySections checksum writer
        (summaries.map fun summary => summary.record W) mapKind map encoded =
      (propertyStreams summaries mapKind map W encoded).foldlM (StreamedSection.write checksum)
        writer := by
  unfold appendIdentityAndPropertySections propertyStreams
  simp only [sectionBytes_eq, sectionWidths_eq, List.foldlM_cons, List.foldlM_nil, bind_pure]

/-- A snapshot with both property sections has their payloads. -/
theorem propertyPayloads_eq_ok {encoded : EncodedPropertySnapshot}
    (descriptors : Located snapshot (rawSection (propertyDescriptorsKind W) snapshotPropertyVersion
      0 encoded.descriptors).pending)
    (data : Located snapshot (rawSection (propertyDataKind W) snapshotPropertyVersion 0
      encoded.data).pending) :
    propertyPayloads W snapshot = .ok (encoded.descriptors, encoded.data) := by
  obtain ⟨foundDescriptors, sameDescriptors, plannedDescriptors⟩ := findSection_eq_ok descriptors
  obtain ⟨foundData, sameData, plannedData⟩ := findSection_eq_ok data
  have descriptorBytes : foundDescriptors.payload = encoded.descriptors := by
    rw [pending_rawSection] at plannedDescriptors
    exact congrArg PendingSection.payload plannedDescriptors
  have dataBytes : foundData.payload = encoded.data := by
    rw [pending_rawSection] at plannedData
    exact congrArg PendingSection.payload plannedData
  refine bind_eq_ok.mpr ⟨_, sameDescriptors, bind_eq_ok.mpr ⟨_, sameData, ?_⟩⟩
  refine seq_eq_ok.mpr ⟨checkVersion_eq_ok plannedDescriptors rfl, ?_⟩
  refine seq_eq_ok.mpr ⟨checkVersion_eq_ok plannedData rfl, ?_⟩
  rw [descriptorBytes, dataBytes]
  rfl

/-- A topology and its property sections are streamed over their reservation, and reopen. -/
theorem reopened_properties {checksum : Checksum32} {topology : List StreamedSection}
    {modes : List IdentityModeSummary} {mapKind : UInt32} {map : List W}
    {encoded : EncodedPropertySnapshot}
    (folds : ∀ streamed ∈ topology, streamed.Folds checksum)
    (unaligned : ∀ streamed ∈ topology, streamed.alignmentLog2 = 0)
    (ascending : ((topology ++ propertyStreams modes mapKind map W encoded).map
      StreamedSection.kind).IsChain (· < ·))
    (few : topology.length + 4 ≤ maxSectionCount)
    (small : tableEnd (topology.length + 4) +
      (topology.map fun streamed => streamed.pending.payload.length).sum +
      modes.length * FixedLayout.size (IdentityModeRecord W) + (arrayBytes map).length +
      (encoded.descriptors.length + encoded.data.length) < usizeBound) :
    ∃ bytes snapshot,
      streamSnapshot checksum (topology.length + 4)
        (topology ++ propertyStreams modes mapKind map W encoded) = .ok bytes ∧
      Container.Snapshot.openBytes bytes = .ok snapshot ∧
      Container.Snapshot.openChecked bytes checksum = .ok snapshot ∧
      (∀ streamed ∈ topology, Located snapshot streamed.pending) ∧
      ∀ streamed ∈ propertyStreams modes mapKind map W encoded,
        Located snapshot streamed.pending := by
  have allFold : ∀ streamed ∈ topology ++ propertyStreams modes mapKind map W encoded,
      streamed.Folds checksum := by
    refine List.forall_mem_append.mpr ⟨folds, ?_⟩
    simp [propertyStreams, folds_rawSection, folds_wordSection]
  have allUnaligned : ∀ streamed ∈ topology ++ propertyStreams modes mapKind map W encoded,
      streamed.alignmentLog2 = 0 := by
    refine List.forall_mem_append.mpr ⟨unaligned, ?_⟩
    simp [propertyStreams, rawSection, wordSection]
  have length : (topology ++ propertyStreams modes mapKind map W encoded).length =
      topology.length + 4 := List.length_append
  have counted : tableEnd (topology ++ propertyStreams modes mapKind map W encoded).length +
      ((topology ++ propertyStreams modes mapKind map W encoded).map fun streamed =>
        streamed.pending.payload.length).sum < usizeBound := by
    rw [length, List.map_append, List.sum_append]
    simp only [propertyStreams, List.map_cons, List.map_nil, List.sum_cons, List.sum_nil,
      pending_rawSection, payload_wordSection, length_arrayBytes (List.map _ modes),
      List.length_map]
    omega
  obtain ⟨bytes, streamed⟩ := streamSnapshot_unaligned allFold allUnaligned ascending
    (length ▸ few) counted
  obtain ⟨snapshot, opened, checked, holds⟩ := reopened_of_stream allFold streamed
  rw [length] at streamed
  exact ⟨bytes, snapshot, streamed, opened, checked,
    fun streamed member => holds streamed (List.mem_append_left _ member),
    fun streamed member => holds streamed (List.mem_append_right _ member)⟩

end

-- Layers as they are stored.

section

variable {Id W T U : Type} [DecidableEq T] [PropertyIndex W] [LayerId Id W] {ipc : ArrowIpc T U}

/-- A stored layer holds at each local position what its source holds at the canonical ID there. -/
structure StoredAs (any : AnyLayer Id T U) (one : Placed Id T U) : Prop where
  descriptor : any.layer.descriptor = one.source.layer.descriptor
  len : any.layer.len = one.numbering.length
  value : ∀ position canonical, one.numbering[position]? = some canonical →
    any.layer.value position = one.source.layer.value canonical

/-- Layers that are as long as their family are long enough. -/
theorem validateLayerLengths_eq_ok {I : Type} [PropertyIndex I]
    {layers : List (PropertyLayer Id I T U)} {idFamily : IdFamily} {required : Nat}
    (whole : ∀ layer ∈ layers, layer.len = required) :
    validateLayerLengths layers idFamily required = .ok () := by
  refine forM_eq_ok.mpr fun layer member => if_neg ?_
  rw [whole layer member]
  exact Nat.lt_irrefl required

/-- Layers that keep the canonical order are stored as they are. -/
theorem storedAs_range {I : Type} [PropertyIndex I] (idFamily : IdFamily) {length : Nat}
    {layers : List (PropertyLayer Id I T U)} (whole : ∀ layer ∈ layers, layer.len = length) :
    List.Forall₂ StoredAs (layers.map PropertyLayer.any)
      (layers.map fun layer => ⟨idFamily, List.range length, layer.any⟩) := by
  rw [List.forall₂_map_left_iff, List.forall₂_map_right_iff, List.forall₂_same]
  refine fun layer member => ⟨rfl, ?_, fun position canonical listed => ?_⟩
  · rw [List.length_range]
    exact whole layer member
  · -- A range lists each position at itself.
    obtain ⟨_, rfl⟩ := List.getElem?_eq_some_iff.mp listed
    rw [List.getElem_range]

/-- Layers are stored in every order of their indexes. -/
theorem storedAs_order {I : Type} [PropertyIndex I] {arrow : ArrowSelect T U}
    (selects : arrow.Positional) {order : List I} (fits : order.length < LayoutIndex.bound I)
    (permutes : (order.map Layout.toNat).Perm (List.range order.length)) (idFamily : IdFamily)
    {layers : List (PropertyLayer Id I T U)} (whole : ∀ layer ∈ layers, layer.len = order.length)
    (invertible : ∀ layer ∈ layers, layer.Invertible) :
    ∃ rekeyed, (layers.mapM fun layer => rekeyLayerToLocal arrow layer order) = pure rekeyed ∧
      List.Forall₂ StoredAs (rekeyed.map PropertyLayer.any)
        (layers.map fun layer => ⟨idFamily, order.map Layout.toNat, layer.any⟩) := by
  induction layers with
  | nil => exact ⟨[], rfl, .nil⟩
  | cons layer rest ih =>
    obtain ⟨own, others⟩ := List.forall_mem_cons.mp whole
    obtain ⟨roomy, roomyOthers⟩ := List.forall_mem_cons.mp invertible
    obtain ⟨rekeyed, ran, stored⟩ := ih others roomyOthers
    obtain ⟨first, one, remaps⟩ := rekey_order selects fits roomy (own ▸ permutes)
    refine ⟨first :: rekeyed, ?_, .cons ⟨remaps.descriptor, ?_, remaps.value⟩ stored⟩
    · rw [List.mapM_cons, Fallible.bind_of_pure one, Fallible.bind_of_pure ran]
    · rw [List.length_map]
      exact remaps.len

/-- A decoded layer stands for the values of the layer that was stored. -/
theorem AnyLayer.value_decoded (any : AnyLayer Id T U) :
    (any.decoded W).value = any.layer.value := by
  funext position
  unfold DecodedPropertyLayer.value PropertyLayer.value AnyLayer.decoded AnyLayer.columns
  dsimp only
  cases any.layer.data with
  | dense values => rfl
  | sparse indices values default =>
    dsimp only
    rw [PropertyIndex.indexes_intoArray]
    rfl

/-- What is decoded of a stored layer is aligned with the source. -/
theorem StoredAs.aligned {any : AnyLayer Id T U} {one : Placed Id T U} (stored : StoredAs any one)
    (family : one.source.layer.descriptor.idFamily = one.idFamily) :
    (any.decoded W).Aligned W one where
  layerId := congrArg (fun descriptor => LayerId.intoU64 W descriptor.layerId) stored.descriptor
  name := congrArg (fun descriptor => descriptor.name.value) stored.descriptor
  idFamily := (congrArg PropertyLayerDescriptor.idFamily stored.descriptor).trans family
  role := congrArg PropertyLayerDescriptor.role stored.descriptor
  storage := congrArg PropertyLayerDescriptor.storage stored.descriptor
  logicalLen := stored.len
  value position canonical listed := by
    rw [AnyLayer.value_decoded]
    exact stored.value position canonical listed

/-- The two sections of layers are as long as their parts. -/
theorem length_encodedLayers (layers : List (AnyLayer Id T U)) :
    (encodedLayers W ipc layers).descriptors.length + (encodedLayers W ipc layers).data.length =
      sectionsLen W ipc layers := by
  unfold encodedLayers sectionsLen
  rw [List.length_append, List.length_append, FixedLayout.length_asBytes, length_arrayBytes,
    length_laidRecords, List.length_flatMap, List.length_flatMap]
  simp only [AnyLayer.nameBytes, AnyLayer.length_streams]

variable {layers : List (AnyLayer Id T U)} {placed : List (Placed Id T U)}

omit [PropertyIndex W] [LayerId Id W] in
/-- Stored layers have the descriptors of their sources, and the lengths of their families. -/
theorem map_stored (stored : List.Forall₂ StoredAs layers placed) :
    (layers.map fun any => any.layer.descriptor) =
        (placed.map fun one => one.source.layer.descriptor) ∧
      (layers.map fun any => any.layer.len).sum = totalLogicalLen placed := by
  unfold totalLogicalLen
  induction stored with
  | nil => exact ⟨rfl, rfl⟩
  | cons own _ ih => simp only [List.map_cons, List.sum_cons, own.descriptor, own.len, ih, and_self]

/-- Layers that are stored for sources of different IDs and names have different ones. -/
theorem Exportable.distinct (exportable : Exportable W placed)
    (stored : List.Forall₂ StoredAs layers placed) :
    (layers.map AnyLayer.named).Nodup ∧ (layers.map fun any => any.id W).Nodup := by
  have same := (map_stored stored).1
  have names := congrArg (List.map fun descriptor : PropertyLayerDescriptor Id T =>
    (descriptor.idFamily, descriptor.name.value)) same
  have ids := congrArg (List.map fun descriptor : PropertyLayerDescriptor Id T =>
    LayerId.intoU64 W descriptor.layerId) same
  rw [List.map_map, List.map_map] at names ids
  exact ⟨names ▸ exportable.names, ids ▸ exportable.ids⟩

/-- Layers that the width holds are encoded. -/
theorem Exportable.encodes (inverse : ipc.Inverse) (exportable : Exportable W placed)
    (stored : List.Forall₂ StoredAs layers placed) {others : Nat}
    (representable : Representable W ipc others layers) :
    encodeLayers W ipc layers = .ok (encodedLayers W ipc layers) := by
  obtain ⟨names, ids⟩ := exportable.distinct stored
  have addressed := representable.addressed
  unfold sectionsLen at addressed
  exact encodeLayers_eq_ok inverse names ids representable.fits (by omega)

/-- What is decoded of stored layers is aligned with their sources. -/
theorem aligned_stored (stored : List.Forall₂ StoredAs layers placed)
    (families : ∀ one ∈ placed, one.source.layer.descriptor.idFamily = one.idFamily) :
    List.Forall₂ (DecodedPropertyLayer.Aligned W) (layers.map fun any => any.decoded W) placed := by
  induction stored with
  | nil => exact .nil
  | cons own _ ih =>
    obtain ⟨family, others⟩ := List.forall_mem_cons.mp families
    exact .cons (own.aligned family) (ih others)

/-- A snapshot with the sections of stored layers keeps these layers, and has the explicit map. -/
theorem Exportable.keepsLayers (inverse : ipc.Inverse) (exportable : Exportable W placed)
    (stored : List.Forall₂ StoredAs layers placed) {others : Nat}
    (representable : Representable W ipc others layers) {snapshot : Container.Snapshot}
    {modes : List IdentityModeSummary} {mapKind : UInt32} {map : List W}
    (families : (modes.map IdentityModeSummary.idFamily).Nodup)
    (fits : ∀ mode ∈ modes, mode.localLen < LayoutIndex.bound W)
    (mapped : ∀ mode ∈ modes, mode.mode = .explicitMap →
      mapKind = identityMapKind W mode.idFamily ∧ map.length = mode.localLen)
    (located : ∀ streamed ∈ propertyStreams modes mapKind map W (encodedLayers W ipc layers),
      Located snapshot streamed.pending) :
    typedWords W snapshot mapKind snapshotPropertyVersion = .ok map ∧
      KeepsLayers W ipc snapshot modes placed := by
  unfold propertyStreams at located
  simp only [List.forall_mem_cons, List.not_mem_nil, false_implies, implies_true, and_true] at located
  obtain ⟨descriptors, data, records, entries⟩ := located
  have bound : typedWords W snapshot mapKind snapshotPropertyVersion = .ok map := by
    obtain ⟨found, same, planned⟩ := entries
    exact typedWords_eq_ok same planned
  have identity : validateIdentitySnapshot W snapshot = .ok ⟨modes⟩ := by
    refine validateIdentitySnapshot_eq_ok families fits (fun mode member explicit => ?_) records
    obtain ⟨rfl, length⟩ := mapped mode member explicit
    exact ⟨_, length, entries⟩
  have payloads := propertyPayloads_eq_ok descriptors data
  obtain ⟨names, ids⟩ := exportable.distinct stored
  have addressed := representable.addressed
  rw [← length_encodedLayers] at addressed
  obtain ⟨validates, decodes⟩ := readLayers_eq inverse names ids representable.fits
    (by omega) (by omega)
  rw [(map_stored stored).2] at validates decodes
  -- Both readers go on with the payloads of the two sections.
  have read {A : Type} (next : Bytes × Bytes → Fallible PropertyError A) :
      (Fallible.ofResult (propertyPayloads W snapshot) >>= next) =
        next ((encodedLayers W ipc layers).descriptors, (encodedLayers W ipc layers).data) :=
    Fallible.bind_of_pure (Fallible.ofResult_eq_pure.mpr payloads)
  refine ⟨bound, identity, ?_, fun counted => ?_⟩
  · unfold validatePropertySnapshot
    rw [read]
    dsimp only
    rw [validates]
    split_ifs with counted
    · exact iff_of_true ⟨_, rfl⟩ counted
    · exact iff_of_false (fun ⟨_, returned⟩ => Fallible.throw_ne_pure returned) counted
  · refine ⟨_, ?_, aligned_stored stored exportable.family⟩
    unfold DecodedPropertyLayer.decodeAll
    rw [read]
    dsimp only
    rw [decodes, if_pos counted]

end

end Oxgraph.Property
