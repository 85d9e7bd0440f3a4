import Oxgraph.Lib.Utf8
import Oxgraph.Proofs.Property.RoundTrip

/-! Any bytes are read without a panic, and those that are accepted store layers. -/

namespace Oxgraph.Property

open Layout Fallible

variable {W T V : Type} [DecidableEq T] [PropertyIndex W] {ipc : ArrowIpc T V}

-- Words and tags.

/-- A word is read as a tag only when it carries the tag. -/
theorem toNat_of_leWordToU32 {word : W} {tag : UInt32} (read : leWordToU32 word = .ok tag) :
    Layout.toNat word = tag.toNat := by
  unfold leWordToU32 at read
  cases carried : (fromUsize (leWordToU64 word).toNat : Option UInt32) with
  | none =>
    rw [carried] at read
    cases read
  | some other =>
    rw [carried] at read
    cases read
    rw [← toNat_leWordToU64]
    exact (fromUsize_eq_some.mp carried).symm

theorem eq_idFamilyTag {tag : UInt32} {idFamily : IdFamily}
    (read : idFamilyFromTag tag = .ok idFamily) : tag = idFamilyTag idFamily := by
  unfold idFamilyFromTag at read
  split_ifs at read <;> cases read <;> assumption

theorem eq_layerRoleTag {tag : UInt32} {role : LayerRole} (read : layerRoleFromTag tag = .ok role) :
    tag = layerRoleTag role := by
  unfold layerRoleFromTag at read
  split_ifs at read <;> cases read <;> assumption

theorem eq_storageTags {storageWord missingWord : UInt32} {storage : StorageMode}
    (read : storageFromTags storageWord missingWord = .ok storage) :
    storageWord = storageTag storage ∧ missingWord = missingPolicyTag storage := by
  unfold storageFromTags at read
  split_ifs at read <;> cases read <;> assumption

/-- A checked range lies inside what is available. -/
theorem checkedEnd_eq_ok {offset len available stop : Nat} :
    checkedEnd offset len available = .ok stop ↔
      offset + len = stop ∧ stop < usizeBound ∧ stop ≤ available := by
  unfold checkedEnd
  cases added : checkedAdd offset len with
  | none =>
    refine ⟨fun never => (by cases never), ?_⟩
    rintro ⟨rfl, fits, _⟩
    rw [checkedAdd_eq_some.mpr ⟨rfl, fits⟩] at added
    cases added
  | some sum =>
    obtain ⟨rfl, fits⟩ := checkedAdd_eq_some.mp added
    dsimp only
    split_ifs with outside
    · refine ⟨fun never => (by cases never), ?_⟩
      rintro ⟨rfl, _, inside⟩
      omega
    · constructor
      · rintro ⟨⟩
        exact ⟨rfl, fits, Nat.not_lt.mp outside⟩
      · rintro ⟨rfl, _⟩
        rfl

-- Strings and streams.

variable {offset len : Nat}

/-- A string is read off the bytes that spell it. -/
theorem gives_readSnapshotStr {bytes : Bytes} :
    (readSnapshotStr bytes offset len).Gives fun string =>
      offset + len < usizeBound ∧ offset + len ≤ bytes.length ∧
        (bytes.drop offset).take len = utf8Bytes string := by
  unfold readSnapshotStr
  refine (gives_ofResult fun stop => checkedEnd_eq_ok.mp).bind fun stop _ ranges => ?_
  obtain ⟨rfl, fits, inside⟩ := ranges
  have slice : sliceOf bytes offset (offset + len) = some ((bytes.drop offset).take len) := by
    rw [sliceOf, if_pos ⟨Nat.le_add_right _ _, inside⟩, Nat.add_sub_cancel_left]
  refine (gives_orPanic slice rfl).bind fun spelled _ same => ?_
  cases read : fromUtf8 spelled with
  | none => exact gives_throw
  | some string => exact gives_pure ⟨fits, inside, same ▸ fromUtf8_eq_some.mp read⟩

omit [DecidableEq T] in
/-- A batch is read off a stream that lies inside the data. -/
theorem gives_readStream {data : Bytes} :
    (readStream ipc data offset len).Gives fun read =>
      read.1 = offset + len ∧ StreamAt ipc data offset len read.2 := by
  unfold readStream
  refine (gives_ofResult fun stop => checkedEnd_eq_ok.mp).bind fun stop _ ranges => ?_
  obtain ⟨rfl, fits, inside⟩ := ranges
  have slice : sliceOf data offset (offset + len) = some ((data.drop offset).take len) := by
    rw [sliceOf, if_pos ⟨Nat.le_add_right _ _, inside⟩, Nat.add_sub_cancel_left]
  refine (gives_orPanic slice rfl).bind fun stream _ same => ?_
  refine (gives_ofResult fun batch read => read).bind fun batch _ read => ?_
  exact gives_pure ⟨rfl, fits, inside, same ▸ read⟩

omit [DecidableEq T] in
/-- A default batch is read where the record has a default stream. -/
theorem gives_readDefault {data : Bytes} :
    (readDefault ipc data offset len).Gives (DefaultAt ipc data offset len) := by
  unfold readDefault
  split_ifs with none
  · exact gives_pure none
  · exact gives_readStream.bind fun read _ stream => gives_pure ⟨none, stream.2⟩

-- Batches.

omit [DecidableEq T] in
/-- An index column passes only when its indexes ascend below the length. -/
theorem ascending_of_indexColumn {indices : ArrowArray T V} {len : Nat}
    (valid : validateSparseIndexColumn indices len = .ok ()) :
    ∃ indexes, indices.indexes = some indexes ∧ indexes.Pairwise (· < ·) ∧
      ∀ index ∈ indexes, index < len := by
  cases indices with
  | uint16 array => exact ⟨_, rfl, validateSparseIndices_eq_ok.mp valid⟩
  | uint32 array => exact ⟨_, rfl, validateSparseIndices_eq_ok.mp valid⟩
  | uint64 array => exact ⟨_, rfl, validateSparseIndices_eq_ok.mp valid⟩
  | other type slots => cases valid

/-- A default column is compared without a panic, and matches only as one value of the type. -/
theorem exists_notMatchingScalar (default values : ArrowArray T V) :
    ∃ mismatched, notMatchingScalar default values = some mismatched ∧
      (mismatched = false → default.len = 1 ∧ default.dataType = values.dataType ∧
        default.isNull 0 = some false) := by
  unfold notMatchingScalar
  split_ifs with different
  · exact ⟨true, rfl, fun never => Bool.noConfusion never⟩
  · have alike := not_or.mp different
    have one := not_not.mp alike.1
    have first : 0 < default.nulls.length := by
      rw [ArrowArray.len] at one
      omega
    refine ⟨default.nulls[0], List.getElem?_eq_getElem first, fun present => ?_⟩
    exact ⟨one, not_not.mp alike.2, present ▸ List.getElem?_eq_getElem first⟩

/-- A default batch passes only when it fits the policy. -/
theorem gives_validateDefaultBatch {missing : MissingPolicy} {values : ArrowArray T V}
    {defaultBatch : Option (RecordBatch T V)} :
    (validateDefaultBatch missing values defaultBatch).Gives fun _ =>
      ∃ default : Option (ArrowArray T V), defaultBatch = default.map (fun array => ⟨[array]⟩) ∧
        DefaultFits values missing default := by
  cases missing with
  | null =>
    cases defaultBatch with
    | none => exact gives_pure ⟨none, rfl, rfl⟩
    | some batch => exact gives_throw
  | default =>
    cases defaultBatch with
    | none => exact gives_throw
    | some batch =>
      obtain ⟨columns⟩ := batch
      unfold validateDefaultBatch
      dsimp only
      split_ifs with several
      · exact gives_throw
      · obtain ⟨array, rfl⟩ := List.length_eq_one_iff.mp (not_not.mp several)
        obtain ⟨mismatched, compared, fits⟩ := exists_notMatchingScalar array values
        refine (gives_orPanic rfl rfl).bind fun _ _ same => ?_
        cases same
        refine (gives_orPanic compared rfl).bind fun _ _ same => ?_
        cases same
        cases mismatched with
        | true => exact gives_throw
        | false => exact gives_pure ⟨some array, rfl, array, rfl, fits rfl⟩

variable {record : PropertySnapshotRecord W} {storage : StorageMode} {data : Bytes}
  {valueBatch : RecordBatch T V} {defaultBatch : Option (RecordBatch T V)}

omit [DecidableEq T] in
/-- A dense batch passes only as one column of the length. -/
theorem gives_validateDenseBatch :
    (validateDenseBatch record valueBatch).Gives fun _ => ∃ columns,
      Holds (Layout.toNat record.logicalLen) (Layout.toNat record.valueCount) .dense valueBatch none
        columns := by
  obtain ⟨columns⟩ := valueBatch
  unfold validateDenseBatch
  dsimp only
  split_ifs with several
  · exact gives_throw
  · obtain ⟨values, rfl⟩ := List.length_eq_one_iff.mp (not_not.mp several)
    rw [leWordToUsize_eq, leWordToUsize_eq]
    refine (gives_orPanic rfl rfl).bind fun _ _ same => ?_
    cases same
    simp only [ofResult_ok, pure_bind]
    split_ifs with different
    · exact gives_throw
    · have alike := not_or.mp different
      refine gives_ofResult fun _ _ => ⟨_, .dense (not_not.mp alike.1) (not_not.mp alike.2)⟩

/-- A sparse batch passes only as indexes that ascend, with as many values, under a default. -/
theorem gives_validateSparseBatch {missing : MissingPolicy} :
    (validateSparseBatch record missing valueBatch defaultBatch).Gives fun _ => ∃ columns,
      Holds (Layout.toNat record.logicalLen) (Layout.toNat record.valueCount) (.sparse missing)
        valueBatch defaultBatch columns := by
  obtain ⟨columns⟩ := valueBatch
  unfold validateSparseBatch
  dsimp only
  split_ifs with several
  · exact gives_throw
  · obtain ⟨indices, values, rfl⟩ := List.length_eq_two.mp (not_not.mp several)
    rw [leWordToUsize_eq, leWordToUsize_eq]
    refine (gives_orPanic rfl rfl).bind fun _ _ same => ?_
    cases same
    refine (gives_orPanic rfl rfl).bind fun _ _ same => ?_
    cases same
    simp only [validateValueColumn_eq_ok, ofResult_ok, pure_bind]
    split_ifs with different
    · exact gives_throw
    · have alike := not_or.mp different
      have count := not_not.mp alike.1
      refine (gives_ofResult fun _ valid => ascending_of_indexColumn valid).bind
        fun _ _ ascending => ?_
      refine gives_validateDefaultBatch.imp ?_
      rintro _ ⟨default, rfl, policy⟩
      exact ⟨_, .sparse ⟨ascending, (not_not.mp alike.2).trans count.symm, policy⟩ count⟩

/-- Batches pass only when they hold columns under the storage mode. -/
theorem gives_validateBatches (stored : DefaultAt ipc data (Layout.toNat record.defaultDataOffset)
    (Layout.toNat record.defaultDataLen) defaultBatch) :
    (validateBatches record storage (Layout.toNat record.defaultDataLen) valueBatch
      defaultBatch).Gives fun _ => ∃ columns,
        Holds (Layout.toNat record.logicalLen) (Layout.toNat record.valueCount) storage valueBatch
          defaultBatch columns := by
  unfold validateBatches
  cases storage with
  | dense =>
    dsimp only
    split_ifs with declared
    · exact gives_throw
    · cases defaultBatch with
      | none => exact gives_validateDenseBatch
      | some batch => exact absurd (not_not.mp declared) stored.1
  | sparse missing => exact gives_validateSparseBatch

-- Records.

/-- The data of a record passes only when it holds columns, and has the ranges of the record. -/
theorem gives_validateData :
    (validatePropertyRecordData ipc record storage data).Gives fun ranges =>
      ranges = record.ranges ∧ Layout.toNat record.reserved = 0 ∧
        ∃ valueBatch defaultBatch columns,
          StreamAt ipc data (Layout.toNat record.valueDataOffset)
            (Layout.toNat record.valueDataLen) valueBatch ∧
          DefaultAt ipc data (Layout.toNat record.defaultDataOffset)
            (Layout.toNat record.defaultDataLen) defaultBatch ∧
          Holds (Layout.toNat record.logicalLen) (Layout.toNat record.valueCount) storage
            valueBatch defaultBatch columns := by
  unfold validatePropertyRecordData
  split_ifs with reserved
  · exact gives_throw
  · have zero : Layout.toNat record.reserved = 0 := by
      rw [← toNat_leWordToU64, not_not.mp reserved]
      rfl
    simp only [leWordToUsize_eq, ofResult_ok, pure_bind]
    refine gives_readStream.bind fun value _ stream => ?_
    obtain ⟨stop, valueBatch⟩ := value
    obtain ⟨rfl, stream⟩ := stream
    refine gives_readDefault.bind fun defaultBatch _ stored => ?_
    refine (gives_validateBatches stored).bind fun _ _ holds => ?_
    obtain ⟨columns, holds⟩ := holds
    exact gives_pure ⟨rfl, zero, valueBatch, defaultBatch, columns, stream, stored, holds⟩

/-- A record passes only when it stores a layer of a new name and a new ID. -/
theorem gives_validateRecord {before after : List (PropertySnapshotRecord W)} {strings : Bytes}
    (counted : (arrayBytes (before ++ record :: after)).length < usizeBound) {seen : Validation} :
    (validateRecord W ipc (arrayBytes (before ++ record :: after)) strings data seen
      before.length).Gives fun next => ∃ layer : DecodedPropertyLayer T V,
        record.Stores ipc strings data layer ∧ (layer.idFamily, layer.name) ∉ seen.names ∧
          layer.layerId ∉ seen.ids ∧ next = seen.withRecord record layer ∧
          next.totalLogicalValues < usizeBound := by
  unfold validateRecord
  rw [(recordAt_eq counted).1, pure_bind]
  refine (gives_ofResult fun idFamily read => bind_eq_ok.mp read).bind fun idFamily _ family => ?_
  refine (gives_ofResult fun role read => bind_eq_ok.mp read).bind fun role _ roles => ?_
  refine (gives_ofResult fun word => toNat_of_leWordToU32).bind fun storageWord _ stored => ?_
  refine (gives_ofResult fun word => toNat_of_leWordToU32).bind fun missingWord _ missing => ?_
  refine (gives_ofResult fun storage => eq_storageTags).bind fun storage _ tags => ?_
  simp only [leWordToUsize_eq, ofResult_ok, pure_bind]
  refine gives_readSnapshotStr.bind fun name _ named => ?_
  split_ifs with known taken
  · exact gives_throw
  · exact (gives_ofResult fun _ _ => trivial).bind fun _ _ _ => gives_throw
  · rw [Std.ExtTreeSet.contains_iff_mem] at known taken
    refine gives_validateData.bind fun ranges _ checked => ?_
    obtain ⟨rfl, reserved, valueBatch, defaultBatch, columns, value, default, holds⟩ := checked
    cases summed : checkedAdd seen.totalLogicalValues (Layout.toNat record.logicalLen) with
    | none => exact gives_throw
    | some total =>
      obtain ⟨rfl, fits⟩ := checkedAdd_eq_some.mp summed
      obtain ⟨_, familyTagged, idFamilyTagged⟩ := family
      obtain ⟨_, roleTagged, layerRoleTagged⟩ := roles
      refine gives_pure ⟨{
        layerId := leWordToU64 record.layerId
        name, idFamily, role, storage
        logicalLen := Layout.toNat record.logicalLen
        data := columns }, ?_, taken, known, rfl, fits⟩
      exact {
        layerId := (toNat_leWordToU64 _).symm
        idFamily := eq_idFamilyTag idFamilyTagged ▸ toNat_of_leWordToU32 familyTagged
        role := eq_layerRoleTag layerRoleTagged ▸ toNat_of_leWordToU32 roleTagged
        storage := tags.1 ▸ stored
        missingPolicy := tags.2 ▸ missing
        nameAddressed := named.1
        nameInside := named.2.1
        name := named.2.2
        logicalLen := rfl
        reserved
        columns := ⟨valueBatch, defaultBatch, value, default, holds⟩ }

/-- Records pass only when they store layers of new names and new IDs. -/
theorem gives_validateRecords {before rest : List (PropertySnapshotRecord W)} {strings : Bytes}
    (counted : (arrayBytes (before ++ rest)).length < usizeBound) {seen : Validation}
    (summed : seen.totalLogicalValues < usizeBound) :
    ((List.range' before.length rest.length).foldlM
      (validateRecord W ipc (arrayBytes (before ++ rest)) strings data) seen).Gives fun last =>
        ∃ layers : List (DecodedPropertyLayer T V),
          List.Forall₂ (fun record => record.Stores ipc strings data) rest layers ∧
          (layers.map DecodedPropertyLayer.layerId).Nodup ∧
          (layers.map fun layer => (layer.idFamily, layer.name)).Nodup ∧
          (∀ layer ∈ layers, layer.layerId ∉ seen.ids ∧ (layer.idFamily, layer.name) ∉ seen.names) ∧
          last.ranges = seen.ranges ++ rest.flatMap PropertySnapshotRecord.ranges ∧
          last.totalLogicalValues =
            seen.totalLogicalValues + (layers.map DecodedPropertyLayer.logicalLen).sum ∧
          last.totalLogicalValues < usizeBound := by
  induction rest generalizing before seen with
  | nil =>
    exact gives_pure ⟨[], .nil, .nil, .nil, List.forall_mem_nil _, (List.append_nil _).symm, rfl,
      summed⟩
  | cons record rest ih =>
    rw [List.length_cons, List.range'_succ, List.foldlM_cons]
    refine (gives_validateRecord counted).bind fun next _ one => ?_
    obtain ⟨layer, stores, unnamed, fresh, rfl, fits⟩ := one
    have more := @ih (before ++ [record]) (by rwa [List.append_assoc, List.singleton_append])
      (seen.withRecord record layer) fits
    rw [List.append_assoc, List.singleton_append, List.length_append, List.length_singleton] at more
    refine more.imp ?_
    rintro last ⟨layers, stored, ids, names, apart, ranges, total, below⟩
    -- The other layers differ from this one, whose name and ID had been inserted.
    have differs (other) (member : other ∈ layers) : other.layerId ≠ layer.layerId ∧
        (other.idFamily, other.name) ≠ (layer.idFamily, layer.name) := by
      obtain ⟨newId, newName⟩ := apart other member
      exact ⟨fun same => newId (mem_insert_set.mpr (.inl same.symm)),
        fun same => newName (mem_insert_set.mpr (.inl same.symm))⟩
    refine ⟨layer :: layers, .cons stores stored, ?_, ?_, ?_, ?_, ?_, below⟩
    · rw [List.map_cons, List.nodup_cons]
      refine ⟨fun member => ?_, ids⟩
      obtain ⟨other, inside, same⟩ := List.mem_map.mp member
      exact (differs other inside).1 same
    · rw [List.map_cons, List.nodup_cons]
      refine ⟨fun member => ?_, names⟩
      obtain ⟨other, inside, same⟩ := List.mem_map.mp member
      exact (differs other inside).2 same
    · refine List.forall_mem_cons.mpr ⟨⟨fresh, unnamed⟩, fun other member => ?_⟩
      obtain ⟨newId, newName⟩ := apart other member
      exact ⟨fun old => newId (mem_insert_set.mpr (.inr old)),
        fun old => newName (mem_insert_set.mpr (.inr old))⟩
    · rw [ranges, List.flatMap_cons, ← List.append_assoc]
      rfl
    · rw [total, List.map_cons, List.sum_cons, ← Nat.add_assoc]
      rfl

-- Ranges.

variable {ranges : List (Nat × Nat)}

omit [DecidableEq T] [PropertyIndex W] in
/-- Ranges that follow on each other cover each position up to their end once. -/
theorem countP_of_coverFrom {cursor stop : Nat} (covers : coverFrom cursor ranges = .ok stop)
    (nonempty : ∀ range ∈ ranges, range.1 < range.2) :
    cursor ≤ stop ∧ (∀ range ∈ ranges, range.2 ≤ stop) ∧ ∀ position,
      ranges.countP (fun range => decide (range.1 ≤ position ∧ position < range.2)) =
        if cursor ≤ position ∧ position < stop then 1 else 0 := by
  induction ranges generalizing cursor with
  | nil =>
    cases covers
    refine ⟨le_rfl, List.forall_mem_nil _, fun position => ?_⟩
    rw [if_neg (by omega), List.countP_nil]
  | cons range rest ih =>
    obtain ⟨own, others⟩ := List.forall_mem_cons.mp nonempty
    rw [coverFrom] at covers
    split_ifs at covers with apart
    · have starts := not_not.mp apart
      obtain ⟨further, inside, once⟩ := ih covers others
      refine ⟨by omega, List.forall_mem_cons.mpr ⟨further, inside⟩, fun position => ?_⟩
      rw [List.countP_cons, once position]
      -- A position is covered by this range, or by the ranges behind it.
      simp only [decide_eq_true_eq]
      split_ifs <;> omega

omit [DecidableEq T] [PropertyIndex W] in
/-- Ranges in order that cover each position once follow on each other. -/
theorem coverFrom_of_countP {cursor stop : Nat} (forward : cursor ≤ stop)
    (sorted : ranges.Pairwise fun left right => left.1 ≤ right.1)
    (later : ∀ range ∈ ranges, cursor ≤ range.1) (nonempty : ∀ range ∈ ranges, range.1 < range.2)
    (inside : ∀ range ∈ ranges, range.2 ≤ stop)
    (once : ∀ position, cursor ≤ position → position < stop →
      ranges.countP (fun range => decide (range.1 ≤ position ∧ position < range.2)) = 1) :
    coverFrom cursor ranges = .ok stop := by
  induction ranges generalizing cursor with
  | nil =>
    rcases Nat.eq_or_lt_of_le forward with rfl | before
    · rfl
    · exact absurd (once cursor le_rfl before) (by simp)
  | cons range rest ih =>
    obtain ⟨first, ordered⟩ := List.pairwise_cons.mp sorted
    obtain ⟨own, others⟩ := List.forall_mem_cons.mp nonempty
    obtain ⟨bounded, boundedOthers⟩ := List.forall_mem_cons.mp inside
    obtain ⟨from_cursor, _⟩ := List.forall_mem_cons.mp later
    -- The cursor is covered by some range, and this one starts no later.
    have covered := once cursor le_rfl (by omega)
    have positive : 0 < (range :: rest).countP
        fun range => decide (range.1 ≤ cursor ∧ cursor < range.2) := by omega
    obtain ⟨other, member, reaches⟩ := List.countP_pos_iff.mp positive
    have starts : range.1 = cursor := by
      have early := of_decide_eq_true reaches
      rcases List.mem_cons.mp member with rfl | behind
      · omega
      · have later := first other behind
        omega
    rw [coverFrom, if_neg (not_not.mpr starts)]
    refine ih (by omega) ordered (fun next member => ?_) others boundedOthers ?_
    · -- A range that started inside this one would cover its start a second time.
      by_contra inner
      have twice := once next.1 (by have := first next member; omega)
        (by have := others next member; have := boundedOthers next member; omega)
      rw [List.countP_cons, if_pos (decide_eq_true ⟨first next member, by omega⟩)] at twice
      have again : 0 < rest.countP fun range => decide (range.1 ≤ next.1 ∧ next.1 < range.2) :=
        List.countP_pos_iff.mpr ⟨next, member, decide_eq_true ⟨le_rfl, others next member⟩⟩
      omega
    · intro position above below
      have whole := once position (by omega) below
      rw [List.countP_cons, if_neg (by rw [decide_eq_true_eq]; omega)] at whole
      exact whole

omit [DecidableEq T] [PropertyIndex W] in
/-- Ranges that are not empty cover the data exactly when they tile it. -/
theorem validateDataCoverage_eq_ok_iff {length : Nat}
    (nonempty : ∀ range ∈ ranges, range.1 < range.2) :
    validateDataCoverage ranges length = .ok () ↔ Tiles ranges length := by
  have permuted := List.mergeSort_perm ranges fun left right => decide (left.1 ≤ right.1)
  have sorted : (ranges.mergeSort fun left right => decide (left.1 ≤ right.1)).Pairwise
      fun left right => decide (left.1 ≤ right.1) = true :=
    List.pairwise_mergeSort (fun _ _ _ first second => by simp only [decide_eq_true_eq] at *; omega)
      (fun _ _ => by simp only [Bool.or_eq_true, decide_eq_true_eq]; omega) ranges
  have forward : ∀ range ∈ ranges.mergeSort fun left right => decide (left.1 ≤ right.1),
      range.1 < range.2 := fun range member => nonempty range (permuted.mem_iff.mp member)
  unfold validateDataCoverage
  constructor
  · intro covered
    obtain ⟨stop, covers, ends⟩ := bind_eq_ok.mp covered
    split_ifs at ends with trailing
    obtain rfl := not_not.mp trailing
    obtain ⟨_, inside, once⟩ := countP_of_coverFrom covers forward
    refine ⟨nonempty, fun range member => inside range (permuted.mem_iff.mpr member), ?_⟩
    intro position below
    rw [← permuted.countP_eq, once, if_pos ⟨Nat.zero_le _, below⟩]
  · intro tiles
    have covers := coverFrom_of_countP (Nat.zero_le length)
      (sorted.imp fun ordered => of_decide_eq_true ordered) (fun _ _ => Nat.zero_le _) forward
      (fun range member => tiles.inside range (permuted.mem_iff.mp member))
      (fun position _ below => by rw [permuted.countP_eq]; exact tiles.once position below)
    rw [covers]
    exact if_neg (not_not.mpr rfl)

omit [DecidableEq T] in
/-- A record that stores a layer declares no empty range, when a stream has some bytes. -/
theorem nonempty_ranges (rejects : ipc.RejectsEmpty) {record : PropertySnapshotRecord W}
    {strings data : Bytes} {layer : DecodedPropertyLayer T V}
    (stores : record.Stores ipc strings data layer) :
    ∀ range ∈ record.ranges, range.1 < range.2 := by
  obtain ⟨message, rejected⟩ := rejects
  obtain ⟨valueBatch, _, value, _⟩ := stores.columns
  have some : Layout.toNat record.valueDataLen ≠ 0 := by
    intro empty
    have read := value.batch
    rw [empty, List.take_zero] at read
    unfold readOneIpcBatch at read
    rw [rejected] at read
    cases read
  unfold PropertySnapshotRecord.ranges
  dsimp only
  split_ifs with declared <;> simp <;> omega

variable {layers : List (DecodedPropertyLayer T V)}

omit [DecidableEq T] in
/-- Records that store layers declare no empty range. -/
theorem nonempty_storedRanges (rejects : ipc.RejectsEmpty)
    {records : List (PropertySnapshotRecord W)} {strings data : Bytes}
    (stored : List.Forall₂ (fun record => record.Stores ipc strings data) records layers) :
    ∀ range ∈ records.flatMap PropertySnapshotRecord.ranges, range.1 < range.2 := by
  intro range member
  obtain ⟨record, listed, declared⟩ := List.mem_flatMap.mp member
  obtain ⟨layer, _, stores⟩ := exists_of_forall₂ stored.flip listed
  exact nonempty_ranges rejects stores range declared

-- The two sections.

/-- A descriptor section behind its header splits only as the records and the names it stores. -/
theorem gives_splitDescriptors {descriptors : Bytes}
    (header : FixedLayout.size PropertySnapshotHeader ≤ descriptors.length) :
    (splitDescriptors W descriptors).Gives fun _ =>
      (storedHeader descriptors).recordBytes.toNat =
        (storedHeader descriptors).recordCount.toNat * FixedLayout.size (PropertySnapshotRecord W) ∧
      recordsEnd W descriptors < usizeBound ∧ recordsEnd W descriptors ≤ descriptors.length := by
  have front : asBytes (storedHeader descriptors) =
      descriptors.take (FixedLayout.size PropertySnapshotHeader) :=
    FixedLayout.asBytes_read descriptors header
  have parts : asBytes (storedHeader descriptors) =
      asBytes (storedHeader descriptors).recordCount ++
        asBytes (storedHeader descriptors).recordBytes := rfl
  have whole : descriptors = asBytes (storedHeader descriptors).recordCount ++
      asBytes (storedHeader descriptors).recordBytes ++
        descriptors.drop (FixedLayout.size PropertySnapshotHeader) := by
    rw [← parts, front, List.take_append_drop]
  have width : FixedLayout.size UInt64 = 8 := rfl
  -- The two words of the header are its count and its byte length.
  have count : sliceOf descriptors 0 8 = some (asBytes (storedHeader descriptors).recordCount) := by
    have middle := sliceOf_middle [] (asBytes (storedHeader descriptors).recordCount)
      (asBytes (storedHeader descriptors).recordBytes ++
        descriptors.drop (FixedLayout.size PropertySnapshotHeader))
    rwa [List.nil_append, ← List.append_assoc, ← whole, List.length_nil, Nat.zero_add,
      FixedLayout.length_asBytes, width] at middle
  have bytes : sliceOf descriptors 8 16 =
      some (asBytes (storedHeader descriptors).recordBytes) := by
    have middle := sliceOf_middle (asBytes (storedHeader descriptors).recordCount)
      (asBytes (storedHeader descriptors).recordBytes)
      (descriptors.drop (FixedLayout.size PropertySnapshotHeader))
    rwa [← whole, FixedLayout.length_asBytes, FixedLayout.length_asBytes, width] at middle
  have usize (word : UInt64) : u64ToUsize word = .ok word.toNat := if_pos word.toNat_lt
  unfold splitDescriptors
  simp only [bind_of_pure (orPanic_eq_pure.mpr count), bind_of_pure (orPanic_eq_pure.mpr bytes),
    readU64Le_eq, usize, ofResult_ok, pure_bind]
  -- The checks from here on are those the statement lists; a failed one throws.
  cases product : checkedMul (storedHeader descriptors).recordCount.toNat
      (FixedLayout.size (PropertySnapshotRecord W)) with
  | none => exact gives_throw
  | some expected =>
    have same : expected = (storedHeader descriptors).recordCount.toNat *
        FixedLayout.size (PropertySnapshotRecord W) := by
      unfold checkedMul at product
      split_ifs at product
      exact (Option.some.inj product).symm
    subst same
    dsimp only
    split_ifs with different
    · exact gives_throw
    · have stored := not_not.mp different
      rw [stored]
      cases ends : checkedAdd (FixedLayout.size PropertySnapshotHeader)
          ((storedHeader descriptors).recordCount.toNat *
            FixedLayout.size (PropertySnapshotRecord W)) with
      | none => exact gives_throw
      | some stop =>
        obtain ⟨rfl, addressed⟩ := checkedAdd_eq_some.mp ends
        dsimp only
        split_ifs with truncated
        · exact gives_throw
        · have inside := Nat.not_lt.mp truncated
          refine (gives_orPanic (if_pos ⟨Nat.le_add_right _ _, inside⟩) rfl).bind fun _ _ _ => ?_
          refine (gives_orPanic (if_pos ⟨inside, le_rfl⟩) rfl).bind fun _ _ _ => ?_
          exact gives_pure ⟨rfl, addressed, inside⟩

omit [DecidableEq T] in
/-- A descriptor section is its header, the records it stores, and the names. -/
theorem descriptors_whole {descriptors : Bytes}
    (header : FixedLayout.size PropertySnapshotHeader ≤ descriptors.length)
    (recordBytes : (storedHeader descriptors).recordBytes.toNat =
      (storedHeader descriptors).recordCount.toNat * FixedLayout.size (PropertySnapshotRecord W))
    (inside : recordsEnd W descriptors ≤ descriptors.length) :
    descriptors = asBytes (headerOf W (storedRecords W descriptors).length) ++
      arrayBytes (storedRecords W descriptors) ++ descriptors.drop (recordsEnd W descriptors) := by
  have front : asBytes (storedHeader descriptors) =
      descriptors.take (FixedLayout.size PropertySnapshotHeader) :=
    FixedLayout.asBytes_read descriptors header
  have same : headerOf W (storedRecords W descriptors).length = storedHeader descriptors := by
    unfold headerOf storedRecords
    rw [length_readArray, ← recordBytes, UInt64.ofNat_toNat, UInt64.ofNat_toNat]
  unfold recordsEnd at inside
  have records : arrayBytes (storedRecords W descriptors) =
      (descriptors.drop (FixedLayout.size PropertySnapshotHeader)).take
        ((storedHeader descriptors).recordCount.toNat *
          FixedLayout.size (PropertySnapshotRecord W)) :=
    arrayBytes_readArray _ _ (by rw [List.length_drop]; omega)
  rw [same, front, records, List.append_assoc, recordsEnd, ← List.drop_drop,
    List.take_append_drop, List.take_append_drop]

variable {descriptors data : Bytes}

/-- Sections are validated without a panic, and only when they store layers. -/
theorem gives_validatePropertySections (rejects : ipc.RejectsEmpty) :
    (validatePropertySections W ipc descriptors data).Gives fun _ =>
      ∃ layers, StoresLayers W ipc descriptors data layers := by
  unfold validatePropertySections
  split_ifs with truncated
  · exact gives_throw
  · have header := Nat.not_lt.mp truncated
    refine (gives_splitDescriptors (W := W) header).bind fun parts split stored => ?_
    obtain ⟨recordBytes, addressed, inside⟩ := stored
    have whole := descriptors_whole header recordBytes inside
    have count : (storedRecords W descriptors).length =
        (storedHeader descriptors).recordCount.toNat := length_readArray _ _
    have size : FixedLayout.size PropertySnapshotHeader = 16 := rfl
    have fits := addressed
    unfold recordsEnd at fits
    rw [← count, size] at fits
    rw [(splitDescriptors_eq whole fits).1] at split
    cases split
    have recorded : (arrayBytes ([] ++ storedRecords W descriptors)).length < usizeBound := by
      rw [List.nil_append, length_arrayBytes]
      omega
    have ran := @gives_validateRecords W T V _ _ ipc data [] (storedRecords W descriptors)
      (descriptors.drop (recordsEnd W descriptors)) recorded
      { names := ∅, ids := ∅, ranges := [], totalLogicalValues := 0 } (by decide +kernel)
    rw [List.nil_append, List.length_nil, ← List.range_eq_range'] at ran
    refine ran.bind fun last _ validated => ?_
    obtain ⟨layers, records, ids, names, _, ranges, total, summed⟩ := validated
    refine (gives_ofResult fun _ covered => covered).bind fun _ _ covered => ?_
    rw [List.nil_append] at ranges
    rw [ranges] at covered
    refine gives_pure ⟨layers, header, recordBytes, addressed, inside, records, ids, names, ?_,
      (validateDataCoverage_eq_ok_iff (nonempty_storedRanges rejects records)).mp covered⟩
    rw [total, Nat.zero_add] at summed
    exact summed

/-- Sections that store layers are valid, and are decoded as these. -/
theorem StoresLayers.reads (rejects : ipc.RejectsEmpty)
    (stores : StoresLayers W ipc descriptors data layers) :
    (∃ summary, validatePropertySections W ipc descriptors data = pure summary) ∧
      DecodedPropertyLayer.decodeSections W ipc descriptors data = pure layers := by
  have whole := descriptors_whole stores.header stores.recordBytes stores.inside
  have count : (storedRecords W descriptors).length =
      (storedHeader descriptors).recordCount.toNat := length_readArray _ _
  have size : FixedLayout.size PropertySnapshotHeader = 16 := rfl
  have fits := stores.addressed
  unfold recordsEnd at fits
  rw [← count, size] at fits
  obtain ⟨split, reopened⟩ := splitDescriptors_eq whole fits
  have recorded : (arrayBytes ([] ++ storedRecords W descriptors)).length < usizeBound := by
    rw [List.nil_append, length_arrayBytes]
    omega
  obtain ⟨last, ran, ranges, total⟩ :=
    @validateRecords_eq _ _ _ _ _ _ [] _ _ _ _ recorded stores.stored stores.names stores.ids
      { names := ∅, ids := ∅, ranges := [], totalLogicalValues := 0 }
      (fun _ _ => Std.ExtTreeSet.not_mem_empty) (fun _ _ => Std.ExtTreeSet.not_mem_empty)
      (by decide +kernel)
  have decoded := decodeLayers_eq recorded stores.stored
  have summed := stores.total
  rw [List.nil_append, List.length_nil, ← List.range_eq_range'] at ran decoded
  rw [← Nat.zero_add (layers.map DecodedPropertyLayer.logicalLen).sum] at summed
  rw [if_pos summed] at ran
  have covered : validateDataCoverage last.ranges data.length = .ok () := by
    rw [ranges, List.nil_append]
    exact (validateDataCoverage_eq_ok_iff (nonempty_storedRanges rejects stores.stored)).mpr
      stores.tiles
  have validated : ∃ summary, validatePropertySections W ipc descriptors data = pure summary := by
    unfold validatePropertySections
    rw [if_neg (Nat.not_lt.mpr stores.header), split, pure_bind]
    dsimp only
    rw [ran, pure_bind, covered]
    exact ⟨_, rfl⟩
  refine ⟨validated, ?_⟩
  obtain ⟨summary, validated⟩ := validated
  unfold DecodedPropertyLayer.decodeSections
  rw [validated, pure_bind, reopened, pure_bind]
  exact decoded

/-- Sections are decoded without a panic, and exactly as the layers that they store. -/
theorem decodeSections_spec (rejects : ipc.RejectsEmpty) :
    (DecodedPropertyLayer.decodeSections W ipc descriptors data).Total ∧
      ∀ layers, DecodedPropertyLayer.decodeSections W ipc descriptors data = pure layers ↔
        StoresLayers W ipc descriptors data layers := by
  have valid := @gives_validatePropertySections W T V _ _ ipc descriptors data rejects
  constructor
  · refine valid.total.bind fun summary validated => ?_
    obtain ⟨layers, stores⟩ := valid.holds summary validated
    have decoded := (stores.reads rejects).2
    unfold DecodedPropertyLayer.decodeSections at decoded
    rw [validated, pure_bind] at decoded
    rw [decoded]
    exact total_pure layers
  · refine fun layers => ⟨fun decoded => ?_, fun stores => (stores.reads rejects).2⟩
    obtain ⟨summary, validated, _⟩ := bind_eq_pure.mp decoded
    obtain ⟨others, stores⟩ := valid.holds summary validated
    rw [(stores.reads rejects).2, pure_eq_pure] at decoded
    exact decoded ▸ stores

-- Accepted layers.

omit [DecidableEq T] in
/-- Columns that batches hold meet the contract exactly when no index is null. -/
theorem Holds.meetsContract_iff {logicalLen valueCount : Nat} {storage : StorageMode}
    {valueBatch : RecordBatch T V} {defaultBatch : Option (RecordBatch T V)}
    {columns : DecodedPropertyData T V}
    (holds : Holds logicalLen valueCount storage valueBatch defaultBatch columns) :
    MeetsContract logicalLen storage columns ↔ columns.IndexesNotNull := by
  cases holds with
  | dense logical _ => exact iff_of_true logical trivial
  | sparse fits _ => exact ⟨fun contract => contract.1, fun present => ⟨present, fits⟩⟩

omit [DecidableEq T] in
/-- Layers that are stored meet the contract exactly when no index of theirs is null. -/
theorem StoresLayers.meetContract_iff (stores : StoresLayers W ipc descriptors data layers) :
    (∀ layer ∈ layers, MeetsContract layer.logicalLen layer.storage layer.data) ↔
      ∀ layer ∈ layers, layer.data.IndexesNotNull := by
  refine forall₂_congr fun layer member => ?_
  obtain ⟨record, _, stored⟩ := exists_of_forall₂ stores.stored member
  obtain ⟨_, _, _, _, holds⟩ := stored.columns
  exact holds.meetsContract_iff

/--
Both readers keep to their contract on two sections exactly when no stored index column has a null.

The layers that the sections store are told without running either reader.
-/
theorem sectionsContract_iff (rejects : ipc.RejectsEmpty) (descriptors data : Bytes) :
    SectionsContract W ipc descriptors data ↔
      ∀ layers, StoresLayers W ipc descriptors data layers →
        ∀ layer ∈ layers, layer.data.IndexesNotNull := by
  have valid := @gives_validatePropertySections W T V _ _ ipc descriptors data rejects
  obtain ⟨total, decodes⟩ := @decodeSections_spec W T V _ _ ipc descriptors data rejects
  constructor
  · intro contract layers stores
    exact stores.meetContract_iff.mp (contract.contract layers ((decodes layers).mpr stores))
  · intro present
    exact {
      validates := valid.total
      decodes := total
      together := by
        constructor
        · rintro ⟨summary, validated⟩
          obtain ⟨layers, stores⟩ := valid.holds summary validated
          exact ⟨layers, (decodes layers).mpr stores⟩
        · rintro ⟨layers, decoded⟩
          exact (((decodes layers).mp decoded).reads rejects).1
      ids := fun layers decoded => ((decodes layers).mp decoded).ids
      names := fun layers decoded => ((decodes layers).mp decoded).names
      tiles := fun layers decoded => ((decodes layers).mp decoded).tiles
      contract := fun layers decoded => by
        have stores := (decodes layers).mp decoded
        exact stores.meetContract_iff.mpr (present layers stores) }

theorem ArrowIpc.rejectsEmpty_plain : ArrowIpc.plain.RejectsEmpty := ⟨"no batch", rfl⟩

/-- The layers of three modes are encoded to sections on which the readers keep to their contract. -/
theorem sectionsContract_mixed : ∃ encoded, encodeLayers UInt16 .plain mixedLayers = .ok encoded ∧
    SectionsContract UInt16 .plain encoded.descriptors encoded.data := by
  have small : sectionsLen UInt16 ArrowIpc.plain mixedLayers < usizeBound := by decide
  have encodes := encodeLayers_eq_ok ArrowIpc.inverse_plain encodable_mixed.names
    encodable_mixed.ids encodable_mixed.fits (by decide)
  refine ⟨_, encodes, (sectionsContract_iff ArrowIpc.rejectsEmpty_plain _ _).mpr ?_⟩
  intro layers stores
  -- What the sections store is what was encoded.
  rw [← length_encodedLayers] at small
  have decoded := (readLayers_eq ArrowIpc.inverse_plain encodable_mixed.names encodable_mixed.ids
    encodable_mixed.fits (by omega) (by omega)).2
  rw [if_pos (by decide), ((decodeSections_spec ArrowIpc.rejectsEmpty_plain).2 layers).mpr stores,
    pure_eq_pure] at decoded
  subst decoded
  refine List.forall_mem_cons.mpr ⟨trivial, List.forall_mem_cons.mpr ⟨rfl,
    List.forall_mem_singleton.mpr rfl⟩⟩

-- A null index.

/-- The columns of two values, the second of which is at an index that is null. -/
def nullIndexColumns : List (ArrowArray Unit Unit) :=
  [.uint16 ⟨[⟨1, false⟩, ⟨3, true⟩]⟩, .other () [⟨(), false⟩, ⟨(), false⟩]]

/-- The stream of these columns. -/
def nullIndexData : Bytes := (2 :: nullIndexColumns.flatMap columnNumbers).flatMap unary

/-- The record of one sparse layer, whose values are in that stream. -/
def nullIndexRecord : PropertySnapshotRecord UInt16 where
  layerId := 9
  nameOffset := 0
  nameLen := 6
  idFamily := 1
  role := 1
  storage := 1
  missingPolicy := 1
  logicalLen := 4
  valueCount := 2
  valueDataOffset := 0
  valueDataLen := 27
  defaultDataOffset := 0
  defaultDataLen := 0
  reserved := 0

/-- A descriptor section with the record. -/
def nullIndexDescriptors : Bytes :=
  asBytes (headerOf UInt16 1) ++ arrayBytes [nullIndexRecord] ++ utf8Bytes "weight"

/-- The layer that the sections store. -/
def nullIndexLayer : DecodedPropertyLayer Unit Unit where
  layerId := 9
  name := "weight"
  idFamily := .relation
  role := .property
  storage := .sparse .null
  logicalLen := 4
  data := .sparse (.uint16 ⟨[⟨1, false⟩, ⟨3, true⟩]⟩) (.other () [⟨(), false⟩, ⟨(), false⟩]) none

theorem stores_nullIndexRecord : nullIndexRecord.Stores .plain (utf8Bytes "weight") nullIndexData
    nullIndexLayer where
  layerId := rfl
  idFamily := rfl
  role := rfl
  storage := rfl
  missingPolicy := rfl
  nameAddressed := by decide
  nameInside := by decide
  name := by decide
  logicalLen := rfl
  reserved := rfl
  columns := by
    refine ⟨⟨nullIndexColumns⟩, none, ⟨by decide, by decide, rfl⟩, rfl, ?_⟩
    have fits : SparseFits 4 .null (.uint16 ⟨[⟨1, false⟩, ⟨3, true⟩]⟩ : ArrowArray Unit Unit)
        (.other () [⟨(), false⟩, ⟨(), false⟩]) none :=
      { ascending := ⟨[1, 3], rfl, by decide, by decide⟩, counts := rfl, default := rfl }
    exact .sparse fits rfl

theorem storesLayers_nullIndex :
    StoresLayers UInt16 .plain nullIndexDescriptors nullIndexData [nullIndexLayer] where
  header := by decide
  recordBytes := by decide
  addressed := by decide
  inside := by decide
  stored := by
    have records : storedRecords UInt16 nullIndexDescriptors = [nullIndexRecord] := by decide
    have names : nullIndexDescriptors.drop (recordsEnd UInt16 nullIndexDescriptors) =
      utf8Bytes "weight" := by decide
    rw [records, names]
    exact .cons stores_nullIndexRecord .nil
  ids := by decide
  names := by decide
  total := by decide
  tiles := by
    have ranges : (storedRecords UInt16 nullIndexDescriptors).flatMap
      PropertySnapshotRecord.ranges = [(0, 27)] := by decide
    rw [ranges]
    exact ⟨by decide, by decide, by decide⟩

/-- A layer with a null index is decoded, though no constructor would have built it. -/
theorem not_sectionsContract_nullIndex : ArrowIpc.plain.RejectsEmpty ∧
    ¬SectionsContract UInt16 .plain nullIndexDescriptors nullIndexData := by
  refine ⟨ArrowIpc.rejectsEmpty_plain, fun contract => ?_⟩
  have decoded := ((decodeSections_spec ArrowIpc.rejectsEmpty_plain).2 _).mpr storesLayers_nullIndex
  have meets := contract.contract _ decoded nullIndexLayer (List.mem_singleton.mpr rfl)
  exact absurd meets.1 (by decide)

end Oxgraph.Property
