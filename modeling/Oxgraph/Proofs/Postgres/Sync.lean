import Oxgraph.Lib.Rank
import Oxgraph.Proofs.Postgres.Built
import Oxgraph.Spec.Sync

/-! A sync log resolves to an artifact's ids exactly when the keys it adds sort after all others. -/

namespace Oxgraph.Postgres

open Layout Container

-- The keys that are numbered.

/-- The keys of rows and of a log are those that are numbered. -/
theorem mem_harvested {rawRows : List RawSyncRow} {keys : BTreeSet NodeKey} {key : NodeKey} :
    key ∈ rawRows.foldl harvestKeys keys ↔ key ∈ keys ∨ Names rawRows key := by
  induction rawRows generalizing keys with
  | nil => simp [Names]
  | cons row rest ih =>
    have one : key ∈ harvestKeys keys row ↔ key ∈ keys ∨ row.isKeyed = true ∧
        (nodeKeyFromI64 row.arg0 = some key ∨ nodeKeyFromI64 row.arg1 = some key) := by
      unfold harvestKeys
      cases row.isKeyed with
      | false => simp
      | true =>
        -- Either argument may be missing or no key.
        cases nodeKeyFromI64 row.arg0 <;> cases nodeKeyFromI64 row.arg1 <;>
          simp [mem_insert_set, -Std.ExtTreeSet.mem_insert, or_assoc, or_comm, or_left_comm]
    have split : Names (row :: rest) key ↔ (row.isKeyed = true ∧
        (nodeKeyFromI64 row.arg0 = some key ∨ nodeKeyFromI64 row.arg1 = some key)) ∨
          Names rest key := List.exists_mem_cons_iff _ _ _
    rw [List.foldl_cons, ih, one, split, or_assoc]

/-- Every row that was not touched is there before exactly when it is there after. -/
theorem Edited.mem {edges later touched : List EdgeRow} (edited : Edited edges later touched) :
    (∀ edge ∈ edges, edge ∈ later ∨ edge ∈ touched) ∧
      ∀ edge ∈ later, edge ∈ edges ∨ edge ∈ touched := by
  induction edited with
  | start => exact ⟨fun _ member => .inl member, fun _ member => .inl member⟩
  | inserted edge edited ih =>
    obtain ⟨kept, old⟩ := ih
    constructor
    · intro other member
      rcases kept other member with inside | touchedBefore
      · refine .inl ?_
        simp only [List.mem_append, List.mem_cons] at inside ⊢
        exact inside.imp_right .inr
      · exact .inr (List.mem_cons_of_mem _ touchedBefore)
    · intro other member
      simp only [List.mem_append, List.mem_cons] at member
      rcases member with inside | rfl | inside
      · exact (old other (List.mem_append_left _ inside)).imp_right (List.mem_cons_of_mem _)
      · exact .inr List.mem_cons_self
      · exact (old other (List.mem_append_right _ inside)).imp_right (List.mem_cons_of_mem _)
  | deleted edge edited ih =>
    obtain ⟨kept, old⟩ := ih
    constructor
    · intro other member
      rcases kept other member with inside | touchedBefore
      · simp only [List.mem_append, List.mem_cons] at inside
        rcases inside with before | rfl | after
        · exact .inl (List.mem_append_left _ before)
        · exact .inr List.mem_cons_self
        · exact .inl (List.mem_append_right _ after)
      · exact .inr (List.mem_cons_of_mem _ touchedBefore)
    · intro other member
      refine (old other ?_).imp_right (List.mem_cons_of_mem _)
      simp only [List.mem_append, List.mem_cons] at member ⊢
      exact member.imp_right .inr

section

variable {edges later touched : List EdgeRow} {rawRows : List RawSyncRow} {keys : List NodeKey}
  (keysOf : KeysOf edges keys) (edited : Edited edges later touched)
  (named : ∀ edge ∈ touched, Names rawRows edge.source ∧ Names rawRows edge.target)
include keysOf edited named

/-- The keys of the rows that were built are numbered, and every other one is named by the log. -/
theorem mem_numbered {key : NodeKey} :
    key ∈ (rawRows.foldl harvestKeys (distinctNodeKeys later)).toList ↔
      key ∈ keys ∨ Names rawRows key := by
  obtain ⟨kept, old⟩ := edited.mem
  have laterKeys : key ∈ distinctNodeKeys later ↔
      ∃ edge ∈ later, edge.source = key ∨ edge.target = key := by
    rw [← Std.ExtTreeSet.mem_toList]
    exact (keysOf_distinctNodeKeys later).named key
  have touchedNamed {edge : EdgeRow} (member : edge ∈ touched)
      (ends : edge.source = key ∨ edge.target = key) : Names rawRows key := by
    rcases ends with rfl | rfl
    · exact (named edge member).1
    · exact (named edge member).2
  rw [Std.ExtTreeSet.mem_toList, mem_harvested, laterKeys, keysOf.named]
  constructor
  · rintro (⟨edge, member, ends⟩ | logged)
    · rcases old edge member with before | touchedEdge
      · exact .inl ⟨edge, before, ends⟩
      · exact .inr (touchedNamed touchedEdge ends)
    · exact .inr logged
  · rintro (⟨edge, member, ends⟩ | logged)
    · rcases kept edge member with after | touchedEdge
      · exact .inl ⟨edge, after, ends⟩
      · exact .inr (touchedNamed touchedEdge ends)
    · exact .inr logged

/-- What is numbered besides the keys comes after them all when what the log names does. -/
theorem namesOnlyLater_iff : NamesOnlyLater keys rawRows ↔
    ∀ extra ∈ (rawRows.foldl harvestKeys (distinctNodeKeys later)).toList, extra ∉ keys →
      ∀ key ∈ keys, compare key extra = .lt := by
  constructor
  · intro later_ extra member other key listed
    have logged := ((mem_numbered keysOf edited named).mp member).resolve_left other
    exact Std.compare_eq_lt.mpr (later_ extra logged other key listed)
  · intro after extra logged other key listed
    have member := (mem_numbered keysOf edited named).mpr (.inr logged)
    exact Std.compare_eq_lt.mp (after extra member other key listed)

end

-- Resolving.

/-- A key that was resolved is in the map, under the id. -/
theorem get_of_resolved {map : BTreeMap NodeKey UInt32} {wire : SyncActionWire}
    {action : SyncAction} {key : NodeKey} {id : UInt32} (resolved : ResolvesKey wire action key id)
    (ran : resolveSyncAction wire map = .ok action) : map[key]? = some id := by
  have looked {key : NodeKey} {id : UInt32} (found : lookupDense key map = .ok id) :
      map[key]? = some id := by
    unfold lookupDense at found
    rw [← Std.ExtTreeMap.get?_eq_getElem?]
    cases read : map.get? key with
    | none =>
      rw [read] at found
      cases found
    | some other =>
      rw [read] at found
      cases found
      rfl
  cases resolved with
  | insertSource | insertTarget | removeSource | removeTarget =>
    obtain ⟨source, foundSource, ran⟩ := bind_eq_ok.mp ran
    obtain ⟨target, foundTarget, same⟩ := bind_eq_ok.mp ran
    cases same
    first
      | exact looked foundSource
      | exact looked foundTarget

/-- An argument that decodes is the key that would be harvested. -/
theorem decodeNodeKey_eq_ok {value : Option Int64} {actionType : Int16} {key : NodeKey} :
    decodeNodeKey value actionType = .ok key ↔ nodeKeyFromI64 value = some key := by
  unfold decodeNodeKey nodeKeyFromI64
  cases value with
  | none => exact ⟨fun never => (nomatch never), fun never => (nomatch never)⟩
  | some value =>
    rw [Option.bind_some]
    dsimp only
    split
    · exact ⟨fun never => (nomatch never), fun never => (nomatch never)⟩
    · rw [Except.ok.injEq, Option.some.injEq]

/-- A key that a keyed row names is resolved once the row is decoded. -/
theorem resolved_of_named {row : RawSyncRow} {map : BTreeMap NodeKey UInt32} {action : SyncAction}
    {key : NodeKey} (keyed : row.isKeyed = true)
    (named : nodeKeyFromI64 row.arg0 = some key ∨ nodeKeyFromI64 row.arg1 = some key)
    (decoded : SyncActionCodec.decode row.actionType row.arg0 row.arg1 map = .ok action) :
    ∃ wire id, SyncActionCodec.decodeWire row.actionType row.arg0 row.arg1 = .ok wire ∧
      ResolvesKey wire action key id ∧ map[key]? = some id := by
  obtain ⟨wire, ranWire, ran⟩ := bind_eq_ok.mp decoded
  refine ⟨wire, ?_⟩
  have resolves : ∃ id, ResolvesKey wire action key id := by
    obtain ⟨codec, ranCodec, ranArgs⟩ := bind_eq_ok.mp ranWire
    unfold RawSyncRow.isKeyed at keyed
    rw [ranCodec] at keyed
    have pick {source target : NodeKey} (decodedSource : decodeNodeKey row.arg0 row.actionType = .ok source)
        (decodedTarget : decodeNodeKey row.arg1 row.actionType = .ok target) :
        source = key ∨ target = key := by
      rw [decodeNodeKey_eq_ok] at decodedSource decodedTarget
      rw [decodedSource, decodedTarget, Option.some.injEq, Option.some.injEq] at named
      exact named
    cases codec with
    | deleteEdge | deleteNode | truncateOverlays => cases keyed
    | insertEdge =>
      obtain ⟨source, decodedSource, ranArgs⟩ := bind_eq_ok.mp ranArgs
      obtain ⟨target, decodedTarget, same⟩ := bind_eq_ok.mp ranArgs
      cases same
      obtain ⟨sourceId, _, ran⟩ := bind_eq_ok.mp ran
      obtain ⟨targetId, _, same⟩ := bind_eq_ok.mp ran
      cases same
      rcases pick decodedSource decodedTarget with rfl | rfl
      · exact ⟨sourceId, .insertSource⟩
      · exact ⟨targetId, .insertTarget⟩
    | removeOverlayEdge =>
      obtain ⟨source, decodedSource, ranArgs⟩ := bind_eq_ok.mp ranArgs
      obtain ⟨target, decodedTarget, same⟩ := bind_eq_ok.mp ranArgs
      cases same
      obtain ⟨sourceId, _, ran⟩ := bind_eq_ok.mp ran
      obtain ⟨targetId, _, same⟩ := bind_eq_ok.mp ran
      cases same
      rcases pick decodedSource decodedTarget with rfl | rfl
      · exact ⟨sourceId, .removeSource⟩
      · exact ⟨targetId, .removeTarget⟩
  obtain ⟨id, resolved⟩ := resolves
  exact ⟨id, ranWire, resolved, get_of_resolved resolved ran⟩

/-- Rows that were resolved are the raw rows one by one, each decoded over the one map. -/
theorem rows_of_resolved {later : List EdgeRow} {rawRows : List RawSyncRow} {rows : List SyncRow}
    (resolved : resolveSyncRows later rawRows = .ok rows) : ∃ map,
      denseNodeMapForSyncResolution later rawRows = .ok map ∧
        Numbers map (rawRows.foldl harvestKeys (distinctNodeKeys later)).toList ∧
        List.Forall₂ (fun raw row => SyncActionCodec.decode raw.actionType raw.arg0 raw.arg1 map =
          .ok row.action) rawRows rows := by
  obtain ⟨map, numbered, decoded⟩ := bind_eq_ok.mp resolved
  refine ⟨map, numbered, ?_, ?_⟩
  · have returned := mapError_eq_ok.mp numbered
    obtain ⟨numbers, overflows⟩ :=
      denseNodeMapFromKeys_spec (rawRows.foldl harvestKeys (distinctNodeKeys later))
    rcases Nat.lt_or_ge u32Bound
        (rawRows.foldl harvestKeys (distinctNodeKeys later)).toList.length with beyond | fits
    · rw [overflows beyond] at returned
      cases returned
    · obtain ⟨other, same, isNumbered⟩ := numbers fits
      cases returned.symm.trans same
      exact isNumbered
  · clear resolved numbered
    induction rawRows generalizing rows with
    | nil =>
      cases decoded
      exact .nil
    | cons raw rest ih =>
      rw [List.mapM_cons] at decoded
      obtain ⟨row, one, decoded⟩ := bind_eq_ok.mp decoded
      obtain ⟨others, decodedRest, same⟩ := bind_eq_ok.mp decoded
      cases same
      obtain ⟨action, ran, same⟩ := bind_eq_ok.mp one
      cases same
      exact .cons (mapError_eq_ok.mp ran) (ih decodedRest)

/-- Ids that are ranks are equal exactly when the ranks are. -/
theorem ofNat_inj {left right : Nat} (leftFits : left < u32Bound) (rightFits : right < u32Bound) :
    (some (UInt32.ofNat left) = some (UInt32.ofNat right)) ↔ left = right := by
  rw [Option.some.injEq, ← UInt32.toNat_inj, UInt32.toNat_ofNat_of_lt' leftFits,
    UInt32.toNat_ofNat_of_lt' rightFits]

/--
A sync log resolves to the ids of the artifact exactly when the keys it adds sort after all others.

That is so for the ids in its rows, and for those of all keys of the artifact.
-/
theorem sync_resolution_agrees_iff (checksum : Checksum32) {builtAtUnix : UInt64}
    {edges later touched : List EdgeRow} {keys : List NodeKey} {bytes : Bytes}
    {snapshot : Container.Snapshot} {topology : GraphTopology} {rawRows : List RawSyncRow}
    {rows : List SyncRow} (keysOf : KeysOf edges keys)
    (built : DualTopologySnapshot.fromEdgeRows checksum edges builtAtUnix = pure bytes)
    (opened : Snapshot.openBytes bytes = .ok snapshot)
    (viewed : GraphTopology.ofSnapshot snapshot = pure topology)
    (edited : Edited edges later touched)
    (named : ∀ edge ∈ touched, Names rawRows edge.source ∧ Names rawRows edge.target)
    (resolved : resolveSyncRows later rawRows = .ok rows) :
    (∃ metadata, topology.HoldsRows metadata edges keys) ∧
      (AgreesWithArtifact keys rawRows rows ↔ NamesOnlyLater keys rawRows) ∧
      ∃ map, denseNodeMapForSyncResolution later rawRows = .ok map ∧
        ((∀ (position : Nat) (key : NodeKey), keys[position]? = some key →
          map[key]? = some (.ofNat position)) ↔ NamesOnlyLater keys rawRows) := by
  obtain ⟨nonempty, nodes, rowCount⟩ := DualTopologySnapshot.fromEdgeRows_counts keysOf built
  obtain ⟨map, numbered, numbers, decoded⟩ := rows_of_resolved resolved
  have listed := @mem_numbered edges later touched rawRows keys keysOf edited named
  have onlyLater := namesOnlyLater_iff keysOf edited named
  -- The keys are an ascending list within the ascending list of all that are numbered.
  have ascending : Ascending keys := keysOf.ascending.imp Std.compare_eq_lt.mpr
  have ascendingAll := ascending_toList_set (rawRows.foldl harvestKeys (distinctNodeKeys later))
  generalize (rawRows.foldl harvestKeys (distinctNodeKeys later)).toList = all at *
  have within : keys ⊆ all := fun key member => listed.mpr (.inl member)
  have agree := ranks_agree_iff ascending ascendingAll within
  have beyond := ranks_beyond_iff ascending ascendingAll within
  have rank {key : NodeKey} (member : key ∈ all) : all.idxOf key < u32Bound :=
    Nat.lt_of_lt_of_le (List.idxOf_lt_length_of_mem member) numbers.fits
  have position_eq {position : Nat} {key : NodeKey} (located : keys[position]? = some key) :
      position = keys.idxOf key := by
    obtain ⟨inside, rfl⟩ := List.getElem?_eq_some_iff.mp located
    exact (keysOf.nodup.idxOf_getElem _ inside).symm
  refine ⟨?_, ?_, map, numbered, ?_⟩
  · obtain ⟨again, snapshotAgain, metadata, topologyAgain, builtAgain, openedAgain, _, viewedAgain,
      holds⟩ := DualTopologySnapshot.fromEdgeRows_opens checksum builtAtUnix keysOf nonempty nodes
        rowCount
    cases Fallible.pure_eq_pure.mp (built.symm.trans builtAgain)
    cases opened.symm.trans openedAgain
    cases Fallible.pure_eq_pure.mp (viewed.symm.trans viewedAgain)
    exact ⟨metadata, holds⟩
  · rw [onlyLater]
    constructor
    · -- Each key that is added is in some row, and was resolved there to its rank.
      intro agrees
      refine beyond.mp fun extra member other => ?_
      obtain ⟨raw, inLog, keyed, args⟩ := (listed.mp member).resolve_left other
      obtain ⟨index, located⟩ := List.mem_iff_getElem?.mp inLog
      obtain ⟨row, locatedRow, ran⟩ : ∃ row, rows[index]? = some row ∧
          SyncActionCodec.decode raw.actionType raw.arg0 raw.arg1 map = .ok row.action := by
        obtain ⟨inside, rfl⟩ := List.getElem?_eq_some_iff.mp located
        have insideRows : index < rows.length := decoded.length_eq ▸ inside
        exact ⟨_, List.getElem?_eq_getElem insideRows, decoded.get inside insideRows⟩
      obtain ⟨wire, id, ranWire, resolves, read⟩ := resolved_of_named keyed args ran
      have far := (agrees index raw row wire extra id located locatedRow ranWire resolves).2 other
      rw [numbers.listed extra member, Option.some.injEq] at read
      rwa [← read, UInt32.toNat_ofNat_of_lt' (rank member)] at far
    · intro after index raw row wire key id located locatedRow ranWire resolves
      have ran : SyncActionCodec.decode raw.actionType raw.arg0 raw.arg1 map = .ok row.action := by
        obtain ⟨inside, rfl⟩ := List.getElem?_eq_some_iff.mp located
        obtain ⟨insideRows, rfl⟩ := List.getElem?_eq_some_iff.mp locatedRow
        exact decoded.get inside insideRows
      obtain ⟨other, same, ranAction⟩ := bind_eq_ok.mp ran
      cases ranWire.symm.trans same
      have read := get_of_resolved resolves ranAction
      have member : key ∈ all := by
        by_contra missing
        rw [numbers.unlisted key missing] at read
        cases read
      rw [numbers.listed key member, Option.some.injEq] at read
      rw [← read]
      constructor
      · intro position found
        rw [UInt32.toNat_ofNat_of_lt' (rank member), position_eq found]
        exact agree.mpr after key (List.mem_of_getElem? found)
      · intro missing
        rw [UInt32.toNat_ofNat_of_lt' (rank member)]
        exact beyond.mpr after key member missing
  · rw [onlyLater, ← agree]
    constructor
    · intro same key member
      have position : keys[keys.idxOf key]? = some key := List.getElem?_idxOf member
      have read := same _ key position
      rw [numbers.listed key (within member)] at read
      exact (ofNat_inj (rank (within member))
        (Nat.lt_trans (List.idxOf_lt_length_of_mem member) nodes)).mp read
    · intro same position key located
      have member := List.mem_of_getElem? located
      rw [numbers.listed key (within member), same key member, ← position_eq located]

/-- A row to a key past all others, and the removal of one that was built, resolve as they should. -/
theorem sync_resolution_agrees_later : ∃ bytes snapshot topology,
    DualTopologySnapshot.fromEdgeRows (fun _ _ => 0) [⟨2, 3⟩, ⟨3, 2⟩] 0 = pure bytes ∧
      Snapshot.openBytes bytes = .ok snapshot ∧ GraphTopology.ofSnapshot snapshot = pure topology ∧
      AgreesWithArtifact [2, 3] [⟨1, 1, some 3, some 4⟩, ⟨2, 5, some 2, some 3⟩]
        [⟨1, .insertEdge 1 2⟩, ⟨2, .removeOverlayEdge 0 1⟩] := by
  have keysOf : KeysOf [⟨2, 3⟩, ⟨3, 2⟩] [2, 3] := ⟨by decide, fun key => by simp; grind⟩
  have few : 2 < u32Bound := by decide +kernel
  obtain ⟨bytes, snapshot, metadata, topology, built, opened, _, viewed, _⟩ :=
    DualTopologySnapshot.fromEdgeRows_opens (fun _ _ => 0) 0 keysOf (List.cons_ne_nil _ _) few few
  have edited : Edited [⟨2, 3⟩, ⟨3, 2⟩] [⟨3, 2⟩, ⟨3, 4⟩] [⟨3, 4⟩, ⟨2, 3⟩] :=
    @Edited.inserted _ [⟨3, 2⟩] [] _ ⟨3, 4⟩ (@Edited.deleted _ [] [⟨3, 2⟩] _ ⟨2, 3⟩ .start)
  have named : ∀ edge ∈ [(⟨3, 4⟩ : EdgeRow), ⟨2, 3⟩],
      Names [⟨1, 1, some 3, some 4⟩, ⟨2, 5, some 2, some 3⟩] edge.source ∧
        Names [⟨1, 1, some 3, some 4⟩, ⟨2, 5, some 2, some 3⟩] edge.target := by
    simp only [Names]
    decide
  have resolved : resolveSyncRows [⟨3, 2⟩, ⟨3, 4⟩]
      [⟨1, 1, some 3, some 4⟩, ⟨2, 5, some 2, some 3⟩] =
        .ok [⟨1, .insertEdge 1 2⟩, ⟨2, .removeOverlayEdge 0 1⟩] := rfl
  obtain ⟨_, rowsAgree, _⟩ :=
    sync_resolution_agrees_iff (fun _ _ => 0) keysOf built opened viewed edited named resolved
  refine ⟨bytes, snapshot, topology, built, opened, viewed, rowsAgree.mpr ?_⟩
  -- The only key that the log adds is 4.
  rintro extra ⟨row, member, _, args⟩ other key listed
  have added : extra = 4 := by
    simp only [List.mem_cons, List.not_mem_nil, or_false] at member other
    rcases member with rfl | rfl
    · rcases args with same | same
      · exact absurd (Option.some.inj same).symm (fun three => other (.inr three))
      · exact (Option.some.inj same).symm
    · rcases args with same | same
      · exact absurd (Option.some.inj same).symm (fun two => other (.inl two))
      · exact absurd (Option.some.inj same).symm (fun three => other (.inr three))
  subst added
  revert key
  simp only [List.forall_mem_cons, List.not_mem_nil, false_implies, implies_true, and_true]
  decide

/-- A row from a key before all others makes the ids of the artifact other keys' ids. -/
theorem sync_resolution_disagrees : ∃ bytes snapshot topology rows,
    DualTopologySnapshot.fromEdgeRows (fun _ _ => 0) [⟨2, 3⟩] 0 = pure bytes ∧
      Snapshot.openBytes bytes = .ok snapshot ∧ GraphTopology.ofSnapshot snapshot = pure topology ∧
      KeysOf [⟨2, 3⟩] [2, 3] ∧ Edited [⟨2, 3⟩] [⟨2, 3⟩, ⟨1, 2⟩] [⟨1, 2⟩] ∧
      Names [⟨1, 1, some 1, some 2⟩] 1 ∧ Names [⟨1, 1, some 1, some 2⟩] 2 ∧
      resolveSyncRows [⟨2, 3⟩, ⟨1, 2⟩] [⟨1, 1, some 1, some 2⟩] = .ok rows ∧
      ¬ AgreesWithArtifact [2, 3] [⟨1, 1, some 1, some 2⟩] rows := by
  have keysOf : KeysOf [⟨2, 3⟩] [2, 3] := ⟨by decide, fun key => by simp [eq_comm]⟩
  have few : 2 < u32Bound ∧ 1 < u32Bound := by decide +kernel
  obtain ⟨bytes, snapshot, metadata, topology, built, opened, _, viewed, _⟩ :=
    DualTopologySnapshot.fromEdgeRows_opens (fun _ _ => 0) 0 keysOf (List.cons_ne_nil _ _)
      few.1 few.2
  have edited : Edited [⟨2, 3⟩] [⟨2, 3⟩, ⟨1, 2⟩] [⟨1, 2⟩] :=
    @Edited.inserted _ [⟨2, 3⟩] [] _ ⟨1, 2⟩ .start
  have resolved : resolveSyncRows [⟨2, 3⟩, ⟨1, 2⟩] [⟨1, 1, some 1, some 2⟩] =
      .ok [⟨1, .insertEdge 0 1⟩] := rfl
  refine ⟨bytes, snapshot, topology, _, built, opened, viewed, keysOf, edited,
    ⟨_, List.mem_cons_self, rfl, .inl rfl⟩, ⟨_, List.mem_cons_self, rfl, .inr rfl⟩, resolved, ?_⟩
  -- Key 2 has the first id of the artifact, and was resolved to the second.
  intro agrees
  have wrong := (agrees 0 _ _ (.insertEdge 1 2) 2 1 rfl rfl rfl .insertTarget).1 0 rfl
  exact absurd wrong (by decide)

end Oxgraph.Postgres
