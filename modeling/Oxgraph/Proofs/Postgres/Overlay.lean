import Oxgraph.Spec.Sync
import Oxgraph.Spec.Traversal

/-! The keys of edge rows, numbered by their ranks, and the adjacency indexes of an overlay. -/

namespace Oxgraph.Postgres

-- The keys of rows.

/-- Collecting the ends of rows adds them to the keys that are there. -/
theorem mem_collected {edges : List EdgeRow} {keys : BTreeSet NodeKey} {key : NodeKey} :
    key ∈ edges.foldl (fun keys edge => (keys.insert edge.source).insert edge.target) keys ↔
      key ∈ keys ∨ ∃ edge ∈ edges, edge.source = key ∨ edge.target = key := by
  induction edges generalizing keys with
  | nil => simp
  | cons edge rest ih =>
    rw [List.foldl_cons, ih, mem_insert_set, mem_insert_set, List.exists_mem_cons_iff]
    simp only [or_assoc, or_left_comm]

/-- The distinct keys of rows are listed once and ascending. -/
theorem keysOf_distinctNodeKeys (edges : List EdgeRow) :
    KeysOf edges (distinctNodeKeys edges).toList where
  ascending := (ascending_toList_set _).imp Std.compare_eq_lt.mp
  named key := by
    rw [Std.ExtTreeSet.mem_toList]
    refine mem_collected.trans ?_
    rw [or_iff_right (by simp)]

namespace KeysOf

variable {edges : List EdgeRow} {keys : List NodeKey} (keysOf : KeysOf edges keys)
include keysOf

theorem nodup : keys.Nodup := keysOf.ascending.imp UInt64.ne_of_lt

/-- Rows have one list of keys. -/
theorem eq_distinct : (distinctNodeKeys edges).toList = keys := by
  have other := keysOf_distinctNodeKeys edges
  refine Ascending.ext (other.ascending.imp Std.compare_eq_lt.mpr)
    (keysOf.ascending.imp Std.compare_eq_lt.mpr) fun key => ?_
  rw [other.named, keysOf.named]

theorem source_mem {edge : EdgeRow} (member : edge ∈ edges) : edge.source ∈ keys :=
  (keysOf.named _).mpr ⟨edge, member, .inl rfl⟩

theorem target_mem {edge : EdgeRow} (member : edge ∈ edges) : edge.target ∈ keys :=
  (keysOf.named _).mpr ⟨edge, member, .inr rfl⟩

end KeysOf

-- The numbering.

/-- A map that numbers keys by their positions. -/
structure Numbers (map : BTreeMap NodeKey UInt32) (keys : List NodeKey) : Prop where
  fits : keys.length ≤ u32Bound
  size : map.size = keys.length
  listed : ∀ key ∈ keys, map[key]? = some (.ofNat (keys.idxOf key))
  unlisted : ∀ key ∉ keys, map[key]? = none

/-- Numbering keys goes on from a map as long as the ids last. -/
theorem denseNodeMapFrom_spec {keys : List NodeKey} {first : Nat}
    {map : BTreeMap NodeKey UInt32} (distinct : keys.Nodup) (fresh : ∀ key ∈ keys, key ∉ map)
    (start : first ≤ u32Bound) :
    (first + keys.length ≤ u32Bound → ∃ dense, denseNodeMapFrom first keys map = .ok dense ∧
      dense.size = map.size + keys.length ∧
      (∀ key ∈ keys, dense[key]? = some (.ofNat (first + keys.idxOf key))) ∧
      ∀ key ∉ keys, dense[key]? = map[key]?) ∧
    (u32Bound < first + keys.length →
      denseNodeMapFrom first keys map = .error .nodeCountOverflow) := by
  induction keys generalizing first map with
  | nil =>
    refine ⟨fun _ => ⟨map, rfl, rfl, ?_, fun _ _ => rfl⟩, fun beyond => ?_⟩
    · exact fun _ member => (nomatch member)
    · exact absurd start (Nat.not_le.mpr beyond)
  | cons key rest ih =>
    obtain ⟨other, distinctRest⟩ := List.nodup_cons.mp distinct
    obtain ⟨freshKey, freshRest⟩ := List.forall_mem_cons.mp fresh
    have freshNext : ∀ later ∈ rest, later ∉ map.insert key (.ofNat first) := by
      intro later member inserted
      rcases Std.ExtTreeMap.mem_insert.mp inserted with same | old
      · exact other (Std.LawfulEqOrd.eq_of_compare same ▸ member)
      · exact freshRest later member old
    rw [denseNodeMapFrom, List.length_cons]
    by_cases room : first < u32Bound
    · rw [if_pos room]
      obtain ⟨numbered, overflows⟩ := ih distinctRest freshNext room
      refine ⟨fun fits => ?_, fun beyond => overflows (by omega)⟩
      obtain ⟨dense, returned, size, ranks, others⟩ := numbered (by omega)
      refine ⟨dense, returned, ?_, ?_, ?_⟩
      · have absent : map.contains key = false := by
          rw [Bool.eq_false_iff, ne_eq, Std.ExtTreeMap.contains_iff_mem]
          exact freshKey
        rw [size, Std.ExtTreeMap.size_insert, absent]
        simp only [Bool.false_eq_true, if_false]
        omega
      · refine List.forall_mem_cons.mpr ⟨?_, fun later member => ?_⟩
        · -- The first key keeps the id it was given here.
          rw [others key other, get_insert, if_pos rfl, List.idxOf_cons_self]
          rfl
        · have apart : key ≠ later := fun same => other (same ▸ member)
          rw [ranks later member, List.idxOf_cons_ne _ apart]
          exact congrArg (fun rank => some (UInt32.ofNat rank)) (by omega)
      · intro later unlisted
        obtain ⟨apart, unlistedRest⟩ := not_or.mp (mt List.mem_cons.mpr unlisted)
        rw [others later unlistedRest, get_insert, if_neg (Ne.symm apart)]
    · rw [if_neg room]
      exact ⟨fun fits => absurd fits (by omega), fun _ => rfl⟩

/-- Numbering the keys of a set returns their ranks exactly when every rank is an id. -/
theorem denseNodeMapFromKeys_spec (keys : BTreeSet NodeKey) :
    (keys.toList.length ≤ u32Bound → ∃ dense, denseNodeMapFromKeys keys = .ok dense ∧
      Numbers dense keys.toList) ∧
    (u32Bound < keys.toList.length →
      denseNodeMapFromKeys keys = .error .nodeCountOverflow) := by
  have distinct : keys.toList.Nodup := (ascending_toList_set keys).nodup
  obtain ⟨numbered, overflows⟩ := @denseNodeMapFrom_spec keys.toList 0 ∅ distinct
    (fun _ _ => Std.ExtTreeMap.not_mem_empty) (Nat.zero_le _)
  rw [Nat.zero_add] at numbered overflows
  refine ⟨fun fits => ?_, overflows⟩
  obtain ⟨dense, returned, size, ranks, others⟩ := numbered fits
  refine ⟨dense, returned, fits, ?_, fun key member => ?_, fun key unlisted => ?_⟩
  · rw [size, Std.ExtTreeMap.size_empty, Nat.zero_add]
  · rw [ranks key member, Nat.zero_add]
  · rw [others key unlisted, Std.ExtTreeMap.getElem?_empty]

end Oxgraph.Postgres

-- The adjacency indexes of an overlay are its inserted edges, grouped.

namespace Oxgraph.Postgres

/-- Two indexes hold the inserted neighbours of every node, in both directions. -/
structure Groups (edges : List OverlayEdge) (bySource byTarget : BTreeMap UInt32 (List UInt32)) :
    Prop where
  targets : ∀ node, bySource.getD node [] = insertedRow edges .out node
  sources : ∀ node, byTarget.getD node [] = insertedRow edges .in node

/-- Pushing under a key changes the list of that key only. -/
theorem getD_pushUnder (index : BTreeMap UInt32 (List UInt32)) (key value node : UInt32) :
    (pushUnder index key value).getD node [] =
      index.getD node [] ++ if key = node then [value] else [] := by
  unfold pushUnder
  rw [Std.ExtTreeMap.getD_insert]
  by_cases same : key = node
  · rw [if_pos (Std.LawfulEqOrd.compare_eq_iff_eq.mpr same), if_pos same, same]
  · rw [if_neg (mt Std.LawfulEqOrd.compare_eq_iff_eq.mp same), if_neg same, List.append_nil]

/-- Indexing one more edge keeps the groups. -/
theorem Groups.index {edges : List OverlayEdge} {bySource byTarget : BTreeMap UInt32 (List UInt32)}
    (groups : Groups edges bySource byTarget) (edge : OverlayEdge) :
    Groups (edges ++ [edge]) (OverlayState.index bySource byTarget edge).1
      (OverlayState.index bySource byTarget edge).2 := by
  constructor
  · intro node
    show (pushUnder bySource edge.source edge.target).getD node [] = _
    rw [getD_pushUnder, groups.targets]
    unfold insertedRow
    simp only
    rw [List.filter_append, List.map_append, List.filter_singleton]
    by_cases same : edge.source = node <;> simp [same]
  · intro node
    show (pushUnder byTarget edge.target edge.source).getD node [] = _
    rw [getD_pushUnder, groups.sources]
    unfold insertedRow
    simp only
    rw [List.filter_append, List.map_append, List.filter_singleton]
    by_cases same : edge.target = node <;> simp [same]

theorem groups_nil : Groups [] ∅ ∅ := by
  constructor <;> exact fun _ => Std.ExtTreeMap.getD_empty

/-- Indexing edges one after the other groups all of them. -/
theorem Groups.indexAll {done : List OverlayEdge} {bySource byTarget : BTreeMap UInt32 (List UInt32)}
    (groups : Groups done bySource byTarget) (edges : List OverlayEdge) :
    Groups (done ++ edges)
      (edges.foldl (fun (bySource, byTarget) edge => OverlayState.index bySource byTarget edge)
        (bySource, byTarget)).1
      (edges.foldl (fun (bySource, byTarget) edge => OverlayState.index bySource byTarget edge)
        (bySource, byTarget)).2 := by
  induction edges generalizing done bySource byTarget with
  | nil =>
    rw [List.append_nil]
    exact groups
  | cons edge rest ih =>
    have next := ih (groups.index edge)
    rw [List.append_assoc, List.singleton_append] at next
    exact next

namespace OverlayState

/-- The indexes of an overlay group its inserted edges. -/
def Indexed (overlay : OverlayState) : Prop :=
  Groups overlay.addedEdges overlay.bySource overlay.byTarget

variable {overlay : OverlayState}

/-- Every change of an overlay keeps its indexes exact. -/
theorem Indexed.edit (indexed : overlay.Indexed) (edit : OverlayEdit) :
    (edit.apply overlay).Indexed := by
  cases edit with
  | pushEdge edge => exact indexed.index edge
  | removeEdge source target => exact groups_nil.indexAll _
  | tombstoneEdge edgeId => exact indexed
  | tombstoneNode nodeId => exact indexed
  | clear => exact groups_nil

/-- Any changes keep the indexes exact. -/
theorem Indexed.edits (indexed : overlay.Indexed) (edits : List OverlayEdit) :
    (edits.foldl OverlayEdit.apply overlay).Indexed := by
  induction edits generalizing overlay with
  | nil => exact indexed
  | cons edit rest ih => exact ih (indexed.edit edit)

/-- Replayed rows keep the indexes exact, whether or not one is out of sequence. -/
theorem Indexed.replayed (indexed : overlay.Indexed) (rows : List SyncRow) :
    (SyncRow.applyInOrder rows overlay).2.Indexed := by
  unfold SyncRow.applyInOrder
  generalize (none : Option UInt64) = lastSequence
  generalize 0 = applied
  induction rows generalizing overlay lastSequence applied with
  | nil => exact indexed
  | cons row rest ih =>
    unfold SyncRow.applyFrom
    cases lastSequence.filter fun previous => row.sequence ≤ previous with
    | some previous => exact indexed
    | none =>
      -- The action is one of the changes, and the other rows are replayed after it.
      refine ih ?_ _ _
      cases row.action with
      | insertEdge source target => exact indexed.edit (.pushEdge ⟨source, target⟩)
      | removeOverlayEdge source target => exact indexed.edit (.removeEdge source target)
      | deleteEdge edgeId => exact indexed.edit (.tombstoneEdge edgeId)
      | deleteNode nodeId => exact indexed.edit (.tombstoneNode nodeId)
      | truncateOverlays => exact indexed.edit .clear

/-- A new overlay is indexed. -/
theorem indexed_default : OverlayState.default.Indexed := groups_nil

end OverlayState

end Oxgraph.Postgres
