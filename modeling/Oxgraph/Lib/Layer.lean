import Oxgraph.Lib.TreeMap

/-! A delta layered over a base map: point reads, the two-way merge walk, and nested maps. -/

namespace Oxgraph

open List (length_cons mem_cons mem_map pairwise_map)

section Nested

variable {J K V : Type} [Ord J] [Std.TransOrd J] [Ord K] [Std.TransOrd K]
  (maps : BTreeMap J (BTreeMap K V))

/-- The binding at an outer and an inner key. -/
def nestedGet (outer : J) (inner : K) : Option V :=
  maps[outer]?.bind fun entries => entries[inner]?

/-- Binds an inner key under an outer key, whose map starts empty when it is absent. -/
def nestedInsert (outer : J) (inner : K) (value : V) :
    BTreeMap J (BTreeMap K V) :=
  maps.insert outer ((maps.getD outer ∅).insert inner value)

/-- The bindings of a map of maps as one list over key pairs. -/
def nestedEntries : List ((J × K) × V) :=
  maps.toList.flatMap fun outer => outer.2.toList.map fun inner => ((outer.1, inner.1), inner.2)

variable [Std.LawfulEqOrd J] [DecidableEq J] [Std.LawfulEqOrd K] [DecidableEq K]

/-- Binding one pair of keys leaves every other pair alone. -/
theorem nestedGet_insert (outer probe : J) (inner key : K)
    (value : V) : nestedGet (nestedInsert maps outer inner value) probe key =
      if outer = probe ∧ inner = key then some value else nestedGet maps probe key := by
  rw [nestedGet, nestedInsert, get_insert, nestedGet]
  by_cases same : outer = probe
  · subst same
    simp only [if_true, Option.bind_some, get_insert, true_and]
    rw [Std.ExtTreeMap.getD_eq_getD_getElem?]
    cases maps[outer]? <;> simp
  · simp [same]

omit [DecidableEq J] [DecidableEq K] in
/-- The listed bindings are exactly those the nested map reads. -/
theorem mem_nestedEntries {maps : BTreeMap J (BTreeMap K V)} {outer : J} {inner : K} {value : V} :
    ((outer, inner), value) ∈ nestedEntries maps ↔ nestedGet maps outer inner = some value := by
  simp only [nestedEntries, List.mem_flatMap, mem_map, nestedGet, Option.bind_eq_some_iff]
  constructor
  · rintro ⟨⟨listed, entries⟩, listedOuter, ⟨key, found⟩, listedInner, same⟩
    cases same
    exact ⟨entries, mem_toList.mp listedOuter, mem_toList.mp listedInner⟩
  · rintro ⟨entries, readOuter, readInner⟩
    exact ⟨(outer, entries), mem_toList.mpr readOuter, (inner, value), mem_toList.mpr readInner, rfl⟩

omit [DecidableEq J] [Std.LawfulEqOrd K] [DecidableEq K] in
/-- The listed bindings ascend by outer key, then by inner key. -/
theorem ascending_nestedEntries :
    Ascending ((nestedEntries maps).map Prod.fst) := by
  rw [Ascending, pairwise_map, nestedEntries, List.pairwise_flatMap]
  constructor
  · rintro ⟨outer, entries⟩ _
    rw [pairwise_map]
    refine (pairwise_map.mp (ascending_toList entries)).imp ?_
    intro left right before
    simp [compare_pair, Std.ReflOrd.compare_self, before]
  · refine (pairwise_map.mp (ascending_toList maps)).imp ?_
    intro left right before first memberLeft second memberRight
    obtain ⟨_, _, rfl⟩ := mem_map.mp memberLeft
    obtain ⟨_, _, rfl⟩ := mem_map.mp memberRight
    simp [compare_pair, before]

/-- Binding listed pairs one by one reads what binding them in a flat map reads. -/
theorem nestedGet_foldl (entries : List ((J × K) × V)) (maps : BTreeMap J (BTreeMap K V))
    (flat : BTreeMap (J × K) V)
    (same : ∀ outer inner, nestedGet maps outer inner = flat[(outer, inner)]?) (outer : J)
    (inner : K) :
    nestedGet (entries.foldl (fun maps entry => nestedInsert maps entry.1.1 entry.1.2 entry.2) maps)
        outer inner =
      (entries.foldl (fun flat entry => flat.insert entry.1 entry.2) flat)[(outer, inner)]? := by
  induction entries generalizing maps flat with
  | nil => exact same outer inner
  | cons head rest ih =>
    refine ih _ _ ?_
    intro probe key
    rw [nestedGet_insert, get_insert, same]
    simp only [Prod.ext_iff]

/-- Grouping bindings that agree on each pair of keys reads exactly the listed bindings. -/
theorem nestedGet_group {entries : List ((J × K) × V)}
    (agree : ∀ {key value other}, (key, value) ∈ entries → (key, other) ∈ entries → value = other)
    {outer : J} {inner : K} {value : V} :
    nestedGet (entries.foldl (fun maps entry => nestedInsert maps entry.1.1 entry.1.2 entry.2) ∅)
        outer inner = some value ↔ ((outer, inner), value) ∈ entries := by
  have empty (outer : J) (inner : K) :
      nestedGet (∅ : BTreeMap J (BTreeMap K V)) outer inner =
        (∅ : BTreeMap (J × K) V)[(outer, inner)]? := by
    simp [nestedGet]
  have built : Std.ExtTreeMap.ofList entries compare =
      entries.foldl (fun flat entry => flat.insert entry.1 entry.2) ∅ :=
    Std.ExtTreeMap.ofList_eq_foldl
  rw [nestedGet_foldl entries ∅ ∅ empty, ← built, get_ofList_of_agree agree]

end Nested

section Layered

variable {K V : Type} [Ord K] [Std.TransOrd K]

/-- Reads a delta first and falls through to the base; a `none` entry masks the base. -/
def layered (base : BTreeMap K V) (delta : BTreeMap K (Option V)) (key : K) : Option V :=
  match delta[key]? with
  | some entry => entry
  | none => base[key]?

/-- A partial function with what one key reads replaced. -/
def override {I W : Type} [DecidableEq I] (read : I → Option W) (key : I) (slot : Option W) :
    I → Option W :=
  fun probe => if key = probe then slot else read probe

/-- Sets a key to a value, or removes it. -/
def setEntry (map : BTreeMap K V) (key : K) (entry : Option V) : BTreeMap K V :=
  match entry with
  | some value => map.insert key value
  | none => map.erase key

/-- Applies listed set and remove entries to a map. -/
def applyDelta (base : BTreeMap K V) (entries : List (K × Option V)) : BTreeMap K V :=
  entries.foldl (fun map entry => setEntry map entry.1 entry.2) base

variable [Std.LawfulEqOrd K] [DecidableEq K]

/-- Setting one key leaves every other key alone. -/
theorem get_setEntry (map : BTreeMap K V) (key probe : K) (entry : Option V) :
    (setEntry map key entry)[probe]? = if key = probe then entry else map[probe]? := by
  cases entry with
  | none => exact get_erase map key probe
  | some value => exact get_insert map key probe value

/-- Setting one key of a delta leaves what every other key reads alone. -/
theorem layered_insert (base : BTreeMap K V) (delta : BTreeMap K (Option V)) (key probe : K)
    (entry : Option V) :
    layered base (delta.insert key entry) probe = override (layered base delta) key entry probe := by
  unfold layered override
  rw [get_insert]
  by_cases same : key = probe <;> simp [same]

/-- Applying distinct entries overrides the base at exactly their keys. -/
theorem get_applyDelta (base : BTreeMap K V) {entries : List (K × Option V)}
    (distinct : (entries.map Prod.fst).Nodup) (key : K) :
    (∀ entry, (key, entry) ∈ entries → (applyDelta base entries)[key]? = entry) ∧
      (key ∉ entries.map Prod.fst → (applyDelta base entries)[key]? = base[key]?) := by
  -- The fold is walked from its first entry, whose key the later ones do not repeat.
  induction entries generalizing base with
  | nil => simp [applyDelta]
  | cons head rest ih =>
    obtain ⟨headKey, headEntry⟩ := head
    rw [List.map_cons, List.nodup_cons] at distinct
    obtain ⟨fresh, distinctRest⟩ := distinct
    have step : applyDelta base ((headKey, headEntry) :: rest) =
        applyDelta (setEntry base headKey headEntry) rest := rfl
    obtain ⟨listed, unlisted⟩ := ih (setEntry base headKey headEntry) distinctRest
    rw [step]
    constructor
    · intro entry member
      rcases mem_cons.mp member with same | later
      · cases same
        rw [unlisted fresh, get_setEntry, if_pos rfl]
      · exact listed entry later
    · intro absent
      rw [List.map_cons, mem_cons, not_or] at absent
      rw [unlisted absent.2, get_setEntry, if_neg (fun same => absent.1 same.symm)]

/-- Applying a delta's own entries reads as the delta layered over the base. -/
theorem get_applyDelta_toList (base : BTreeMap K V) (delta : BTreeMap K (Option V)) (key : K) :
    (applyDelta base delta.toList)[key]? = layered base delta key := by
  have applied := get_applyDelta base (ascending_toList delta).nodup key
  unfold layered
  cases found : delta[key]? with
  | some entry => exact applied.1 entry (mem_toList.mpr found)
  | none =>
    refine applied.2 ?_
    intro member
    obtain ⟨⟨listed, entry⟩, listedMember, rfl⟩ := mem_map.mp member
    rw [mem_toList.mp listedMember] at found
    cases found

end Layered

section Merge

/-- One outcome of a single merge step. -/
inductive Step (T : Type) where
  -- Both streams are exhausted.
  | done
  -- Emit this visible item.
  | yield (item : T)
  -- A tombstone was consumed; retry the next decision.
  | again

/-- An ascending base stream and an ascending overlay stream being merged. -/
structure MergeIter (K V : Type) where
  base : List (K × V)
  overlay : List (K × Option V)

namespace MergeIter

variable {K V : Type}

/-- Advances the base cursor and emits the consumed base item. -/
def takeBase (iter : MergeIter K V) : Step (K × V) × MergeIter K V :=
  match iter.base with
  | [] => (.done, iter)
  | item :: rest => (.yield item, { iter with base := rest })

/-- Advances the overlay cursor, consuming a masked base item first. -/
def takeOverlay (iter : MergeIter K V) (maskBase : Bool) : Step (K × V) × MergeIter K V :=
  let base := if maskBase then iter.base.tail else iter.base
  match iter.overlay with
  | [] => (.done, { iter with base })
  | (key, entry) :: overlay =>
    match entry with
    | some value => (.yield (key, value), { base, overlay })
    | none => (.again, { base, overlay })

/-- Advances the merge by one decision over the heads of the two streams. -/
def step [Ord K] (iter : MergeIter K V) : Step (K × V) × MergeIter K V :=
  match iter.base.head?.map Prod.fst, iter.overlay.head?.map Prod.fst with
  | none, none => (.done, iter)
  | some _, none => iter.takeBase
  | none, some _ => iter.takeOverlay false
  | some base, some overlay =>
    if compare base overlay = .lt then iter.takeBase
    else iter.takeOverlay (compare base overlay = .eq)

/-- Runs the merge until both streams are exhausted; every step but the last consumes an item. -/
def collect [Ord K] : Nat → MergeIter K V → List (K × V)
  | 0, _ => []
  | fuel + 1, iter =>
    match iter.step with
    | (.done, _) => []
    | (.yield item, iter) => item :: collect fuel iter
    | (.again, iter) => collect fuel iter

end MergeIter

/-- Merges an ascending base stream with an ascending overlay stream, the overlay winning. -/
def mergeEntries {K V : Type} [Ord K] (base : List (K × V)) (overlay : List (K × Option V)) :
    List (K × V) :=
  MergeIter.collect (base.length + overlay.length + 1) ⟨base, overlay⟩

section Walk

variable {K V : Type} [Ord K]

/-- Puts an item in front unless its entry is a tombstone. -/
def emitUnmasked (key : K) (entry : Option V) (rest : List (K × V)) : List (K × V) :=
  match entry with
  | some value => (key, value) :: rest
  | none => rest

/-- With the overlay exhausted, the merge emits the base head. -/
theorem collect_base_only (fuel : Nat) (key : K) (value : V) (base : List (K × V)) :
    MergeIter.collect (fuel + 1) ⟨(key, value) :: base, []⟩ =
      emitUnmasked key (some value) (MergeIter.collect fuel ⟨base, []⟩) := rfl

/-- With the base exhausted, the merge emits the overlay head. -/
theorem collect_overlay_only (fuel : Nat) (key : K) (entry : Option V)
    (overlay : List (K × Option V)) :
    MergeIter.collect (fuel + 1) ⟨[], (key, entry) :: overlay⟩ =
      emitUnmasked key entry (MergeIter.collect fuel ⟨[], overlay⟩) := by
  cases entry <;> rfl

variable {overlay : List (K × Option V)} {base : List (K × V)} {entry : Option V}
  {baseKey key : K}

/-- A strictly smaller base head is emitted first. -/
theorem collect_lt {fuel : Nat} {value : V} (order : compare baseKey key = .lt) :
    MergeIter.collect (fuel + 1) ⟨(baseKey, value) :: base, (key, entry) :: overlay⟩ =
      emitUnmasked baseKey (some value) (MergeIter.collect fuel ⟨base, (key, entry) :: overlay⟩) := by
  simp [MergeIter.collect, MergeIter.step, MergeIter.takeBase, order, emitUnmasked]

/-- An overlay head that shares the base head's key masks it. -/
theorem collect_eq {fuel : Nat} {value : V} (order : compare baseKey key = .eq) :
    MergeIter.collect (fuel + 1) ⟨(baseKey, value) :: base, (key, entry) :: overlay⟩ =
      emitUnmasked key entry (MergeIter.collect fuel ⟨base, overlay⟩) := by
  cases entry <;>
    simp [MergeIter.collect, MergeIter.step, MergeIter.takeOverlay, order, emitUnmasked]

/-- A strictly smaller overlay head is emitted first. -/
theorem collect_gt {fuel : Nat} {value : V} (order : compare baseKey key = .gt) :
    MergeIter.collect (fuel + 1) ⟨(baseKey, value) :: base, (key, entry) :: overlay⟩ =
      emitUnmasked key entry (MergeIter.collect fuel ⟨(baseKey, value) :: base, overlay⟩) := by
  cases entry <;>
    simp [MergeIter.collect, MergeIter.step, MergeIter.takeOverlay, order, emitUnmasked]

end Walk

/-- The merge emits overlay values, and base values whose key the overlay does not mention. -/
def Merged {K V : Type} (base : List (K × V)) (overlay : List (K × Option V)) (key : K)
    (value : V) : Prop :=
  (key, some value) ∈ overlay ∨ (key, value) ∈ base ∧ key ∉ overlay.map Prod.fst

section Members

variable {K V : Type} {base : List (K × V)} {overlay : List (K × Option V)} {key : K} {value : V}

/-- A merged key comes from one of the two streams. -/
theorem Merged.key_mem (merged : Merged base overlay key value) :
    key ∈ base.map Prod.fst ∨ key ∈ overlay.map Prod.fst := by
  rcases merged with member | ⟨member, _⟩
  · exact .inr (List.mem_map_of_mem (f := Prod.fst) member)
  · exact .inl (List.mem_map_of_mem (f := Prod.fst) member)

/-- A base head the overlay does not mention is merged alongside the rest. -/
theorem merged_base_head {head : K} {headValue : V} (unmentioned : head ∉ overlay.map Prod.fst) :
    Merged ((head, headValue) :: base) overlay key value ↔
      (key = head ∧ some headValue = some value) ∨ Merged base overlay key value := by
  unfold Merged
  rw [mem_cons, Prod.mk.injEq, Option.some.injEq, eq_comm (a := headValue)]
  constructor
  · rintro (mem | ⟨same | mem, absent⟩)
    · exact .inr (.inl mem)
    · exact .inl same
    · exact .inr (.inr ⟨mem, absent⟩)
  · rintro (⟨rfl, same⟩ | mem | ⟨mem, absent⟩)
    · exact .inr ⟨.inl ⟨rfl, same⟩, unmentioned⟩
    · exact .inl mem
    · exact .inr ⟨.inr mem, absent⟩

/-- An overlay head over a base without its key is merged alongside the rest. -/
theorem merged_overlay_head {head : K} {entry : Option V} (fresh : head ∉ base.map Prod.fst) :
    Merged base ((head, entry) :: overlay) key value ↔
      (key = head ∧ entry = some value) ∨ Merged base overlay key value := by
  unfold Merged
  rw [mem_cons, List.map_cons, mem_cons, Prod.mk.injEq, eq_comm (a := some value)]
  constructor
  · rintro ((same | mem) | ⟨mem, absent⟩)
    · exact .inl same
    · exact .inr (.inl mem)
    · exact .inr (.inr ⟨mem, fun member => absent (.inr member)⟩)
  · rintro (same | mem | ⟨mem, absent⟩)
    · exact .inl (.inl same)
    · exact .inl (.inr mem)
    · refine .inr ⟨mem, ?_⟩
      rintro (rfl | member)
      · exact fresh (List.mem_map_of_mem (f := Prod.fst) mem)
      · exact absent member

/-- A base head the overlay mentions is never merged. -/
theorem merged_masked {head : K} {headValue : V} (mentioned : head ∈ overlay.map Prod.fst) :
    Merged ((head, headValue) :: base) overlay key value ↔ Merged base overlay key value := by
  unfold Merged
  rw [mem_cons, Prod.mk.injEq]
  constructor
  · rintro (mem | ⟨⟨rfl, _⟩ | mem, absent⟩)
    · exact .inl mem
    · exact absurd mentioned absent
    · exact .inr ⟨mem, absent⟩
  · rintro (mem | ⟨mem, absent⟩)
    · exact .inl mem
    · exact .inr ⟨.inr mem, absent⟩

end Members

variable {K V : Type} [Ord K]

/-- The items are exactly the merged ones, in ascending key order. -/
def MergedInOrder (items : List (K × V)) (base : List (K × V)) (overlay : List (K × Option V)) :
    Prop :=
  (∀ key value, (key, value) ∈ items ↔ Merged base overlay key value) ∧
    Ascending (items.map Prod.fst)

/-- Emitting a head below both streams extends a merge that is in order. -/
theorem MergedInOrder.emit {items base base' : List (K × V)} {overlay overlay' : List (K × Option V)}
    {head : K} {entry : Option V} (inOrder : MergedInOrder items base overlay)
    (extended : ∀ key value, Merged base' overlay' key value ↔
      (key = head ∧ entry = some value) ∨ Merged base overlay key value)
    (belowBase : ∀ key ∈ base.map Prod.fst, compare head key = .lt)
    (belowOverlay : ∀ key ∈ overlay.map Prod.fst, compare head key = .lt) :
    MergedInOrder (emitUnmasked head entry items) base' overlay' := by
  obtain ⟨members, sorted⟩ := inOrder
  cases entry with
  | none =>
    refine ⟨?_, sorted⟩
    intro key value
    rw [extended]
    simpa [emitUnmasked] using members key value
  | some headValue =>
    constructor
    · intro key value
      rw [extended, emitUnmasked, mem_cons, members, Prod.mk.injEq, Option.some.injEq,
        eq_comm (a := headValue)]
    · rw [emitUnmasked, List.map_cons, ascending_cons]
      refine ⟨?_, sorted⟩
      intro key member
      obtain ⟨⟨_, value⟩, listed, rfl⟩ := mem_map.mp member
      rcases ((members _ value).mp listed).key_mem with inBase | inOverlay
      · exact belowBase _ inBase
      · exact belowOverlay _ inOverlay

variable [Std.TransOrd K]

/-- A key below the head of an ascending list is below all of it. -/
theorem below_cons {first head : K} {tail : List K} (before : compare first head = .lt)
    (below : ∀ key ∈ tail, compare head key = .lt) :
    ∀ key ∈ head :: tail, compare first key = .lt := by
  intro key member
  rcases mem_cons.mp member with rfl | later
  · exact before
  · exact Std.TransCmp.lt_trans before (below key later)

/-- A key below every member of a list is not one of them. -/
theorem not_mem_of_below {head : K} {keys : List K}
    (below : ∀ key ∈ keys, compare head key = .lt) : head ∉ keys :=
  fun member => compare_self_ne_lt head (below head member)

variable [Std.LawfulEqOrd K] {base : List (K × V)}

/-- With enough fuel the merge emits exactly the visible items, in ascending key order. -/
theorem collect_inOrder {overlay : List (K × Option V)} {fuel : Nat}
    (baseSorted : Ascending (base.map Prod.fst))
    (overlaySorted : Ascending (overlay.map Prod.fst))
    (enough : base.length + overlay.length < fuel) :
    MergedInOrder (MergeIter.collect fuel ⟨base, overlay⟩) base overlay := by
  -- Each step emits the smaller head, so the induction is on the fuel.
  induction fuel generalizing base overlay with
  | zero => omega
  | succ fuel ih =>
    cases base with
    | nil =>
      cases overlay with
      | nil => simp [MergedInOrder, MergeIter.collect, MergeIter.step, Merged]
      | cons head overlay =>
        have below := (ascending_cons.mp overlaySorted).1
        rw [collect_overlay_only]
        refine (@ih [] _ (by simp) (ascending_cons.mp overlaySorted).2 ?_).emit
          (fun key value => merged_overlay_head (by simp)) (by simp) below
        simp only [length_cons, List.length_nil] at enough ⊢
        omega
    | cons baseHead base =>
      have belowBase := (ascending_cons.mp baseSorted).1
      have baseTail := (ascending_cons.mp baseSorted).2
      cases overlay with
      | nil =>
        rw [collect_base_only]
        refine (@ih _ [] baseTail (by simp) ?_).emit
          (fun key value => merged_base_head (by simp)) belowBase (by simp)
        simp only [length_cons, List.length_nil] at enough ⊢
        omega
      | cons head overlay =>
        have below := (ascending_cons.mp overlaySorted).1
        have overlayTail := (ascending_cons.mp overlaySorted).2
        simp only [length_cons] at enough
        cases order : compare baseHead.1 head.1 with
        | lt =>
          have belowOverlay := below_cons order below
          rw [collect_lt order]
          exact (ih baseTail overlaySorted (by simp only [length_cons]; omega)).emit
            (fun key value => merged_base_head (not_mem_of_below belowOverlay)) belowBase
            belowOverlay
        | eq =>
          -- The overlay head masks the base head, which shares its key.
          have same : baseHead.1 = head.1 := Std.LawfulEqOrd.eq_of_compare order
          rw [same] at belowBase
          rw [collect_eq order]
          refine (ih baseTail overlayTail (by omega)).emit ?_ belowBase below
          intro key value
          rw [merged_masked (by simp [same]), merged_overlay_head (not_mem_of_below belowBase)]
        | gt =>
          have above : compare head.1 baseHead.1 = .lt := by
            rw [Std.OrientedOrd.eq_swap (a := head.1), order]
            rfl
          have belowAll := below_cons above belowBase
          rw [collect_gt order]
          exact (ih baseSorted overlayTail (by simp only [length_cons]; omega)).emit
            (fun key value => merged_overlay_head (not_mem_of_below belowAll)) belowAll below

/-- Merging two ascending streams emits exactly the visible items. -/
theorem mem_mergeEntries {overlay : List (K × Option V)}
    (baseSorted : Ascending (base.map Prod.fst))
    (overlaySorted : Ascending (overlay.map Prod.fst)) {key : K} {value : V} :
    (key, value) ∈ mergeEntries base overlay ↔ Merged base overlay key value :=
  (collect_inOrder baseSorted overlaySorted (Nat.lt_succ_self _)).1 key value

/-- Merging two ascending streams emits ascending keys. -/
theorem ascending_mergeEntries {overlay : List (K × Option V)}
    (baseSorted : Ascending (base.map Prod.fst))
    (overlaySorted : Ascending (overlay.map Prod.fst)) :
    Ascending ((mergeEntries base overlay).map Prod.fst) :=
  (collect_inOrder baseSorted overlaySorted (Nat.lt_succ_self _)).2

/-- Merging a map's entries with a delta's emits exactly what the layered read sees. -/
theorem mem_mergeEntries_toList (base : BTreeMap K V) (delta : BTreeMap K (Option V)) {key : K}
    {value : V} :
    (key, value) ∈ mergeEntries base.toList delta.toList ↔ layered base delta key = some value := by
  rw [mem_mergeEntries (ascending_toList base) (ascending_toList delta)]
  unfold Merged layered
  rw [mem_toList, mem_toList]
  have mentioned : key ∈ delta.toList.map Prod.fst ↔ ∃ entry, delta[key]? = some entry := by
    simp only [mem_map, Prod.exists, exists_and_right, exists_eq_right, mem_toList]
  rw [mentioned]
  cases found : delta[key]? with
  | none => simp
  | some entry => simp

end Merge

/-- Items list a partial function: each defined key once, in strictly ascending order. -/
structure Enumerates {K V : Type} [Ord K] (items : List (K × V)) (read : K → Option V) : Prop where
  ascending : Ascending (items.map Prod.fst)
  mem : ∀ key value, (key, value) ∈ items ↔ read key = some value

section Enumerates

variable {K V : Type} [Ord K] [Std.TransOrd K]

/-- Only one list enumerates a partial function. -/
theorem Enumerates.unique {left right : List (K × V)} {read : K → Option V}
    (leftLists : Enumerates left read) (rightLists : Enumerates right read) : left = right := by
  apply ext_of_ascending_keys leftLists.ascending rightLists.ascending
  intro item
  exact (leftLists.mem item.1 item.2).trans (rightLists.mem item.1 item.2).symm

/-- A map's entries enumerate its reads. -/
theorem enumerates_toList [Std.LawfulEqOrd K] [DecidableEq K] (map : BTreeMap K V) :
    Enumerates map.toList fun key => map[key]? where
  ascending := ascending_toList map
  mem _ _ := mem_toList

variable {J : Type} [Ord J] [Std.ReflOrd J] [DecidableEq J]

omit [Std.TransOrd K] in
/-- The items under one outer key enumerate what is read under it. -/
theorem Enumerates.fiber {items : List ((J × K) × V)} {read : J × K → Option V}
    (lists : Enumerates items read) (outer : J) :
    Enumerates ((items.filter fun item => item.1.1 = outer).map fun item => (item.1.2, item.2))
      fun inner => read (outer, inner) where
  ascending := by
    -- Two kept items share the outer key, so the inner keys alone decide their order.
    have sorted := (pairwise_map.mp lists.ascending).filter fun item => item.1.1 = outer
    rw [Ascending, List.map_map, pairwise_map]
    apply sorted.imp_of_mem
    intro before after memberBefore memberAfter order
    have ownBefore := of_decide_eq_true (List.mem_filter.mp memberBefore).2
    have ownAfter := of_decide_eq_true (List.mem_filter.mp memberAfter).2
    rw [compare_pair, ownBefore, ownAfter, Std.ReflOrd.compare_self] at order
    exact order
  mem inner value := by
    rw [← lists.mem, mem_map]
    constructor
    · rintro ⟨⟨⟨other, key⟩, carried⟩, kept, same⟩
      obtain ⟨listed, own⟩ := List.mem_filter.mp kept
      obtain rfl := of_decide_eq_true own
      cases same
      exact listed
    · intro listed
      exact ⟨((outer, inner), value), List.mem_filter.mpr ⟨listed, by simp⟩, rfl⟩

end Enumerates

end Oxgraph
