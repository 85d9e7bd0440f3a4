import Mathlib.Tactic

/-! Ordered maps and sets, their ascending iteration order, and lists in that order. -/

namespace Oxgraph

/-- An ordered map, iterated in ascending key order. -/
abbrev BTreeMap (K V : Type) [Ord K] := Std.ExtTreeMap K V (compare : K → K → Ordering)

/-- An ordered set, iterated in ascending order. -/
abbrev BTreeSet (K : Type) [Ord K] := Std.ExtTreeSet K (compare : K → K → Ordering)

/-- Pairs compare by their first component, then by their second. -/
instance instOrdPair {α β : Type} [Ord α] [Ord β] : Ord (α × β) := lexOrd

/-- Comparing pairs compares their components in turn. -/
theorem compare_pair {α β : Type} [Ord α] [Ord β] (left right : α × β) :
    compare left right = (compare left.1 right.1).then (compare left.2 right.2) := rfl

section Ascending

variable {K : Type} [Ord K]

/-- The list is in strictly ascending order. -/
def Ascending (items : List K) : Prop :=
  items.Pairwise fun left right => compare left right = .lt

@[simp] theorem ascending_nil : Ascending ([] : List K) := List.Pairwise.nil

/-- A longer ascending list starts below everything that follows. -/
theorem ascending_cons {head : K} {tail : List K} :
    Ascending (head :: tail) ↔ (∀ item ∈ tail, compare head item = .lt) ∧ Ascending tail :=
  List.pairwise_cons

/-- Dropping items keeps an ascending list ascending. -/
theorem Ascending.filter {items : List K} (sorted : Ascending items) (keep : K → Bool) :
    Ascending (items.filter keep) :=
  List.Pairwise.filter keep sorted

/-- The order is irreflexive. -/
theorem compare_self_ne_lt [Std.ReflOrd K] (item : K) : compare item item ≠ .lt := by
  simp [Std.ReflOrd.compare_self]

/-- Two keys cannot each come before the other. -/
theorem not_compare_lt_symm [Std.OrientedOrd K] {left right : K}
    (before : compare left right = .lt) : compare right left ≠ .lt := by
  intro after
  rw [Std.OrientedOrd.eq_swap (a := right), before] at after
  simp at after

variable [Std.TransOrd K]

/-- An ascending list repeats nothing. -/
theorem Ascending.nodup {items : List K} (sorted : Ascending items) : items.Nodup := by
  refine List.Pairwise.imp ?_ sorted
  rintro item _ before rfl
  exact compare_self_ne_lt item before

/-- Ascending lists with the same members are the same list. -/
theorem Ascending.ext {left right : List K} (leftSorted : Ascending left)
    (rightSorted : Ascending right) (same : ∀ item, item ∈ left ↔ item ∈ right) : left = right := by
  -- Both are duplicate-free, so they are permutations, and a strict order fixes the arrangement.
  have perm : left.Perm right :=
    (List.perm_ext_iff_of_nodup leftSorted.nodup rightSorted.nodup).mpr same
  exact perm.eq_of_pairwise (fun _ _ _ _ before after => (not_compare_lt_symm before after).elim)
    leftSorted rightSorted

/-- Lists of bindings in ascending key order with the same members are the same list. -/
theorem ext_of_ascending_keys {V : Type} {left right : List (K × V)}
    (leftSorted : Ascending (left.map Prod.fst)) (rightSorted : Ascending (right.map Prod.fst))
    (same : ∀ item, item ∈ left ↔ item ∈ right) : left = right := by
  have perm : left.Perm right :=
    (List.perm_ext_iff_of_nodup (List.Nodup.of_map _ leftSorted.nodup)
      (List.Nodup.of_map _ rightSorted.nodup)).mpr same
  exact perm.eq_of_pairwise (fun _ _ _ _ before after => (not_compare_lt_symm before after).elim)
    (List.pairwise_map.mp leftSorted) (List.pairwise_map.mp rightSorted)

end Ascending

section Maps

variable {K V : Type} [Ord K] [Std.TransOrd K]

/-- The empty map lists nothing. -/
theorem toList_empty : (∅ : BTreeMap K V).toList = [] := rfl

/-- A map iterates its keys in ascending order. -/
theorem ascending_toList (map : BTreeMap K V) : Ascending (map.toList.map Prod.fst) :=
  List.pairwise_map.mpr Std.ExtTreeMap.ordered_keys_toList

variable [Std.LawfulEqOrd K] [DecidableEq K]

/-- Reading after an insertion sees the new value at its key and the old map elsewhere. -/
theorem get_insert (map : BTreeMap K V) (key probe : K) (value : V) :
    (map.insert key value)[probe]? = if key = probe then some value else map[probe]? := by
  simp [Std.ExtTreeMap.getElem?_insert]

/-- Reading after a removal sees nothing at its key and the old map elsewhere. -/
theorem get_erase (map : BTreeMap K V) (key probe : K) :
    (map.erase key)[probe]? = if key = probe then none else map[probe]? := by
  simp [Std.ExtTreeMap.getElem?_erase]

variable {map : BTreeMap K V} {value : V}

omit [DecidableEq K] in
/-- The entries of a map are exactly the bindings it reads. -/
theorem mem_toList {key : K} : (key, value) ∈ map.toList ↔ map[key]? = some value :=
  Std.ExtTreeMap.mem_toList_iff_getElem?_eq_some

/-- Building a map from bindings that agree on each key reads exactly the listed bindings. -/
theorem get_ofList_of_agree {entries : List (K × V)}
    (agree : ∀ {key value other}, (key, value) ∈ entries → (key, other) ∈ entries → value = other)
    {key : K} :
    (Std.ExtTreeMap.ofList entries compare)[key]? = some value ↔ (key, value) ∈ entries := by
  -- The fold is generalized over the map it starts from, whose bindings the entries overwrite.
  have fold (start : BTreeMap K V) :
      (entries.foldl (fun map entry => map.insert entry.1 entry.2) start)[key]? = some value ↔
        (key, value) ∈ entries ∨ (key ∉ entries.map Prod.fst ∧ start[key]? = some value) := by
    induction entries generalizing start with
    | nil => simp
    | cons head rest ih =>
      obtain ⟨headKey, headValue⟩ := head
      have agreeRest : ∀ {key value other}, (key, value) ∈ rest → (key, other) ∈ rest →
          value = other := fun member other =>
        agree (List.mem_cons_of_mem _ member) (List.mem_cons_of_mem _ other)
      rw [List.foldl_cons, ih agreeRest, get_insert]
      by_cases same : headKey = key
      · subst same
        constructor
        · rintro (member | ⟨_, read⟩)
          · exact .inl (by simp [member])
          · simp only [if_true, Option.some.injEq] at read
            subst read
            exact .inl (by simp)
        · rintro (member | ⟨absent, _⟩)
          · obtain rfl : headValue = value := agree List.mem_cons_self member
            by_cases listed : headKey ∈ rest.map Prod.fst
            · obtain ⟨⟨_, other⟩, found, rfl⟩ := List.mem_map.mp listed
              obtain rfl : headValue = other :=
                agree List.mem_cons_self (List.mem_cons_of_mem _ found)
              exact .inl found
            · exact .inr ⟨listed, by simp⟩
          · simp at absent
      · simp [same, Ne.symm same]
  have built : Std.ExtTreeMap.ofList entries compare =
      entries.foldl (fun map entry => map.insert entry.1 entry.2) ∅ :=
    Std.ExtTreeMap.ofList_eq_foldl
  rw [built, fold]
  simp

omit [Std.LawfulEqOrd K] [DecidableEq K] in
/-- The entries of a map between two keys, both included, in ascending order. -/
def mapRange (map : BTreeMap K V) (first last : K) : List (K × V) :=
  map.toList.filter fun entry => (compare first entry.1).isLE && (compare entry.1 last).isLE

omit [Std.LawfulEqOrd K] [DecidableEq K] in
/-- The entries of a map from a key on, in ascending order. -/
def mapFrom (map : BTreeMap K V) (first : K) : List (K × V) :=
  map.toList.filter fun entry => (compare first entry.1).isLE

omit [DecidableEq K] in
/-- A range lists exactly the bindings between its keys. -/
theorem mem_mapRange {first last key : K} :
    (key, value) ∈ mapRange map first last ↔
      map[key]? = some value ∧ (compare first key).isLE ∧ (compare key last).isLE := by
  simp [mapRange]

omit [DecidableEq K] in
/-- A tail lists exactly the bindings from its key on. -/
theorem mem_mapFrom {first key : K} :
    (key, value) ∈ mapFrom map first ↔ map[key]? = some value ∧ (compare first key).isLE := by
  simp [mapFrom]

/-- Taking while a predicate that holds of a prefix holds keeps exactly the items it holds of. -/
theorem takeWhile_eq_filter {T : Type} {items : List T} {holds : T → Bool}
    (partitioned : items.Pairwise fun before after => holds after → holds before) :
    items.takeWhile holds = items.filter holds := by
  induction items with
  | nil => rfl
  | cons item rest ih =>
    obtain ⟨later, partitionedRest⟩ := List.pairwise_cons.mp partitioned
    cases found : holds item with
    | true => rw [List.takeWhile_cons_of_pos found, List.filter_cons_of_pos found,
        ih partitionedRest]
    | false =>
      have none : rest.filter holds = [] := by
        rw [List.filter_eq_nil_iff]
        intro other member satisfied
        have := later other member satisfied
        rw [found] at this
        cases this
      rw [List.takeWhile_cons_of_neg (by simp [found]), List.filter_cons_of_neg (by simp [found]),
        none]

section Pairs

variable {J W : Type} [Ord J] [Std.TransOrd J] [Std.LawfulEqOrd J]

omit [DecidableEq K] in
/-- The bindings of one first component are those of the tail that starts at its least key. -/
theorem mem_takeWhile_mapFrom [DecidableEq J] {map : BTreeMap (J × K) W} {outer : J} {least : K}
    (bottom : ∀ inner, (compare least inner).isLE) {key : J × K} {value : W} :
    (key, value) ∈ (mapFrom map (outer, least)).takeWhile (fun entry => entry.1.1 = outer) ↔
      map[key]? = some value ∧ key.1 = outer := by
  have ordered : (mapFrom map (outer, least)).Pairwise fun before after =>
      decide (after.1.1 = outer) = true → decide (before.1.1 = outer) = true := by
    have sorted := (List.pairwise_map.mp (ascending_toList map)).filter
      fun entry => (compare (outer, least) entry.1).isLE
    refine sorted.imp_of_mem ?_
    -- An entry from the least key on, before one with the first component, cannot exceed it.
    intro before after member _ order inside
    have above := (List.mem_filter.mp member).2
    simp only [decide_eq_true_iff] at inside ⊢
    rw [compare_pair] at above order
    rw [inside] at order
    cases lower : compare before.1.1 outer with
    | eq => exact Std.LawfulEqOrd.eq_of_compare lower
    | gt => simp [lower] at order
    | lt =>
      have upper : compare outer before.1.1 = .gt := by
        rw [Std.OrientedOrd.eq_swap (a := outer), lower]
        rfl
      simp [upper] at above
  rw [takeWhile_eq_filter ordered, List.mem_filter, mem_mapFrom, decide_eq_true_iff, and_assoc]
  refine and_congr_right fun _ => ⟨And.right, ?_⟩
  intro same
  refine ⟨?_, same⟩
  rw [compare_pair, same, Std.ReflOrd.compare_self]
  exact bottom key.2

omit [DecidableEq K] in
/-- The bindings between two keys with one first component share it, between the second ones. -/
theorem mem_mapRange_pair {map : BTreeMap (J × K) W} {outer : J} {first last : K} {key : J × K}
    {value : W} : (key, value) ∈ mapRange map (outer, first) (outer, last) ↔
      map[key]? = some value ∧ key.1 = outer ∧ compare key.2 first ≠ .lt ∧
        compare key.2 last ≠ .gt := by
  rw [mem_mapRange, compare_pair, compare_pair, Std.OrientedOrd.eq_swap (a := key.2) (b := first)]
  refine and_congr_right fun _ => ?_
  cases order : compare outer key.1 with
  | eq =>
    have same := Std.LawfulEqOrd.eq_of_compare order
    subst same
    simp only [Std.ReflOrd.compare_self, Ordering.eq_then, true_and]
    cases compare first key.2 <;> cases compare key.2 last <;> simp
  | lt =>
    have above : compare key.1 outer = .gt := by
      rw [Std.OrientedOrd.eq_swap (a := key.1), order]
      rfl
    simp only [above]
    refine ⟨by simp, fun ⟨same, _⟩ => ?_⟩
    rw [same, Std.ReflOrd.compare_self] at above
    cases above
  | gt =>
    refine ⟨by simp, fun ⟨same, _⟩ => ?_⟩
    rw [same, Std.ReflOrd.compare_self] at order
    cases order

end Pairs

end Maps

section Sets

variable {K : Type} [Ord K] [Std.TransOrd K]

/-- A set iterates in ascending order. -/
theorem ascending_toList_set (set : BTreeSet K) : Ascending set.toList :=
  Std.ExtTreeSet.ordered_toList

variable [Std.LawfulEqOrd K] {set : BTreeSet K}

/-- An insertion adds exactly one member. -/
theorem mem_insert_set {item probe : K} : probe ∈ set.insert item ↔ item = probe ∨ probe ∈ set := by
  simp [Std.ExtTreeSet.mem_insert]

/-- A removal drops exactly one member. -/
theorem mem_erase_set {item probe : K} : probe ∈ set.erase item ↔ item ≠ probe ∧ probe ∈ set := by
  simp [Std.ExtTreeSet.mem_erase]

/-- Adds every listed item to a set. -/
def extendSet (set : BTreeSet K) (items : List K) : BTreeSet K :=
  items.foldl (fun set item => set.insert item) set

/-- Extending adds exactly the listed items. -/
theorem mem_extendSet {items : List K} {probe : K} :
    probe ∈ extendSet set items ↔ probe ∈ set ∨ probe ∈ items := by
  induction items generalizing set with
  | nil => simp [extendSet]
  | cons item rest ih =>
    have step : extendSet set (item :: rest) = extendSet (set.insert item) rest := rfl
    rw [step, ih, mem_insert_set, List.mem_cons]
    constructor
    · rintro ((rfl | old) | listed)
      · exact .inr (.inl rfl)
      · exact .inl old
      · exact .inr (.inr listed)
    · rintro (old | rfl | listed)
      · exact .inl (.inr old)
      · exact .inl (.inl rfl)
      · exact .inr listed

/-- Collects a list into a set. -/
def collectSet (items : List K) : BTreeSet K := extendSet ∅ items

/-- A collected set holds exactly the listed items. -/
theorem mem_collectSet {items : List K} {probe : K} :
    probe ∈ collectSet items ↔ probe ∈ items := by
  simp [collectSet, mem_extendSet]

/-- Collecting a set's own members gives the set. -/
theorem collectSet_toList (set : BTreeSet K) : collectSet set.toList = set := by
  apply Std.ExtTreeSet.ext_mem
  intro item
  rw [mem_collectSet, Std.ExtTreeSet.mem_toList]

/-- Removes every listed item from a set. -/
def removeAll (set : BTreeSet K) (items : List K) : BTreeSet K :=
  items.foldl (fun set item => set.erase item) set

/-- Removing drops exactly the listed items. -/
theorem mem_removeAll {items : List K} {probe : K} :
    probe ∈ removeAll set items ↔ probe ∈ set ∧ probe ∉ items := by
  induction items generalizing set with
  | nil => simp [removeAll]
  | cons item rest ih =>
    have step : removeAll set (item :: rest) = removeAll (set.erase item) rest := rfl
    rw [step, ih, mem_erase_set, List.mem_cons, not_or]
    constructor
    · rintro ⟨⟨other, member⟩, unlisted⟩
      exact ⟨member, fun same => other same.symm, unlisted⟩
    · rintro ⟨member, other, unlisted⟩
      exact ⟨⟨fun same => other same.symm, member⟩, unlisted⟩

end Sets

end Oxgraph
