import Oxgraph.Lib.Buckets

/-! Stable grouping by key: the groups, and the counting sort that lays them out in place. -/

namespace Oxgraph

variable {T U : Type}

/-- The values of a key, in order. -/
def valuesOf (items : List (Nat × T)) (key : Nat) : List T :=
  (items.filter fun item => item.1 = key).map Prod.snd

/-- For each key below a count, its values in order. -/
def groups (count : Nat) (items : List (Nat × T)) : List (List T) :=
  (List.range count).map (valuesOf items)

/-- The same keys with mapped values. -/
def mapValues (f : T → U) (items : List (Nat × T)) : List (Nat × U) :=
  items.map fun item => (item.1, f item.2)

/-- No items, no values. -/
@[simp] theorem valuesOf_nil (key : Nat) : valuesOf ([] : List (Nat × T)) key = [] := rfl

/-- The values of a key in two runs of items are those of the one and then of the other. -/
theorem valuesOf_append (items more : List (Nat × T)) (key : Nat) :
    valuesOf (items ++ more) key = valuesOf items key ++ valuesOf more key := by
  unfold valuesOf
  rw [List.filter_append, List.map_append]

/-- One item has its value under its own key only. -/
theorem valuesOf_singleton (item : Nat × T) (key : Nat) :
    valuesOf [item] key = if item.1 = key then [item.2] else [] := by
  unfold valuesOf
  by_cases same : item.1 = key <;> simp [same]

/-- An item's value stands among those of its key, between the earlier and the later. -/
theorem valuesOf_middle (items more : List (Nat × T)) (item : Nat × T) :
    valuesOf (items ++ item :: more) item.1 =
      valuesOf items item.1 ++ item.2 :: valuesOf more item.1 := by
  rw [valuesOf_append, ← List.singleton_append, valuesOf_append, valuesOf_singleton, if_pos rfl,
    List.singleton_append]

/-- Values are mapped under their keys. -/
theorem valuesOf_mapValues (f : T → U) (items : List (Nat × T)) (key : Nat) :
    valuesOf (mapValues f items) key = (valuesOf items key).map f := by
  unfold valuesOf mapValues
  rw [List.filter_map, List.map_map, List.map_map]
  rfl

@[simp] theorem length_groups (count : Nat) (items : List (Nat × T)) :
    (groups count items).length = count := by
  simp [groups]

/-- Without items all groups are empty. -/
theorem groups_nil (count : Nat) : groups count ([] : List (Nat × T)) = List.replicate count [] := by
  have empty : valuesOf ([] : List (Nat × T)) = fun _ => [] := rfl
  rw [groups, empty, List.map_const', List.length_range]

/-- A key below the count has its group at its own position. -/
theorem getElem?_groups {count key : Nat} (items : List (Nat × T)) (below : key < count) :
    (groups count items)[key]? = some (valuesOf items key) := by
  simp [groups, below]

variable {count : Nat}

/-- Appending a value to the group of its key groups one item more. -/
theorem set_group (items : List (Nat × T)) (item : Nat × T) :
    (groups count items).set item.1 (valuesOf items item.1 ++ [item.2]) =
      groups count (items ++ [item]) := by
  refine List.ext_getElem? fun key => ?_
  by_cases below : key < count
  · rw [List.getElem?_set, getElem?_groups _ below, getElem?_groups _ below, valuesOf_append,
      valuesOf_singleton, length_groups]
    by_cases same : item.1 = key
    · subst same
      simp [below]
    · simp [same]
  · rw [List.getElem?_eq_none (by simp; omega), List.getElem?_eq_none (by simp; omega)]

/-- Values are mapped group by group. -/
theorem groups_mapValues (f : T → U) (count : Nat) (items : List (Nat × T)) :
    groups count (mapValues f items) = (groups count items).map fun group => group.map f := by
  unfold groups
  rw [List.map_map]
  exact List.map_congr_left fun key _ => valuesOf_mapValues f items key

/-- The groups hold the values of all keys below the count, each once. -/
theorem groups_perm_filter (count : Nat) (items : List (Nat × T)) :
    (groups count items).flatten.Perm
      ((items.filter fun item => item.1 < count).map Prod.snd) := by
  induction count with
  | zero => simp [groups]
  | succ count ih =>
    have grown : groups (count + 1) items = groups count items ++ [valuesOf items count] := by
      unfold groups
      rw [List.range_succ, List.map_append]
      rfl
    rw [grown, List.flatten_append, List.flatten_singleton]
    -- The keys below the next count are those below this one, and this one.
    refine (ih.append_right _).trans ?_
    unfold valuesOf
    rw [← List.map_append]
    refine List.Perm.map _ ?_
    have split := List.filter_append_perm (fun item : Nat × T => decide (item.1 < count))
      (items.filter fun item => item.1 < count + 1)
    rw [List.filter_filter, List.filter_filter] at split
    refine List.Perm.trans (List.Perm.of_eq ?_) split
    congr 1
    · refine List.filter_congr fun item _ => ?_
      by_cases low : item.1 < count
      · simp [low, Nat.lt_succ_of_lt low]
      · simp [low]
    · refine List.filter_congr fun item _ => ?_
      by_cases same : item.1 = count
      · simp [same]
      · by_cases low : item.1 < count
        · simp [same, low]
        · have high : ¬ item.1 < count + 1 := by omega
          simp [same, high]

variable {items : List (Nat × T)}

/-- The groups hold every value once when all keys are below the count. -/
theorem groups_perm (known : ∀ item ∈ items, item.1 < count) :
    (groups count items).flatten.Perm (items.map Prod.snd) := by
  have whole := groups_perm_filter count items
  rwa [List.filter_eq_self.mpr fun item member => decide_eq_true (known item member)] at whole

/-- As many values are grouped as there are items. -/
theorem length_flatten_groups (known : ∀ item ∈ items, item.1 < count) :
    (groups count items).flatten.length = items.length := by
  rw [(groups_perm known).length_eq, List.length_map]

-- Counting.

/-- One item more raises the size of its own group, and of no other. -/
theorem length_valuesOf_append (items : List (Nat × T)) (item : Nat × T) (key : Nat) :
    (valuesOf (items ++ [item]) key).length =
      (valuesOf items key).length + if item.1 = key then 1 else 0 := by
  rw [valuesOf_append, List.length_append, valuesOf_singleton]
  split <;> rfl

/-- Raising one count by one counts one item more. -/
theorem set_sizes {count : Nat} (items : List (Nat × T)) (item : Nat × T) :
    ((groups count items).map List.length).set item.1 ((valuesOf items item.1).length + 1) =
      (groups count (items ++ [item])).map List.length := by
  refine List.ext_getElem? fun key => ?_
  by_cases below : key < count
  · rw [List.getElem?_set, List.getElem?_map, List.getElem?_map, getElem?_groups _ below,
      getElem?_groups _ below, Option.map_some, Option.map_some, length_valuesOf_append]
    by_cases same : item.1 = key
    · simp [same, below]
    · simp [same]
  · rw [List.getElem?_eq_none (by simp; omega), List.getElem?_eq_none (by simp; omega)]

-- Placing values in the room of their groups.

/-- Setting a value inside one of several rows side by side sets it in that row. -/
theorem flatten_set {rows : List (List T)} {key index : Nat} {row : List T} (value : T)
    (located : rows[key]? = some row) (inside : index < row.length) :
    rows.flatten.set ((rows.take key).flatten.length + index) value =
      (rows.set key (row.set index value)).flatten := by
  induction rows generalizing key with
  | nil => cases located
  | cons first rest ih =>
    cases key with
    | zero =>
      obtain rfl : first = row := Option.some.inj located
      simp [inside]
    | succ key =>
      have beyond : ¬ first.length + (rest.take key).flatten.length + index < first.length := by
        omega
      rw [List.take_succ_cons, List.flatten_cons, List.flatten_cons, List.length_append,
        List.set_append, if_neg beyond, List.set_cons_succ, List.flatten_cons,
        ← ih located, Nat.add_assoc, Nat.add_sub_cancel_left]

/-- The room of each group, filled from its start with the values that are placed. -/
def rooms (blank : T) (count : Nat) (items placed : List (Nat × T)) : List (List T) :=
  (List.range count).map fun key =>
    valuesOf placed key ++
      List.replicate ((valuesOf items key).length - (valuesOf placed key).length) blank

/-- Before anything is placed, all room is blank. -/
theorem flatten_rooms_nil (blank : T) (known : ∀ item ∈ items, item.1 < count) :
    (rooms blank count items []).flatten = List.replicate items.length blank := by
  rw [← length_flatten_groups known]
  unfold rooms groups
  generalize List.range count = keys
  induction keys with
  | nil => rfl
  | cons key rest ih =>
    rw [List.map_cons, List.map_cons, List.flatten_cons, List.flatten_cons, ih,
      List.length_append, List.replicate_add]
    rfl

/-- Once all items are placed, the rooms are the groups. -/
theorem rooms_self (blank : T) (count : Nat) (items : List (Nat × T)) :
    rooms blank count items items = groups count items := by
  unfold rooms groups
  refine List.map_congr_left fun key _ => ?_
  rw [Nat.sub_self, List.replicate_zero, List.append_nil]

/-- A room starts where the groups before it end. -/
theorem length_take_rooms {blank : T} {count key : Nat} {placed rest : List (Nat × T)} :
    ((rooms blank count (placed ++ rest) placed).take key).flatten.length =
      ((groups count (placed ++ rest)).take key).flatten.length := by
  unfold rooms groups
  rw [← List.map_take, ← List.map_take, List.length_flatten, List.length_flatten, List.map_map,
    List.map_map]
  congr 1
  refine List.map_congr_left fun other _ => ?_
  -- A room is as long as its group: what is placed, and blanks for the rest of it.
  simp only [Function.comp_apply, valuesOf_append, List.length_append, List.length_replicate]
  omega

/-- The room of a key below the count. -/
theorem getElem?_rooms {blank : T} {count key : Nat} {items placed : List (Nat × T)}
    (below : key < count) :
    (rooms blank count items placed)[key]? = some (valuesOf placed key ++
      List.replicate ((valuesOf items key).length - (valuesOf placed key).length) blank) := by
  simp [rooms, below]

/-- A key that is about to be placed has at least one blank left. -/
theorem getElem?_rooms_next {blank : T} {count : Nat} {placed rest : List (Nat × T)}
    {item : Nat × T} (below : item.1 < count) :
    (rooms blank count (placed ++ item :: rest) placed)[item.1]? =
      some (valuesOf placed item.1 ++
        List.replicate ((valuesOf rest item.1).length + 1) blank) := by
  -- What is left of the group is the item itself, and those of its key after it.
  rw [getElem?_rooms below, valuesOf_middle, List.length_append, Nat.add_sub_cancel_left,
    List.length_cons]

/-- Filling the first blank of its room places an item. -/
theorem set_rooms {blank : T} {placed rest : List (Nat × T)} {item : Nat × T}
    (below : item.1 < count) :
    (rooms blank count (placed ++ item :: rest) placed).set item.1
        ((valuesOf placed item.1 ++ List.replicate ((valuesOf rest item.1).length + 1) blank).set
          (valuesOf placed item.1).length item.2) =
      rooms blank count (placed ++ item :: rest) (placed ++ [item]) := by
  refine List.ext_getElem? fun key => ?_
  by_cases known : key < count
  · rw [getElem?_rooms known]
    by_cases same : item.1 = key
    · -- Its own room has one value more and one blank less.
      subst same
      have full : item.1 < (rooms blank count (placed ++ item :: rest) placed).length := by
        simp [rooms, below]
      have filled : valuesOf (placed ++ [item]) item.1 = valuesOf placed item.1 ++ [item.2] :=
        valuesOf_middle placed [] item
      have left : (valuesOf placed item.1 ++ item.2 :: valuesOf rest item.1).length -
          (valuesOf placed item.1 ++ [item.2]).length = (valuesOf rest item.1).length := by
        simp only [List.length_append, List.length_cons, List.length_nil]
        omega
      rw [List.getElem?_set_self full, List.set_append, if_neg (Nat.lt_irrefl _), Nat.sub_self,
        List.replicate_succ, List.set_cons_zero, List.append_cons, filled, valuesOf_middle, left]
    · -- No other room changes.
      rw [List.getElem?_set_ne same, getElem?_rooms known, valuesOf_append placed [item],
        valuesOf_singleton, if_neg same, List.append_nil]
  · rw [List.getElem?_eq_none (by simp [rooms]; omega),
      List.getElem?_eq_none (by simp [rooms]; omega)]

/-- The next value of a key goes after those of its group that are placed, and fits there. -/
theorem place_next {blank : T} {count : Nat} {items placed rest : List (Nat × T)} {item : Nat × T}
    (split : items = placed ++ item :: rest) (below : item.1 < count) :
    setOrPanic (rooms blank count items placed).flatten
        (((groups count items).take item.1).flatten.length + (valuesOf placed item.1).length)
        item.2 =
      some (rooms blank count items (placed ++ [item])).flatten := by
  subst split
  have located := @getElem?_rooms_next _ blank _ placed rest _ below
  have inside : (valuesOf placed item.1).length <
      (valuesOf placed item.1 ++
        List.replicate ((valuesOf rest item.1).length + 1) blank).length := by
    simp
  -- The position is inside its own room, which ends inside the whole.
  have stop := (Flattened.mk rfl rfl).bucket located
  rw [← @length_take_rooms _ blank, setOrPanic, if_pos (by omega),
    flatten_set item.2 located inside, set_rooms below]

/-- The position is the same whatever values the items carry. -/
theorem place_next_mapped (f : T → U) {blank : U} {count : Nat} {items placed rest : List (Nat × T)}
    {item : Nat × T} (split : items = placed ++ item :: rest) (below : item.1 < count) :
    setOrPanic (rooms blank count (mapValues f items) (mapValues f placed)).flatten
        (((groups count items).take item.1).flatten.length + (valuesOf placed item.1).length)
        (f item.2) =
      some (rooms blank count (mapValues f items) (mapValues f (placed ++ [item]))).flatten := by
  have mapped : mapValues f items =
      mapValues f placed ++ (item.1, f item.2) :: mapValues f rest := by
    rw [split]
    simp [mapValues]
  -- Only the sizes of the groups decide the position.
  have start : ((groups count items).take item.1).flatten.length =
      ((groups count (mapValues f items)).take item.1).flatten.length := by
    rw [groups_mapValues, ← List.map_take, ← List.map_flatten, List.length_map]
  have size : (valuesOf placed item.1).length = (valuesOf (mapValues f placed) item.1).length := by
    rw [valuesOf_mapValues, List.length_map]
  have extended : mapValues f (placed ++ [item]) = mapValues f placed ++ [(item.1, f item.2)] := by
    simp [mapValues]
  rw [start, size, extended]
  exact @place_next _ blank _ _ _ _ (item.1, f item.2) mapped below

end Oxgraph
