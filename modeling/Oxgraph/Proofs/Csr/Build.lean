import Oxgraph.Lib.Grouping
import Oxgraph.Proofs.Layout.Arrays
import Oxgraph.Spec.Digraph

/-! Freezing groups the edges by their sources, and keeps the order they were added in. -/

namespace Oxgraph.Csr

open Layout
open Fallible (bind_of_pure orPanic_eq_pure)
open List (length_cons length_zip map_flatten map_map mem_map)

variable {N E : Type} [LayoutIndex N] [LayoutIndex E]

/-- Each edge under its source, with its number and its target. -/
def keyed (first : Nat) : List (N × N) → List (Nat × (Nat × N))
  | [] => []
  | (source, target) :: rest => (toNat source, (first, target)) :: keyed (first + 1) rest

omit [LayoutIndex E] in
@[simp] theorem length_keyed (first : Nat) (edges : List (N × N)) :
    (keyed first edges).length = edges.length := by
  induction edges generalizing first with
  | nil => rfl
  | cons edge rest ih => rw [keyed, length_cons, ih, length_cons]

omit [LayoutIndex E] in
/-- The keys are the slots of the sources. -/
theorem forall_keyed {first : Nat} {edges : List (N × N)} {holds : Nat → Prop} :
    (∀ item ∈ keyed first edges, holds item.1) ↔ ∀ edge ∈ edges, holds (toNat edge.1) := by
  induction edges generalizing first with
  | nil => simp [keyed]
  | cons edge rest ih => rw [keyed, List.forall_mem_cons, List.forall_mem_cons, ih]

-- Counting.

omit [LayoutIndex E] in
/-- Counting adds the edges of each source to those that were counted before. -/
theorem countSources_eq {nodeCount first : Nat} {edges : List (N × N)}
    {counted : List (Nat × (Nat × N))} (known : ∀ edge ∈ edges, toNat edge.1 < nodeCount)
    (few : counted.length + edges.length < usizeBound) :
    (countSources (edges.map Prod.fst) (0 :: (groups nodeCount counted).map List.length) :
        Fallible (GraphBuildError N E) (List Nat)) =
      pure (0 :: (groups nodeCount (counted ++ keyed first edges)).map List.length) := by
  induction edges generalizing first counted with
  | nil =>
    rw [keyed, List.append_nil]
    rfl
  | cons edge rest ih =>
    obtain ⟨below, others⟩ := List.forall_mem_cons.mp known
    have read : ((groups nodeCount counted).map List.length)[toNat edge.1]? =
        some (valuesOf counted (toNat edge.1)).length := by
      rw [List.getElem?_map, getElem?_groups counted below]
      rfl
    -- A group is no longer than all that was counted, so one more still fits.
    have most : (valuesOf counted (toNat edge.1)).length ≤ counted.length := by
      unfold valuesOf
      rw [List.length_map]
      exact List.length_filter_le _ _
    rw [length_cons] at few
    have added : checkedAdd (valuesOf counted (toNat edge.1)).length 1 =
        some ((valuesOf counted (toNat edge.1)).length + 1) :=
      checkedAdd_eq_some.mpr ⟨rfl, by omega⟩
    have next := @set_sizes _ nodeCount counted (toNat edge.1, (first, edge.2))
    rw [List.map_cons, countSources, toUsize_eq]
    refine (bind_of_pure (orPanic_eq_pure.mpr read)).trans ?_
    simp only [added, List.set_cons_succ]
    rw [next, @ih (first + 1) _ others (by simp; omega), keyed, List.append_assoc]
    rfl

omit [LayoutIndex N] [LayoutIndex E] in
/-- Adding up the sizes of groups gives the offsets where they end. -/
theorem accumulateFrom_eq {T : Type} {previous : Nat} {buckets : List (List T)}
    (few : previous + buckets.flatten.length < usizeBound) :
    (accumulateFrom previous (buckets.map List.length) : Except (GraphBuildError N E) (List Nat)) =
      .ok (runningOffsets previous buckets).tail := by
  induction buckets generalizing previous with
  | nil => rfl
  | cons bucket rest ih =>
    rw [List.flatten_cons, List.length_append] at few
    have added : checkedAdd bucket.length previous = some (previous + bucket.length) :=
      checkedAdd_eq_some.mpr ⟨Nat.add_comm _ _, by omega⟩
    rw [List.map_cons, accumulateFrom, added]
    dsimp only
    rw [ih (by omega), runningOffsets, List.tail_cons, runningOffsets_eq_cons _ rest]
    rfl

omit [LayoutIndex N] [LayoutIndex E] in
/-- The sums from zero on are the offsets of the groups. -/
theorem accumulate_eq {T : Type} {buckets : List (List T)}
    (few : buckets.flatten.length < usizeBound) :
    (accumulate (0 :: buckets.map List.length) : Except (GraphBuildError N E) (List Nat)) =
      .ok (runningOffsets 0 buckets) := by
  rw [accumulate, accumulateFrom_eq (by omega), runningOffsets_eq_cons 0 buckets]
  rfl

-- Placing.

/-- The free position of each node, given the edges that are placed. -/
def CursorAt (nodeCount : Nat) (items placed : List (Nat × (Nat × N))) (cursor : List Nat) : Prop :=
  ∀ node < nodeCount, cursor[node]? =
    some (((groups nodeCount items).take node).flatten.length + (valuesOf placed node).length)

omit [LayoutIndex N] in
/-- Before any edge is placed, the free positions are the offsets. -/
theorem cursorAt_start (nodeCount : Nat) (items : List (Nat × (Nat × N))) :
    CursorAt nodeCount items [] (runningOffsets 0 (groups nodeCount items)) := by
  intro node below
  rw [getElem?_runningOffsets 0 _ (by simp; omega), Nat.zero_add]
  rfl

omit [LayoutIndex N] in
/-- Placing an edge moves the free position of its source, and no other. -/
theorem CursorAt.next {nodeCount : Nat} {items placed : List (Nat × (Nat × N))} {cursor : List Nat}
    (at_ : CursorAt nodeCount items placed cursor) {item : Nat × (Nat × N)}
    (below : item.1 < nodeCount) :
    CursorAt nodeCount items (placed ++ [item]) (cursor.set item.1
      (((groups nodeCount items).take item.1).flatten.length +
        (valuesOf placed item.1).length + 1)) := by
  intro node known
  rw [length_valuesOf_append]
  by_cases same : item.1 = node
  · subst same
    obtain ⟨inside, _⟩ := List.getElem?_eq_some_iff.mp (at_ item.1 below)
    rw [List.getElem?_set_self inside, if_pos rfl, Nat.add_assoc]
  · rw [List.getElem?_set_ne same, if_neg same, at_ node known]
    rfl

/-- Placing the rest of the edges completes the groups of their numbers and of their targets. -/
theorem placeEdges_eq {nodeCount first : Nat} {edges : List (N × N)}
    {items placed : List (Nat × (Nat × N))} {cursor : List Nat} {edgeZero : E} {nodeZero : N}
    (split : items = placed ++ keyed first edges)
    (known : ∀ edge ∈ edges, toNat edge.1 < nodeCount)
    (fits : first + edges.length ≤ LayoutIndex.bound E) (few : items.length < usizeBound)
    (below : ∀ item ∈ items, item.1 < nodeCount)
    (at_ : CursorAt nodeCount items placed cursor) :
    (placeEdges first edges cursor
        (rooms edgeZero nodeCount (mapValues (fun value => LayoutIndex.ofNat value.1) items)
          (mapValues (fun value => LayoutIndex.ofNat value.1) placed)).flatten
        (rooms nodeZero nodeCount (mapValues Prod.snd items)
          (mapValues Prod.snd placed)).flatten :
        Fallible (GraphBuildError N E) (List E × List N)) =
      pure ((groups nodeCount (mapValues (fun value => LayoutIndex.ofNat value.1) items)).flatten,
        (groups nodeCount (mapValues Prod.snd items)).flatten) := by
  induction edges generalizing first placed cursor with
  | nil =>
    rw [keyed, List.append_nil] at split
    rw [placeEdges, ← split, rooms_self, rooms_self]
  | cons edge rest ih =>
    obtain ⟨source, target⟩ := edge
    obtain ⟨here, others⟩ := List.forall_mem_cons.mp known
    replace here : toNat source < nodeCount := here
    rw [length_cons] at fits
    have read := at_ (toNat source) here
    -- The position is inside the array, so the one after it can be counted.
    have bound : ((groups nodeCount items).take (toNat source)).flatten.length +
        (valuesOf placed (toNat source)).length < items.length := by
      have located := getElem?_groups items here
      have stop := (Flattened.mk rfl rfl).bucket located
      have middle := valuesOf_middle placed (keyed (first + 1) rest)
        (toNat source, (first, target))
      have size := congrArg List.length middle
      rw [length_flatten_groups below] at stop
      rw [keyed] at split
      rw [← split, List.length_append, length_cons] at size
      dsimp only at size
      omega
    have added : checkedAdd (((groups nodeCount items).take (toNat source)).flatten.length +
        (valuesOf placed (toNat source)).length) 1 =
        some (((groups nodeCount items).take (toNat source)).flatten.length +
          (valuesOf placed (toNat source)).length + 1) :=
      checkedAdd_eq_some.mpr ⟨rfl, by omega⟩
    have number : (indexFromUsize first : Except Nat E) = .ok (LayoutIndex.ofNat first) :=
      indexFromUsize_eq_ok.mpr (LayoutIndex.toNat_ofNat first (by omega))
    have ids := @place_next_mapped _ E (fun value => LayoutIndex.ofNat value.1) edgeZero
      nodeCount items placed _ (toNat source, (first, target)) split here
    have targets := @place_next_mapped _ N Prod.snd nodeZero
      nodeCount items placed _ (toNat source, (first, target)) split here
    rw [placeEdges, toUsize_eq]
    refine (bind_of_pure (orPanic_eq_pure.mpr read)).trans ?_
    simp only [added, number]
    refine (bind_of_pure rfl).trans ?_
    refine (bind_of_pure (orPanic_eq_pure.mpr ids)).trans ?_
    refine (bind_of_pure (orPanic_eq_pure.mpr targets)).trans ?_
    -- What is left is placed the same way, after this edge.
    refine ih ?_ others (by omega) (at_.next here)
    rw [split, keyed, List.append_assoc]
    rfl

-- Freezing.

/-- Builder contents that hold a multigraph. -/
structure Recorded (nodeCount : Nat) (sources targets : List N) (graph : Digraph) : Prop where
  nodes : nodeCount = graph.nodeCount
  edges : (sources.zip targets).map (fun edge => (toNat edge.1, toNat edge.2)) = graph.edges
  paired : sources.length = targets.length
  inMemory : sources.length ≤ sliceBound (LayoutIndex.bytes N)

/-- The edges of each node, in the order they were added. -/
def Digraph.rows (graph : Digraph) : List (List Nat) :=
  (List.range graph.nodeCount).map graph.outgoing

/-- The targets of each node's edges. -/
def Digraph.targetRows (graph : Digraph) : List (List Nat) :=
  graph.rows.map fun row => row.map fun edge => (graph.edges.getD edge (0, 0)).2

/-- The arrays that freezing lays out. -/
def groupedTopology (nodeCount : Nat) (sources targets : List N) : FrozenTopology N E :=
  let items := keyed 0 (sources.zip targets)
  { nodeCount
    offsets := (runningOffsets 0 (groups nodeCount items)).map LayoutIndex.ofNat
    edgeIds := (groups nodeCount (mapValues (fun value => LayoutIndex.ofNat value.1) items)).flatten
    targets := (groups nodeCount (mapValues Prod.snd items)).flatten
    sources
    edgeTargets := targets }

/-- A frozen topology that groups the edges of a multigraph by their sources. -/
structure Digraph.GroupedBy (graph : Digraph) (topology : FrozenTopology N E) : Prop where
  nodes : topology.nodeCount = graph.nodeCount
  sources : topology.sources.map toNat = graph.edges.map Prod.fst
  edgeTargets : topology.edgeTargets.map toNat = graph.edges.map Prod.snd
  edges : Indexed topology.offsets topology.edgeIds graph.rows
  targets : Indexed topology.offsets topology.targets graph.targetRows

omit [LayoutIndex E] in
/-- Under its source each edge has its own number and target. -/
theorem keyed_eq (first : Nat) (edges : List (N × N)) :
    keyed first edges =
      (edges.zipIdx first).map fun edge => (toNat edge.1.1, (edge.2, edge.1.2)) := by
  induction edges generalizing first with
  | nil => rfl
  | cons edge rest ih =>
    rw [keyed, List.zipIdx_cons, List.map_cons, ih]

/-- The positions of the items that pass a test, ascending. -/
theorem map_snd_filter_zipIdx {A : Type} (items : List A) (test : A → Bool) :
    (items.zipIdx.filter fun item => test item.1).map Prod.snd =
      (List.range items.length).filter fun index => (items[index]?).any test := by
  induction items using List.reverseRecOn with
  | nil => rfl
  | append_singleton items last ih =>
    rw [List.zipIdx_append, List.filter_append, List.map_append, ih, List.length_append,
      List.length_singleton, List.range_succ, List.filter_append]
    congr 1
    · -- The positions before the last still hold the same items.
      refine List.filter_congr fun index member => ?_
      rw [List.getElem?_append_left (List.mem_range.mp member)]
    · by_cases passes : test last <;> simp [passes]

namespace Recorded

variable {nodeCount : Nat} {sources targets : List N} {graph : Digraph}
  (recorded : Recorded nodeCount sources targets graph)
include recorded

theorem length_edges : graph.edges.length = sources.length := by
  have paired := recorded.paired
  rw [← recorded.edges, List.length_map, length_zip]
  omega

theorem map_sources : sources.map toNat = graph.edges.map Prod.fst := by
  rw [← recorded.edges, map_map]
  show _ = (sources.zip targets).map (toNat ∘ Prod.fst)
  rw [← map_map, List.map_fst_zip (Nat.le_of_eq recorded.paired)]

theorem map_targets : targets.map toNat = graph.edges.map Prod.snd := by
  rw [← recorded.edges, map_map]
  show _ = (sources.zip targets).map (toNat ∘ Prod.snd)
  rw [← map_map, List.map_snd_zip (Nat.le_of_eq recorded.paired.symm)]

/-- Every source is a node. -/
theorem sources_known : ∀ edge ∈ sources.zip targets, toNat edge.1 < nodeCount := by
  intro edge member
  have inside := List.mem_map_of_mem (f := fun edge => (toNat edge.1, toNat edge.2)) member
  rw [recorded.edges] at inside
  rw [recorded.nodes]
  exact (graph.known _ inside).1

theorem keyed_known : ∀ item ∈ keyed 0 (sources.zip targets), item.1 < nodeCount :=
  (@forall_keyed _ _ 0 _ fun slot => slot < nodeCount).mpr recorded.sources_known

/-- The numbers under a source are its outgoing edges. -/
theorem valuesOf_numbers (node : Nat) :
    (valuesOf (keyed 0 (sources.zip targets)) node).map Prod.fst = graph.outgoing node := by
  unfold valuesOf Digraph.outgoing
  rw [keyed_eq, List.filter_map, map_map, map_map]
  have numbered := map_snd_filter_zipIdx (sources.zip targets)
    fun edge => decide (toNat edge.1 = node)
  refine Eq.trans numbered ?_
  rw [recorded.length_edges, length_zip, ← recorded.paired, Nat.min_self]
  refine List.filter_congr fun edge _ => ?_
  -- The source of an edge is that of the pair with its number.
  unfold Digraph.source
  rw [← recorded.edges, List.getElem?_map]
  cases (sources.zip targets)[edge]? <;> simp

/-- Next to the number of an edge stands its target. -/
theorem valuesOf_target {node : Nat} {value : Nat × N}
    (member : value ∈ valuesOf (keyed 0 (sources.zip targets)) node) :
    toNat value.2 = (graph.edges.getD value.1 (0, 0)).2 := by
  unfold valuesOf at member
  rw [keyed_eq] at member
  obtain ⟨item, inside, rfl⟩ := mem_map.mp member
  obtain ⟨⟨edge, number⟩, listed, rfl⟩ := mem_map.mp (List.mem_filter.mp inside).1
  have located := List.mk_mem_zipIdx_iff_getElem?.mp listed
  rw [← recorded.edges, List.getD_eq_getElem?_getD, List.getElem?_map, located]
  rfl

/-- The groups of the numbers are the rows of the multigraph. -/
theorem groups_numbers :
    (groups nodeCount (keyed 0 (sources.zip targets))).map (fun row => row.map Prod.fst) =
      graph.rows := by
  unfold groups Digraph.rows
  rw [map_map, recorded.nodes]
  exact List.map_congr_left fun node _ => recorded.valuesOf_numbers node

/-- The groups of the targets are the targets of the rows. -/
theorem groups_targets :
    (groups nodeCount (keyed 0 (sources.zip targets))).map
        (fun row => row.map fun value => toNat value.2) =
      graph.targetRows := by
  unfold Digraph.targetRows
  rw [← recorded.groups_numbers, map_map]
  refine List.map_congr_left fun row member => ?_
  obtain ⟨node, _, rfl⟩ := mem_map.mp member
  rw [Function.comp_apply, map_map]
  exact List.map_congr_left fun value inside => recorded.valuesOf_target inside

omit [LayoutIndex N] recorded in
theorem zero_fits (I : Type) [LayoutIndex I] : 0 < LayoutIndex.bound I :=
  Nat.lt_trans Nat.zero_lt_one LayoutIndex.one_lt

/-- The groups hold all the edges. -/
theorem length_groups_keyed :
    (groups nodeCount (keyed 0 (sources.zip targets))).flatten.length = graph.edges.length := by
  rw [length_flatten_groups recorded.keyed_known, length_keyed,
    recorded.length_edges, length_zip, recorded.paired, Nat.min_self]

variable (memory : nodeCount + 1 ≤ sliceBound usizeBytes)
include memory

/-- Freezing comes as far as the offsets, which its width may not hold. -/
theorem freezeTopology_offsets :
    (freezeTopology nodeCount sources targets :
        Fallible (GraphBuildError N E) (FrozenTopology N E)) = do
      let counts := runningOffsets 0 (groups nodeCount (keyed 0 (sources.zip targets)))
      let offsets ← .ofResult ((counts.mapM indexFromUsize).mapError .idOverflow)
      let edgeZero ← .ofResult ((indexFromUsize 0).mapError .idOverflow)
      let edgeIds ← .orPanic (repeatOrPanic (LayoutIndex.bytes E) sources.length edgeZero)
      let nodeZero ← .ofResult ((indexFromUsize 0).mapError .idOverflow)
      let groupedTargets ← .orPanic (repeatOrPanic (LayoutIndex.bytes N) targets.length nodeZero)
      let (edgeIds, groupedTargets) ←
        placeEdges 0 (sources.zip targets) counts edgeIds groupedTargets
      return {
        nodeCount, offsets, edgeIds, targets := groupedTargets, sources,
        edgeTargets := targets } := by
  have inMemory := recorded.inMemory
  have few : (sources.zip targets).length < usizeBound := by
    rw [length_zip, ← recorded.paired, Nat.min_self]
    exact lt_usizeBound_of_le_sliceBound inMemory
  have blank : repeatOrPanic usizeBytes (nodeCount + 1) 0 =
      some (0 :: (groups nodeCount ([] : List (Nat × (Nat × N)))).map List.length) := by
    rw [repeatOrPanic, if_pos memory, List.replicate_succ]
    simp [groups, Function.comp_def]
  have counted := @countSources_eq N E _ nodeCount 0 (sources.zip targets) []
    recorded.sources_known (by simpa using few)
  rw [List.map_fst_zip (Nat.le_of_eq recorded.paired), List.nil_append] at counted
  have total : (groups nodeCount (keyed 0 (sources.zip targets))).flatten.length < usizeBound := by
    rw [recorded.length_groups_keyed, recorded.length_edges]
    exact lt_usizeBound_of_le_sliceBound inMemory
  unfold freezeTopology
  refine (bind_of_pure (orPanic_eq_pure.mpr blank)).trans ?_
  refine (bind_of_pure counted).trans ?_
  rw [accumulate_eq total]
  rfl

/-- Offsets that the width cannot hold are refused. -/
theorem freezeTopology_error (wide : LayoutIndex.bound E ≤ graph.edges.length) :
    ∃ error, (freezeTopology nodeCount sources targets :
      Fallible (GraphBuildError N E) (FrozenTopology N E)) = throw error := by
  rw [recorded.freezeTopology_offsets memory]
  dsimp only
  cases converted : ((runningOffsets 0 (groups nodeCount (keyed 0 (sources.zip targets)))).mapM
      indexFromUsize : Except Nat (List E)) with
  | error value => exact ⟨.idOverflow value, rfl⟩
  | ok words =>
    -- The last offset is the number of edges, and no word of the width carries it.
    have carried := mapM_indexFromUsize_eq_ok.mp converted
    have last := getElem?_runningOffsets 0 (groups nodeCount (keyed 0 (sources.zip targets)))
      (Nat.le_refl _)
    rw [List.take_length, recorded.length_groups_keyed, Nat.zero_add, ← carried,
      List.getElem?_map, Option.map_eq_some_iff] at last
    obtain ⟨word, _, same⟩ := last
    have small := LayoutIndex.toNat_lt word
    omega

variable (fits : graph.edges.length < LayoutIndex.bound E)
include fits

omit memory in
/-- The offsets of the rows fit the width. -/
theorem offsets_fit :
    ((runningOffsets 0 (groups nodeCount (keyed 0 (sources.zip targets)))).map
      (LayoutIndex.ofNat : Nat → E)).map toNat =
        runningOffsets 0 (groups nodeCount (keyed 0 (sources.zip targets))) := by
  refine map_toNat_map_ofNat fun slot member => ?_
  have inside := runningOffsets_le member
  rw [recorded.length_groups_keyed] at inside
  omega

/-- Freezing comes as far as the blank arrays, when the width can count the edges. -/
theorem freezeTopology_blank :
    (freezeTopology nodeCount sources targets :
        Fallible (GraphBuildError N E) (FrozenTopology N E)) = do
      let counts := runningOffsets 0 (groups nodeCount (keyed 0 (sources.zip targets)))
      let edgeIds ←
        .orPanic (repeatOrPanic (LayoutIndex.bytes E) sources.length (LayoutIndex.ofNat 0))
      let groupedTargets ←
        .orPanic (repeatOrPanic (LayoutIndex.bytes N) sources.length (LayoutIndex.ofNat 0))
      let (edgeIds, groupedTargets) ←
        placeEdges 0 (sources.zip targets) counts edgeIds groupedTargets
      return {
        nodeCount, offsets := counts.map LayoutIndex.ofNat, edgeIds, targets := groupedTargets,
        sources, edgeTargets := targets } := by
  have zero (I : Type) [LayoutIndex I] :
      (indexFromUsize 0 : Except Nat I) = .ok (LayoutIndex.ofNat 0) :=
    indexFromUsize_eq_ok.mpr (LayoutIndex.toNat_ofNat 0 (zero_fits I))
  rw [recorded.freezeTopology_offsets memory]
  dsimp only
  rw [mapM_indexFromUsize_eq_ok.mpr (recorded.offsets_fit fits), zero E, zero N, ← recorded.paired]
  rfl

/-- Edges whose IDs memory cannot hold, each counted by the width, make freezing panic. -/
theorem freezeTopology_full (more : sliceBound (LayoutIndex.bytes E) < graph.edges.length) :
    (freezeTopology nodeCount sources targets :
      Fallible (GraphBuildError N E) (FrozenTopology N E)) = ExceptT.mk none := by
  have full : repeatOrPanic (LayoutIndex.bytes E) sources.length (LayoutIndex.ofNat 0 : E) = none :=
    if_neg (Nat.not_le.mpr (recorded.length_edges ▸ more))
  rw [recorded.freezeTopology_blank memory fits]
  dsimp only
  rw [full]
  rfl

/-- Edges that the width can count, and memory can hold, are grouped. -/
theorem freezeTopology_eq (numbered : graph.edges.length ≤ sliceBound (LayoutIndex.bytes E)) :
    (freezeTopology nodeCount sources targets :
        Fallible (GraphBuildError N E) (FrozenTopology N E)) =
      pure (groupedTopology nodeCount sources targets) := by
  have inMemory := recorded.inMemory
  have size : (sources.zip targets).length = sources.length := by
    rw [length_zip, ← recorded.paired, Nat.min_self]
  have edgeIds : repeatOrPanic (LayoutIndex.bytes E) sources.length (LayoutIndex.ofNat 0 : E) =
      some (List.replicate sources.length (LayoutIndex.ofNat 0)) :=
    if_pos (recorded.length_edges ▸ numbered)
  have placed := @placeEdges_eq N E _ _ nodeCount 0 (sources.zip targets)
    (keyed 0 (sources.zip targets)) [] _ (LayoutIndex.ofNat 0) (LayoutIndex.ofNat 0) rfl
    recorded.sources_known (by rw [size, ← recorded.length_edges]; omega)
    (by rw [length_keyed, size]; exact lt_usizeBound_of_le_sliceBound inMemory)
    recorded.keyed_known (cursorAt_start _ _)
  have keys {T : Type} (f : Nat × N → T) :
      ∀ item ∈ mapValues f (keyed 0 (sources.zip targets)), item.1 < nodeCount :=
    List.forall_mem_map.mpr recorded.keyed_known
  have length {T : Type} (f : Nat × N → T) :
      (mapValues f (keyed 0 (sources.zip targets))).length = sources.length := by
    rw [mapValues, List.length_map, length_keyed, size]
  -- The blank arrays are the rooms of all groups before any edge is placed.
  rw [show mapValues (fun value : Nat × N => (LayoutIndex.ofNat value.1 : E)) [] = [] from rfl,
    show mapValues (Prod.snd : Nat × N → N) [] = [] from rfl, flatten_rooms_nil _ (keys _),
    flatten_rooms_nil _ (keys _), length, length] at placed
  rw [recorded.freezeTopology_blank memory fits]
  refine (bind_of_pure (orPanic_eq_pure.mpr edgeIds)).trans ?_
  refine (bind_of_pure (orPanic_eq_pure.mpr (if_pos inMemory))).trans ?_
  exact bind_of_pure placed

omit memory in
/-- The arrays group the edges. -/
theorem groupedBy : graph.GroupedBy (groupedTopology nodeCount sources targets : FrozenTopology N E) where
  nodes := recorded.nodes
  sources := recorded.map_sources
  edgeTargets := recorded.map_targets
  edges := by
    constructor
    · rw [← recorded.groups_numbers, runningOffsets_map]
      exact recorded.offsets_fit fits
    · have numbers := recorded.groups_numbers
      show ((groups nodeCount (mapValues _ (keyed 0 (sources.zip targets)))).flatten).map toNat = _
      rw [groups_mapValues, ← map_flatten, ← numbers, ← map_flatten, map_map]
      -- Every number is that of an edge, and the width can count the edges.
      refine List.map_congr_left fun value member => ?_
      refine LayoutIndex.toNat_ofNat _ (Nat.lt_trans ?_ fits)
      have inside := List.mem_map_of_mem (f := Prod.fst) member
      rw [map_flatten, numbers] at inside
      obtain ⟨row, listed, within⟩ := List.mem_flatten.mp inside
      obtain ⟨node, _, rfl⟩ := mem_map.mp listed
      exact List.mem_range.mp (List.mem_filter.mp within).1
  targets := by
    constructor
    · rw [← recorded.groups_targets, runningOffsets_map]
      exact recorded.offsets_fit fits
    · show ((groups nodeCount (mapValues _ (keyed 0 (sources.zip targets)))).flatten).map toNat = _
      rw [groups_mapValues, ← map_flatten, ← recorded.groups_targets, ← map_flatten,
        map_map]
      rfl

end Recorded

/-- A graph with too many nodes for the counts to fit in memory panics. -/
theorem freezeTopology_panics {nodeCount : Nat} (sources targets : List N)
    (more : sliceBound usizeBytes < nodeCount + 1) :
    (freezeTopology nodeCount sources targets :
      Fallible (GraphBuildError N E) (FrozenTopology N E)) = ExceptT.mk none := by
  have full : (repeatOrPanic usizeBytes (nodeCount + 1) 0 : Option (List Nat)) = none :=
    if_neg (Nat.not_le.mpr more)
  unfold freezeTopology
  rw [full]
  rfl

end Oxgraph.Csr
