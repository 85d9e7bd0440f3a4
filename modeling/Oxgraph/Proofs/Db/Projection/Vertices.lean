import Oxgraph.Lib.Grouping
import Oxgraph.Proofs.Bcsr.Frozen
import Oxgraph.Proofs.Db.Projection.Hyperedges

/-! The rows of the elements of a hypergraph projection, and the frozen adjacency of its vertices. -/

namespace Oxgraph

open Layout Bcsr
open Fallible (adapt_eq_pure bind_of_pure)
open GraphProjectionBuilder (getElem?_numbers)
open List (map_map mem_map)

namespace HypergraphProjectionBuilder

-- The incidences of the elements.

/-- An incidence under the local ID of its element. -/
def entry (builder : HypergraphProjectionBuilder) (item : IncidenceRecord × Nat) :
    Nat × ProjectionIncidenceId :=
  (((builder.elementIndex[item.1.element]?).getD 0).toNat, UInt32.ofNat item.2)

/-- Each incidence under the local ID of its element. -/
def entries (builder : HypergraphProjectionBuilder) : List (Nat × ProjectionIncidenceId) :=
  builder.incidences.zipIdx.map builder.entry

/-- Each incidence is pushed into the row of its element. -/
theorem buildElementIncidences_eq {builder : HypergraphProjectionBuilder}
    (interned : builder.Interned) :
    buildElementIncidences builder.elements.length builder.incidences builder.elementIndex =
      pure (groups builder.elements.length builder.entries) := by
  have few : builder.incidences.length ≤ 2 ^ 32 := by
    have length := interned.incidences.length_le
    rwa [List.length_map] at length
  unfold buildElementIncidences entries
  rw [← groups_nil]
  -- Incidence by incidence, from those already grouped.
  refine Fallible.foldlM_through (fun done : List (IncidenceRecord × Nat) =>
    groups builder.elements.length (done.map builder.entry)) ?_
  rintro done ⟨record, index⟩ rest split
  have located := List.mem_zipIdx_iff_getElem?.mp
    (split ▸ List.mem_append_right done List.mem_cons_self)
  have listed := List.mem_of_getElem? located
  have small : index < 2 ^ 32 :=
    Nat.lt_of_lt_of_le (List.getElem?_eq_some_iff.mp located).1 few
  -- The element of an incidence has been interned.
  obtain ⟨element, found⟩ := interned.elements.mem_iff.mp
    ((interned.members record.element).mpr ⟨record, listed, rfl⟩)
  have below := (List.getElem?_eq_some_iff.mp (interned.elements.found.mp found)).1
  have allocated := projectionIncidenceId_eq_ok.mpr
    (UInt32.toNat_ofNat_of_lt' small : (UInt32.ofNat index).toNat = _)
  have entry : builder.entry (record, index) = (element.toNat, UInt32.ofNat index) := by
    unfold entry
    dsimp only
    rw [found]
    rfl
  rw [List.map_append, List.map_singleton, entry, ← set_group]
  simp only [found, allocated, localIndex_eq, getElem?_groups _ below]
  rfl

-- The vertices and hyperedges of the builder that is frozen.

variable {count : Nat}

/-- The vertices of a side are its elements, each where it first occurs. -/
theorem uniqueVertices_eq {elements : List ProjectionElementId}
    (known : ∀ element ∈ elements, element.toNat < count) :
    uniqueVertices ((List.range count).map UInt32.ofNat) elements = some (firsts elements) := by
  -- What has been seen is what has been kept.
  have general (items kept : List ProjectionElementId) (seen : BTreeSet ProjectionElementId)
      (same : ∀ element, element ∈ seen ↔ element ∈ kept) :
      (items.foldl (fun (seen, kept) element =>
        if seen.contains element then (seen, kept)
        else (seen.insert element, kept ++ [element])) (seen, kept)).2 =
          items.foldl enterNode kept := by
    induction items generalizing kept seen with
    | nil => rfl
    | cons item rest ih =>
      rw [List.foldl_cons, List.foldl_cons, enterNode]
      dsimp only
      by_cases known : item ∈ seen
      · rw [if_pos (Std.ExtTreeSet.contains_iff_mem.mpr known), if_pos ((same item).mp known)]
        exact ih kept seen same
      · rw [if_neg (fun found => known (Std.ExtTreeSet.contains_iff_mem.mp found)),
          if_neg (fun found => known ((same item).mpr found))]
        refine ih _ _ fun element => ?_
        rw [mem_insert_set, same, List.mem_append, List.mem_singleton, eq_comm, or_comm]
  have kept := general elements [] ∅ (by simp)
  unfold uniqueVertices
  dsimp only
  rw [kept]
  have mapped := @mapM_some _ _ (fun element : ProjectionElementId =>
    ((List.range count).map UInt32.ofNat)[localIndex element]?) id (firsts elements)
    fun element member => getElem?_numbers (known element (mem_firsts.mp member))
  rwa [List.map_id] at mapped

/-- A vertex is added when `u32` can number it, and is numbered by the vertices before it. -/
theorem addVertex_eq {count : Nat} {hyperedges : List (HyperedgeRecord UInt32)}
    (small : count < 2 ^ 32) :
    (HypergraphBuilder.addVertex ⟨count, hyperedges⟩ :
      Fallible (HyperBuildError UInt32 UInt32) (_ × HypergraphBuilder UInt32 UInt32 UInt32)) =
        pure (UInt32.ofNat count, ⟨count + 1, hyperedges⟩) := by
  have next : (nextVertex count : Except (HyperBuildError UInt32 UInt32) (UInt32 × Nat)) =
      .ok (UInt32.ofNat count, count + 1) :=
    nextVertex_eq_ok.mpr ⟨LayoutIndex.toNat_ofNat count small,
      Nat.lt_of_le_of_lt (show count + 1 ≤ 2 ^ 32 by omega) (by decide), rfl⟩
  unfold HypergraphBuilder.addVertex
  rw [next]
  rfl

/-- Every element has a vertex of its own number. -/
theorem addVertices_eq (few : count ≤ 2 ^ 32) :
    addVertices count = pure (⟨count, []⟩, (List.range count).map UInt32.ofNat) := by
  unfold addVertices
  induction count with
  | zero => rfl
  | succ count ih =>
    have step := (adapt_eq_pure (f := fun _ => DbError.idOverflow .element)).mpr
      (@addVertex_eq count [] (by omega))
    rw [List.range_succ, List.foldlM_append, List.map_append]
    refine (bind_of_pure (ih (by omega))).trans ?_
    exact bind_of_pure (bind_of_pure step)

/-- The hyperedge between two sides without repeats. -/
def record (sides : List ProjectionElementId × List ProjectionElementId) :
    HyperedgeRecord UInt32 where
  sources := firsts sides.1
  targets := firsts sides.2

/-- The elements of a side are below a count. -/
def Below (count : Nat) (sides : List ProjectionElementId × List ProjectionElementId) : Prop :=
  (∀ element ∈ sides.1, element.toNat < count) ∧ ∀ element ∈ sides.2, element.toNat < count

/-- The first occurrences on a side are known vertices, and none of them twice. -/
theorem side_firsts {elements : List ProjectionElementId}
    (known : ∀ element ∈ elements, element.toNat < count) :
    Side count ((firsts elements).map UInt32.toNat) := by
  refine ⟨fun vertex member => ?_, (nodup_firsts elements).map fun _ _ => UInt32.toNat_inj.mp⟩
  obtain ⟨element, listed, rfl⟩ := mem_map.mp member
  exact known element (mem_firsts.mp listed)

/-- A hyperedge between two sides is added when `u32` can number it. -/
theorem addHyperedge_eq {hyperedges : List (HyperedgeRecord UInt32)}
    {sides : List ProjectionElementId × List ProjectionElementId} (known : Below count sides)
    (few : hyperedges.length < 2 ^ 32) :
    (HypergraphBuilder.addHyperedge ⟨count, hyperedges⟩ (firsts sides.1) (firsts sides.2) :
      Fallible (HyperBuildError UInt32 UInt32) (_ × HypergraphBuilder UInt32 UInt32 UInt32)) =
        pure (UInt32.ofNat hyperedges.length, ⟨count, hyperedges ++ [record sides]⟩) := by
  have checked : (checkHyperedge count hyperedges.length (firsts sides.1) (firsts sides.2) :
      Except (HyperBuildError UInt32 UInt32) UInt32) = .ok (UInt32.ofNat hyperedges.length) :=
    checkHyperedge_eq_ok.mpr ⟨⟨side_firsts known.1, side_firsts known.2⟩,
      LayoutIndex.toNat_ofNat _ few⟩
  have pushed : pushOrPanic hyperedgeRecordBytes hyperedges (record sides) =
      some (hyperedges ++ [record sides]) :=
    pushOrPanic_eq_some.mpr ⟨Nat.lt_of_lt_of_le few (by decide), rfl⟩
  unfold HypergraphBuilder.addHyperedge
  dsimp only
  rw [checked, show pushOrPanic hyperedgeRecordBytes hyperedges
    ⟨firsts sides.1, firsts sides.2⟩ = _ from pushed]
  rfl

/-- Every collected hyperedge is added between the vertices of its sides. -/
theorem addHyperedges_eq {sides : List (List ProjectionElementId × List ProjectionElementId)}
    (known : ∀ pair ∈ sides, Below count pair) (few : sides.length ≤ 2 ^ 32) :
    addHyperedges ((List.range count).map UInt32.ofNat) sides ⟨count, []⟩ =
      pure ⟨count, sides.map record⟩ := by
  unfold addHyperedges
  -- Hyperedge by hyperedge, from those already added.
  refine Fallible.foldlM_through
    (fun done : List (List ProjectionElementId × List ProjectionElementId) =>
      (⟨count, done.map record⟩ : HypergraphBuilder UInt32 UInt32 UInt32)) ?_
  intro done pair rest split
  have below := known pair (split ▸ List.mem_append_right _ List.mem_cons_self)
  have room : (done.map record).length < 2 ^ 32 := by
    rw [split, List.length_append, List.length_cons] at few
    rw [List.length_map]
    omega
  have step := (adapt_eq_pure (f := fun _ =>
    DbError.invalidProjection "hyperedge participants are not directed-unique")).mpr
      (addHyperedge_eq below room)
  dsimp only
  rw [uniqueVertices_eq below.1, uniqueVertices_eq below.2, List.map_append]
  exact bind_of_pure step

-- Freezing.

/-- What is added for the sides of the collected hyperedges. -/
def added (count : Nat) (sides : List (List ProjectionElementId × List ProjectionElementId))
    (known : ∀ pair ∈ sides, Below count pair) : Added where
  vertexCount := count
  hyperedges := sides.map fun pair =>
    ((firsts pair.1).map UInt32.toNat, (firsts pair.2).map UInt32.toNat)
  sides hyperedge member := by
    obtain ⟨pair, listed, rfl⟩ := mem_map.mp member
    exact ⟨side_firsts (known pair listed).1, side_firsts (known pair listed).2⟩

/-- The distinct participants of a side of all hyperedges. -/
def total (side : List (List ProjectionElementId)) : Nat :=
  (side.map fun elements => (firsts elements).length).sum

/-- Each vertex answers its own row. -/
theorem mapM_answers (few : count ≤ 2 ^ 32) {method : UInt32 → Option (List UInt32)}
    {answer : Nat → List Nat} (answers : ∀ {vertex : UInt32}, vertex.toNat < count →
      (method vertex).map (·.map UInt32.toNat) = some (answer vertex.toNat)) :
    (((List.range count).map UInt32.ofNat).mapM fun vertex => .orPanic (method vertex)) =
      (pure ((List.range count).map fun vertex => (answer vertex).map UInt32.ofNat) :
        Fallible DbError _) := by
  refine Fallible.mapM_eq_pure (List.forall₂_map_left_iff.mpr (List.forall₂_map_right_iff.mpr
    (List.forall₂_same.mpr fun vertex member => ?_)))
  have inside := List.mem_range.mp member
  have own : (UInt32.ofNat vertex).toNat = vertex :=
    UInt32.toNat_ofNat_of_lt' (Nat.lt_of_lt_of_le inside few)
  obtain ⟨row, found, same⟩ := Option.map_eq_some_iff.mp (answers (by rwa [own]))
  rw [own] at same
  refine Fallible.orPanic_eq_pure.mpr (found.trans (congrArg some ?_))
  rw [← same, map_map]
  exact (List.map_id'' (fun word => UInt32.ofNat_toNat) row).symm

section Freeze

variable {count : Nat} {sides : List (List ProjectionElementId × List ProjectionElementId)}
  (known : ∀ pair ∈ sides, Below count pair) (few : sides.length ≤ 2 ^ 32)
include few

/-- The collected hyperedges are recorded for the freeze. -/
theorem recorded : Recorded UInt32 count
    (HypergraphBuilder.mk count (sides.map record) :
      HypergraphBuilder UInt32 UInt32 UInt32).records (added count sides known) := by
  refine ⟨rfl, ?_, ?_, ?_⟩
  · unfold HypergraphBuilder.records added
    rw [map_map, map_map]
    refine List.map_congr_left fun pair _ => ?_
    simp only [NormalizedHyperedgeRecord.slots, record, Function.comp_apply, map_map]
    rfl
  · show (List.map _ _).length ≤ 2 ^ 32
    simpa using few
  · have length := Nat.le_trans few (show 2 ^ 32 ≤ sliceBound hyperedgeRecordBytes by decide)
    simpa [HypergraphBuilder.records] using length

omit few in
theorem length_heads :
    (added count sides known).graph.heads.flatten.length = total (sides.map Prod.fst) := by
  rw [Added.heads_graph, List.length_flatten, total, added, map_map, map_map,
    map_map]
  congr 1
  exact List.map_congr_left fun pair _ => by simp

omit few in
theorem length_tails :
    (added count sides known).graph.tails.flatten.length = total (sides.map Prod.snd) := by
  rw [Added.tails_graph, List.length_flatten, total, added, map_map, map_map,
    map_map]
  congr 1
  exact List.map_congr_left fun pair _ => by simp

/-- Sides that `u32` can count are laid out as their hypergraph. -/
theorem exists_freeze (memory : count ≤ 2 ^ 32) (sources : total (sides.map Prod.fst) < 2 ^ 32)
    (targets : total (sides.map Prod.snd) < 2 ^ 32) :
    ∃ (frozen : FrozenHypergraph UInt32 UInt32 UInt32) (counts : DerivedCounts),
      (HypergraphBuilder.mk count (sides.map record)).freeze = pure frozen ∧
      frozen.topology.asView = ⟨counts, frozen.topology.sections⟩ ∧
      LaidOut frozen.topology.sections counts (added count sides known).graph.heads
        (added count sides known).graph.tails (added count sides known).graph.outgoing
        (added count sides known).graph.incoming := by
  have records := recorded known few
  have heads := length_heads known
  have tails := length_tails known
  have roles (role : HyperParticipantRole) : (roleSets ((HypergraphBuilder.mk count
      (sides.map record) : HypergraphBuilder UInt32 UInt32 UInt32).records.map
        NormalizedHyperedgeRecord.sorted) role).flatten.length < LayoutIndex.bound UInt32 := by
    cases role with
    | source =>
      rw [records.roleSets_source, heads]
      exact sources
    | target =>
      rw [records.roleSets_target, tails]
      exact targets
  have countable : (added count sides known).graph.incidenceCount < usizeBound := by
    rw [Hypergraph.incidenceCount, heads, tails]
    show _ < 2 ^ 64
    omega
  obtain ⟨topology, weights, counts, built, _, laid, accepted⟩ :=
    records.buildTopology_laidOut roles countable (Nat.le_trans memory (by decide))
  refine ⟨⟨topology⟩, counts, HypergraphBuilder.freeze_eq_pure.mpr ⟨weights, ?_, ?_⟩,
    asView_eq laid.counted, laid⟩
  · rw [HypergraphBuilder.normalizedHyperedges_eq]
    exact built
  · exact validateFrozenTopology_eq_pure.mpr ⟨counts, accepted⟩

include known in
/-- A side that `u32` cannot count is refused. -/
theorem freeze_error (wide : 2 ^ 32 ≤ total (sides.map Prod.fst) ∨
    2 ^ 32 ≤ total (sides.map Prod.snd)) : ∃ error,
      (HypergraphBuilder.mk count (sides.map record) :
        HypergraphBuilder UInt32 UInt32 UInt32).freeze = throw error := by
  have records := recorded known few
  have role : ∃ role, LayoutIndex.bound UInt32 ≤ (roleSets ((HypergraphBuilder.mk count
      (sides.map record) : HypergraphBuilder UInt32 UInt32 UInt32).records.map
        NormalizedHyperedgeRecord.sorted) role).flatten.length := by
    rcases wide with sources | targets
    · refine ⟨.source, ?_⟩
      rw [records.roleSets_source, length_heads known]
      exact sources
    · refine ⟨.target, ?_⟩
      rw [records.roleSets_target, length_tails known]
      exact targets
  obtain ⟨role, wide⟩ := role
  obtain ⟨error, raised⟩ := @buildTopology_error UInt32 UInt32 UInt32 _ _ _ _ count _ role wide
  refine ⟨error, Fallible.bind_of_throw ?_⟩
  rw [HypergraphBuilder.normalizedHyperedges_eq]
  exact raised

/-- The adjacency of a hypergraph, row by row. -/
def directedRows (graph : Hypergraph) : DirectedVertexArrays where
  outgoing := (List.range graph.vertexCount).map fun vertex =>
    (graph.outgoingOf vertex).map UInt32.ofNat
  incoming := (List.range graph.vertexCount).map fun vertex =>
    (graph.incomingOf vertex).map UInt32.ofNat
  successors := (List.range graph.vertexCount).map fun vertex =>
    uniqueSorted (((graph.outgoingOf vertex).flatMap graph.tailOf).map UInt32.ofNat)
  predecessors := (List.range graph.vertexCount).map fun vertex =>
    uniqueSorted (((graph.incomingOf vertex).flatMap graph.headOf).map UInt32.ofNat)

variable {sourceVertices targetVertices : List (List ProjectionElementId)}

/-- Sides that `u32` can count are built into the rows of their hypergraph. -/
theorem buildDirectedVertexArrays_eq (memory : count ≤ 2 ^ 32)
    (zipped : sourceVertices.zip targetVertices = sides)
    (sources : total (sides.map Prod.fst) < 2 ^ 32)
    (targets : total (sides.map Prod.snd) < 2 ^ 32) :
    buildDirectedVertexArrays count sourceVertices targetVertices =
      pure (directedRows (added count sides known).graph) := by
  obtain ⟨frozen, counts, returned, lent, laid⟩ := exists_freeze known few memory sources targets
  have adapted := (adapt_eq_pure (f := fun _ => DbError.idOverflow .incidence)).mpr
    returned
  -- The frozen hypergraph answers as its view, and that as the hypergraph it lays out.
  let view : BcsrHypergraph UInt32 UInt32 UInt32 := ⟨counts, frozen.topology.sections⟩
  have laidOut : LaidOut view.sections view.counts _ _ _ _ := laid
  let graph := (added count sides known).graph
  have rows (method : BcsrHypergraph UInt32 UInt32 UInt32 → UInt32 → Option (List UInt32))
      (answer : Nat → List Nat)
      (answers : ∀ {vertex : UInt32}, vertex.toNat < count →
        (method view vertex).map (·.map UInt32.toNat) = some (answer vertex.toNat)) :
      (((List.range count).map UInt32.ofNat).mapM fun vertex =>
        .orPanic (method frozen.topology.asView vertex)) =
        (pure ((List.range count).map fun vertex => (answer vertex).map UInt32.ofNat) :
          Fallible DbError _) := by
    rw [lent]
    exact mapM_answers memory answers
  have outgoing := rows BcsrHypergraph.outgoingHyperedges graph.outgoingOf
    (Hypergraph.outgoingHyperedges_answer laidOut)
  have incoming := rows BcsrHypergraph.incomingHyperedges graph.incomingOf
    (Hypergraph.incomingHyperedges_answer laidOut)
  have successors := rows BcsrHypergraph.elementSuccessors
    (fun vertex => (graph.outgoingOf vertex).flatMap graph.tailOf)
    (Hypergraph.elementSuccessors_answer laidOut)
  have predecessors := rows BcsrHypergraph.elementPredecessors
    (fun vertex => (graph.incomingOf vertex).flatMap graph.headOf)
    (Hypergraph.elementPredecessors_answer laidOut)
  -- Each step of the source returns, in its order.
  unfold buildDirectedVertexArrays
  rw [zipped]
  refine (bind_of_pure (addVertices_eq memory)).trans ?_
  refine (bind_of_pure (addHyperedges_eq known few)).trans ?_
  refine (bind_of_pure adapted).trans ?_
  refine (bind_of_pure outgoing).trans ?_
  refine (bind_of_pure incoming).trans ?_
  refine (bind_of_pure successors).trans ?_
  refine (bind_of_pure predecessors).trans ?_
  rw [map_map, map_map]
  rfl

include known in
/-- A side that `u32` cannot count is an error. -/
theorem buildDirectedVertexArrays_error (memory : count ≤ 2 ^ 32)
    (zipped : sourceVertices.zip targetVertices = sides)
    (wide : 2 ^ 32 ≤ total (sides.map Prod.fst) ∨ 2 ^ 32 ≤ total (sides.map Prod.snd)) :
    ∃ error, buildDirectedVertexArrays count sourceVertices targetVertices = throw error := by
  obtain ⟨error, raised⟩ := freeze_error known few wide
  refine ⟨.idOverflow .incidence, ?_⟩
  unfold buildDirectedVertexArrays
  rw [zipped]
  refine (bind_of_pure (addVertices_eq memory)).trans ?_
  refine (bind_of_pure (addHyperedges_eq known few)).trans ?_
  refine Fallible.bind_of_throw ?_
  rw [raised]
  rfl

end Freeze

-- What the rows list.

/-- The sets of a side of the hyperedges that are added. -/
def sideSets (side : List (List ProjectionElementId)) : List (List Nat) :=
  side.map fun elements => ((firsts elements).map UInt32.toNat).mergeSort

theorem heads_added {count : Nat}
    {sides : List (List ProjectionElementId × List ProjectionElementId)}
    (known : ∀ pair ∈ sides, Below count pair) :
    (added count sides known).graph.heads = sideSets (sides.map Prod.fst) := by
  rw [Added.heads_graph, added, sideSets, map_map, map_map]
  rfl

theorem tails_added {count : Nat}
    {sides : List (List ProjectionElementId × List ProjectionElementId)}
    (known : ∀ pair ∈ sides, Below count pair) :
    (added count sides known).graph.tails = sideSets (sides.map Prod.snd) := by
  rw [Added.tails_graph, added, sideSets, map_map, map_map]
  rfl

/-- The set of a hyperedge on a side holds the elements there. -/
theorem mem_sideSets {side : List (List ProjectionElementId)} {hyperedge : Nat}
    {element : ProjectionElementId} :
    element.toNat ∈ (sideSets side).getD hyperedge [] ↔
      ∃ elements, side[hyperedge]? = some elements ∧ element ∈ elements := by
  rw [List.getD_eq_getElem?_getD, sideSets, List.getElem?_map]
  cases side[hyperedge]? with
  | none => simp
  | some elements =>
    rw [Option.map_some, Option.getD_some, (List.mergeSort_perm _ _).mem_iff,
      List.mem_map_of_injective fun _ _ => UInt32.toNat_inj.mp, mem_firsts]
    simp

/-- A set of a side holds only numbers of elements. -/
theorem exists_of_mem_sideSets {side : List (List ProjectionElementId)} {hyperedge slot : Nat}
    (member : slot ∈ (sideSets side).getD hyperedge []) :
    ∃ element : ProjectionElementId, element.toNat = slot := by
  rw [List.getD_eq_getElem?_getD, sideSets, List.getElem?_map] at member
  cases found : side[hyperedge]? with
  | none => simp [found] at member
  | some elements =>
    rw [found, Option.map_some, Option.getD_some, (List.mergeSort_perm _ _).mem_iff] at member
    obtain ⟨element, _, same⟩ := mem_map.mp member
    exact ⟨element, same⟩

/-- The elements of a row in order and once each. -/
theorem uniqueSorted_spec (elements : List ProjectionElementId) :
    Ascending (uniqueSorted elements) ∧
      ∀ element, element ∈ uniqueSorted elements ↔ element ∈ elements := by
  unfold uniqueSorted
  refine ⟨ascending_toList_set _, fun element => ?_⟩
  rw [Std.ExtTreeSet.mem_toList, Std.ExtTreeSet.mem_ofList, List.contains_iff_mem]

/--
The row of a vertex lists the hyperedges it is on the near side of, and its ends are the elements on
the far sides of these.
-/
theorem rows_lead {near far : List (List ProjectionElementId)} (few : near.length ≤ 2 ^ 32)
    (vertex : ProjectionElementId) : ∃ row others,
      (occurrences (sideSets near) vertex.toNat).map UInt32.ofNat = row ∧ Ascending row ∧
      (∀ hyperedge : UInt32, hyperedge ∈ row ↔
        ∃ elements, near[hyperedge.toNat]? = some elements ∧ vertex ∈ elements) ∧
      uniqueSorted (((occurrences (sideSets near) vertex.toNat).flatMap fun hyperedge =>
        (sideSets far).getD hyperedge []).map UInt32.ofNat) = others ∧ Ascending others ∧
      ∀ other : UInt32, other ∈ others ↔ ∃ hyperedge ∈ row,
        ∃ elements, far[hyperedge.toNat]? = some elements ∧ other ∈ elements := by
  -- Hyperedges are numbered in `u32`, so a number that is listed is its own ID.
  have number {hyperedge : Nat} (listed : hyperedge ∈ occurrences (sideSets near) vertex.toNat) :
      (UInt32.ofNat hyperedge).toNat = hyperedge := by
    have below := (Hypergraph.occurrence_position listed).1
    rw [sideSets, List.length_map] at below
    exact UInt32.toNat_ofNat_of_lt' (Nat.lt_of_lt_of_le below few)
  have inRow (hyperedge : UInt32) :
      hyperedge ∈ (occurrences (sideSets near) vertex.toNat).map UInt32.ofNat ↔
        hyperedge.toNat ∈ occurrences (sideSets near) vertex.toNat := by
    rw [mem_map]
    constructor
    · rintro ⟨other, listed, rfl⟩
      rwa [number listed]
    · intro listed
      exact ⟨_, listed, UInt32.ofNat_toNat⟩
  have occurs (hyperedge : Nat) : hyperedge ∈ occurrences (sideSets near) vertex.toNat ↔
      ∃ elements, near[hyperedge]? = some elements ∧ vertex ∈ elements := by
    rw [← mem_sideSets, mem_occurrences, List.getD_eq_getElem?_getD]
    cases (sideSets near)[hyperedge]? with
    | none => simp
    | some set => simp
  obtain ⟨sorted, members⟩ := uniqueSorted_spec
    (((occurrences (sideSets near) vertex.toNat).flatMap fun hyperedge =>
      (sideSets far).getD hyperedge []).map UInt32.ofNat)
  refine ⟨_, _, rfl, ?_, fun hyperedge => (inRow hyperedge).trans (occurs _), rfl, sorted,
    fun other => ?_⟩
  · -- Occurrences are listed by number.
    have ascending : (occurrences (sideSets near) vertex.toNat).Pairwise (· < ·) :=
      List.Pairwise.filter _ List.pairwise_lt_range
    refine List.pairwise_map.mpr (ascending.imp_of_mem fun first second before => ?_)
    rw [Std.compare_eq_lt, UInt32.lt_iff_toNat_lt, number first, number second]
    exact before
  · rw [members, mem_map]
    constructor
    · rintro ⟨slot, listed, rfl⟩
      obtain ⟨hyperedge, occurs, member⟩ := List.mem_flatMap.mp listed
      obtain ⟨element, rfl⟩ := exists_of_mem_sideSets member
      refine ⟨UInt32.ofNat hyperedge, List.mem_map_of_mem occurs, ?_⟩
      rw [number occurs, UInt32.ofNat_toNat]
      exact mem_sideSets.mp member
    · rintro ⟨hyperedge, listed, elements, located, member⟩
      refine ⟨other.toNat, List.mem_flatMap.mpr ⟨hyperedge.toNat, (inRow _).mp listed, ?_⟩,
        UInt32.ofNat_toNat⟩
      exact mem_sideSets.mpr ⟨elements, located, member⟩

end HypergraphProjectionBuilder

end Oxgraph
