import Oxgraph.Proofs.Db.Projection.Vertices

/-! A hypergraph projection is a faithful directed hypergraph of the relations it selects. -/

namespace Oxgraph

open Layout Bcsr
open List (getElem?_map length_map map_map mem_filter mem_iff_getElem? mem_map mem_of_getElem?)

-- IDs.

/-- Keys numbered in `u32` correspond to their local IDs. -/
theorem Numbered.corresponds {K : Type} [Ord K] [Std.TransOrd K] {items : List K}
    {index : BTreeMap K UInt32} (numbered : Numbered UInt32.toNat items index) :
    HypergraphProjection.Corresponds items.length (fun id => items[localIndex id]?)
      (fun key => index[key]?) where
  covered inside := by
    obtain ⟨id, same⟩ := numbered.covered inside
    exact ⟨id, (localIndex_eq id).trans same⟩
  inverse {key id} := by
    rw [localIndex_eq]
    exact numbered.found
  bounded {id} := by
    rw [localIndex_eq]
    exact ⟨fun ⟨_, located⟩ => (List.getElem?_eq_some_iff.mp located).1,
      fun inside => ⟨_, List.getElem?_eq_getElem inside⟩⟩

namespace HypergraphProjectionBuilder

variable {view : LayeredState} {definition : HypergraphProjectionDefinition}
  {builder : HypergraphProjectionBuilder} {hyperedges : List HyperedgeArrays}

/-- An ID names one record, and a record has one ID. -/
theorem Interned.names_unique (interned : builder.Interned) :
    Relator.BiUnique (Names builder.incidences) := by
  have distinct : builder.incidences.Nodup := interned.incidences.nodup.of_map
  refine ⟨fun first second record one other => ?_, fun id first second one other => ?_⟩
  · obtain ⟨inside, _⟩ := List.getElem?_eq_some_iff.mp one
    exact UInt32.toNat_inj.mp ((List.getElem?_inj inside distinct).mp (one.trans other.symm))
  · exact Option.some.inj (one.symm.trans other)

section Rows

variable (sound : view.Sound) (collected : Collected view definition hyperedges builder)

include collected

/-- The arrays of a hyperedge are at its position. -/
theorem Collected.shownAt {id : RelationId} {hyperedge : Nat}
    (located : builder.relations[hyperedge]? = some id) :
    ∃ arrays, hyperedges[hyperedge]? = some arrays ∧ Shown view definition builder id arrays :=
  forall₂_getElem? collected.shown located

/-- A relation stands at every position below their number. -/
theorem Collected.exists_shown {hyperedge : Nat} (inside : hyperedge < builder.relations.length) :
    ∃ id arrays, builder.relations[hyperedge]? = some id ∧ hyperedges[hyperedge]? = some arrays ∧
      Shown view definition builder id arrays := by
  have located := List.getElem?_eq_getElem inside
  obtain ⟨arrays, found, shown⟩ := collected.shownAt located
  exact ⟨_, arrays, located, found, shown⟩

/-- The IDs in a row are numbered one after the other. -/
theorem Collected.ascending_relationIds {id : RelationId} {hyperedge : Nat}
    {arrays : HyperedgeArrays} (located : builder.relations[hyperedge]? = some id)
    (shown : Shown view definition builder id arrays) : Ascending arrays.relationIds := by
  have distinct : builder.incidences.Nodup := collected.interned.incidences.nodup.of_map
  -- Before the incidences of the relation stand those of the relations before it.
  obtain ⟨inside, rfl⟩ := List.getElem?_eq_some_iff.mp located
  let earlier := (builder.relations.take hyperedge).flatMap view.relationIncidences
  have follows : earlier ++ view.relationIncidences builder.relations[hyperedge] <+:
      builder.incidences := by
    have split := List.take_append_drop hyperedge builder.relations
    rw [List.drop_eq_getElem_cons inside] at split
    refine ⟨(builder.relations.drop (hyperedge + 1)).flatMap view.relationIncidences, ?_⟩
    rw [collected.incidences]
    conv_rhs => rw [← split]
    rw [List.flatMap_append, List.flatMap_cons, List.append_assoc]
  have number {position : Nat} {incidence : ProjectionIncidenceId}
      (listed : arrays.relationIds[position]? = some incidence) :
      incidence.toNat = earlier.length + position := by
    obtain ⟨record, here, names⟩ := forall₂_getElem? shown.holds.relationIds listed
    have there : builder.incidences[earlier.length + position]? = some record := by
      refine getElem?_of_isPrefix follows ?_
      rw [List.getElem?_append_right (Nat.le_add_right _ _), Nat.add_sub_cancel_left]
      exact here
    exact (List.getElem?_inj (List.getElem?_eq_some_iff.mp names).1 distinct).mp
      (names.trans there.symm)
  refine List.pairwise_iff_getElem.mpr fun first second one other before => ?_
  have low := number (List.getElem?_eq_getElem one)
  have high := number (List.getElem?_eq_getElem other)
  rw [Std.compare_eq_lt, UInt32.lt_iff_toNat_lt, low, high]
  exact Nat.add_lt_add_left before _

include sound

/-- The records of a builder are the incidences of its relations. -/
theorem Collected.mem_incidences {record : IncidenceRecord} : record ∈ builder.incidences ↔
    view.incidence record.id = some record ∧ record.relation ∈ builder.relations := by
  rw [collected.incidences, List.mem_flatMap]
  simp only [(relationIncidences_spec sound _).1]
  constructor
  · rintro ⟨id, member, visible, rfl⟩
    exact ⟨visible, member⟩
  · rintro ⟨visible, member⟩
    exact ⟨record.relation, member, visible, rfl⟩

end Rows

/-- A finished projection has the rows of its elements and the adjacency of a hypergraph. -/
def finished (builder : HypergraphProjectionBuilder) (graph : Hypergraph) :
    HypergraphProjection where
  definition := builder.definition
  elements := builder.elements
  elementIndex := builder.elementIndex
  relations := builder.relations
  relationIndex := builder.relationIndex
  incidences := builder.incidences
  incidenceIndex := builder.incidenceIndex
  relationIncidences := builder.relationIncidences
  elementIncidences := groups builder.elements.length builder.entries
  sourceIncidences := builder.sourceIncidences
  targetIncidences := builder.targetIncidences
  sourceVertices := builder.sourceVertices
  targetVertices := builder.targetVertices
  outgoingHyperedges := (directedRows graph).outgoing
  incomingHyperedges := (directedRows graph).incoming
  successors := (directedRows graph).successors
  predecessors := (directedRows graph).predecessors

section Finished

variable (collected : Collected view definition hyperedges builder) (graph : Hypergraph)
  {incidence : ProjectionIncidenceId} {record : IncidenceRecord}

/-- An incidence answers with the element of its record. -/
theorem incidenceElement_finished (named : Names builder.incidences incidence record) :
    (finished builder graph).incidenceElement incidence = builder.elementIndex[record.element]? := by
  unfold HypergraphProjection.incidenceElement
  rw [localIndex_eq]
  show (builder.incidences[incidence.toNat]?).bind _ = _
  rw [named]
  rfl

/-- An incidence answers with the relation of its record. -/
theorem incidenceRelation_finished (named : Names builder.incidences incidence record) :
    (finished builder graph).incidenceRelation incidence =
      builder.relationIndex[record.relation]? := by
  unfold HypergraphProjection.incidenceRelation
  rw [localIndex_eq]
  show (builder.incidences[incidence.toNat]?).bind _ = _
  rw [named]
  rfl

/-- An incidence answers with the role of its record. -/
theorem incidenceRole_finished (named : Names builder.incidences incidence record) :
    (finished builder graph).incidenceRole incidence = some record.role := by
  unfold HypergraphProjection.incidenceRole
  rw [localIndex_eq]
  exact congrArg (Option.map IncidenceRecord.role) named

/-- An incidence that answers has a record. -/
theorem exists_named {Answer : Type} {read : IncidenceRecord → Option Answer} {answer : Answer}
    (answered : (builder.incidences[localIndex incidence]?).bind read = some answer) :
    ∃ record, Names builder.incidences incidence record := by
  rw [localIndex_eq] at answered
  obtain ⟨record, named, _⟩ := Option.bind_eq_some_iff.mp answered
  exact ⟨record, named⟩

include collected

/-- The element of an incidence is interned. -/
theorem Collected.element_found (named : Names builder.incidences incidence record) :
    ∃ element, builder.elementIndex[record.element]? = some element ∧
      Stands builder.elements element record := by
  obtain ⟨element, found⟩ := collected.interned.elements.mem_iff.mp
    ((collected.interned.members record.element).mpr ⟨record, mem_of_getElem? named, rfl⟩)
  exact ⟨element, found, collected.interned.elements.found.mp found⟩

variable (sound : view.Sound)
include sound

/-- The relation of an incidence is collected. -/
theorem Collected.relation_found (named : Names builder.incidences incidence record) :
    ∃ relation, builder.relationIndex[record.relation]? = some relation ∧
      builder.relations[relation.toNat]? = some record.relation := by
  obtain ⟨relation, found⟩ := collected.relations.mem_iff.mp
    ((collected.mem_incidences sound).mp (mem_of_getElem? named)).2
  exact ⟨relation, found, collected.relations.found.mp found⟩

/-- A row holds the incidences of its relation. -/
theorem Collected.mem_relationIds {hyperedge : ProjectionRelationId} {id : RelationId}
    {arrays : HyperedgeArrays} (located : builder.relations[hyperedge.toNat]? = some id)
    (shown : Shown view definition builder id arrays) :
    incidence ∈ arrays.relationIds ↔
      (finished builder graph).incidenceRelation incidence = some hyperedge := by
  constructor
  · intro member
    obtain ⟨position, listed⟩ := mem_iff_getElem?.mp member
    obtain ⟨record, here, named⟩ := forall₂_getElem? shown.holds.relationIds listed
    obtain ⟨_, rfl⟩ := ((relationIncidences_spec sound id).1 record).mp (mem_of_getElem? here)
    rw [incidenceRelation_finished graph named]
    exact collected.relations.found.mpr located
  · intro answered
    obtain ⟨record, named⟩ := exists_named answered
    rw [incidenceRelation_finished graph named] at answered
    -- So the record is of this relation, and one of the row's IDs names it.
    have same := (collected.relations.found.mp answered).symm.trans located
    have visible := ((collected.mem_incidences sound).mp (mem_of_getElem? named)).1
    have here : record ∈ view.relationIncidences id :=
      ((relationIncidences_spec sound id).1 record).mpr ⟨visible, Option.some.inj same⟩
    obtain ⟨position, listed⟩ := mem_iff_getElem?.mp here
    obtain ⟨other, inRow, names⟩ := forall₂_getElem? shown.holds.relationIds.flip listed
    rw [← collected.interned.names_unique.1 names named]
    exact mem_of_getElem? inRow

omit sound

/-- The row of an element holds its incidences in order. -/
theorem Collected.elementRow (vertex : ProjectionElementId) :
    Ascending (valuesOf builder.entries vertex.toNat) ∧ ∀ incidence,
      incidence ∈ valuesOf builder.entries vertex.toNat ↔
        (finished builder graph).incidenceElement incidence = some vertex := by
  have few : builder.incidences.length ≤ 2 ^ 32 := by
    have length := collected.interned.incidences.length_le
    rwa [length_map] at length
  have number {index : Nat} (inside : index < builder.incidences.length) :
      (UInt32.ofNat index).toNat = index :=
    UInt32.toNat_ofNat_of_lt' (Nat.lt_of_lt_of_le inside few)
  constructor
  · -- The entries are in the order of the incidences, and a row leaves some out.
    have whole : builder.entries.map Prod.snd =
        (List.range' 0 builder.incidences.length).map UInt32.ofNat := by
      rw [entries, map_map, ← List.zipIdx_map_snd, map_map]
      rfl
    have sublist : (valuesOf builder.entries vertex.toNat).Sublist
        ((List.range' 0 builder.incidences.length).map UInt32.ofNat) := by
      rw [← whole]
      exact List.filter_sublist.map _
    refine List.Pairwise.sublist sublist (List.pairwise_map.mpr ?_)
    have ordered : (List.range' 0 builder.incidences.length).Pairwise (· < ·) :=
      List.pairwise_lt_range'
    refine ordered.imp_of_mem fun {first second} one other before => ?_
    rw [List.mem_range'_1, Nat.zero_add] at one other
    rw [Std.compare_eq_lt, UInt32.lt_iff_toNat_lt, number one.2, number other.2]
    exact before
  · intro incidence
    -- An entry is in the row of the element that its incidence answers with.
    have entry {record : IncidenceRecord} {index : Nat}
        (located : builder.incidences[index]? = some record) :
        (builder.entry (record, index)).1 = vertex.toNat ↔
          (finished builder graph).incidenceElement (UInt32.ofNat index) = some vertex := by
      have named : Names builder.incidences (UInt32.ofNat index) record := by
        rw [Names, number (List.getElem?_eq_some_iff.mp located).1]
        exact located
      obtain ⟨element, found, _⟩ := collected.element_found named
      rw [incidenceElement_finished graph named, found]
      unfold HypergraphProjectionBuilder.entry
      rw [found, Option.getD_some, Option.some.injEq, UInt32.toNat_inj]
    constructor
    · intro listed
      obtain ⟨item, kept, rfl⟩ := mem_map.mp listed
      obtain ⟨member, own⟩ := mem_filter.mp kept
      obtain ⟨⟨record, index⟩, indexed, rfl⟩ := mem_map.mp member
      exact (entry (List.mk_mem_zipIdx_iff_getElem?.mp indexed)).mp (of_decide_eq_true own)
    · intro answered
      obtain ⟨record, named⟩ := exists_named answered
      have same : UInt32.ofNat incidence.toNat = incidence := UInt32.ofNat_toNat
      rw [← same] at answered
      refine mem_map.mpr ⟨builder.entry (record, incidence.toNat), mem_filter.mpr
        ⟨List.mem_map_of_mem (List.mk_mem_zipIdx_iff_getElem?.mpr named), ?_⟩, same⟩
      exact decide_eq_true ((entry named).mpr answered)

/-- A hyperedge answers with the incidences of its arrays. -/
theorem Collected.relationIncidencesOf {hyperedge : ProjectionRelationId}
    {arrays : HyperedgeArrays} (found : hyperedges[hyperedge.toNat]? = some arrays) :
    (finished builder graph).relationIncidencesOf hyperedge = some arrays.relationIds := by
  show builder.relationIncidences[localIndex hyperedge]? = _
  rw [localIndex_eq, collected.relationIncidences, getElem?_map, found]
  rfl

omit collected in
/-- A vertex answers with the incidences grouped under it. -/
theorem elementIncidencesOf_finished {vertex : ProjectionElementId}
    (inside : vertex.toNat < builder.elements.length) :
    (finished builder graph).elementIncidencesOf vertex =
      some (valuesOf builder.entries vertex.toNat) := by
  show (groups builder.elements.length builder.entries)[localIndex vertex]? = _
  rw [localIndex_eq]
  exact getElem?_groups _ inside

/-- A side of each hyperedge shows its incidences in some roles, and the elements of those. -/
theorem Collected.showsSide {roles : BTreeSet RoleId}
    {ids : HyperedgeArrays → List ProjectionIncidenceId}
    {vertices : HyperedgeArrays → List ProjectionElementId}
    (held : ∀ {id arrays}, Shown view definition builder id arrays →
      List.Forall₂ (Names builder.incidences) (ids arrays)
          (inRoles roles (view.relationIncidences id)) ∧
        List.Forall₂ (Stands builder.elements) (vertices arrays)
          (inRoles roles (view.relationIncidences id))) :
    (finished builder graph).ShowsSide roles
      (fun hyperedge => (hyperedges.map ids)[localIndex hyperedge]?)
      (fun hyperedge => (hyperedges.map vertices)[localIndex hyperedge]?) := by
  intro hyperedge contained
  have inside := of_decide_eq_true contained
  rw [localIndex_eq] at inside
  obtain ⟨id, arrays, _, found, shown⟩ := collected.exists_shown inside
  obtain ⟨heldIds, heldVertices⟩ := held shown
  -- The incidences with a role of the side are the records with one.
  have filtered : arrays.relationIds.filter ((finished builder graph).plays roles) = ids arrays := by
    have kept : List.Forall₂ (Names builder.incidences)
        (arrays.relationIds.filter ((finished builder graph).plays roles))
        (inRoles roles (view.relationIncidences id)) := by
      refine List.rel_filter ?_ shown.holds.relationIds
      intro incidence record named
      show (((finished builder graph).incidenceRole incidence).any _ = true ↔ _)
      rw [incidenceRole_finished graph named]
      rfl
    exact List.left_unique_forall₂' collected.interned.names_unique.1 kept heldIds
  refine ⟨arrays.relationIds, vertices arrays, collected.relationIncidencesOf graph found,
    ?_, ?_, ?_⟩
  · dsimp only
    rw [localIndex_eq, getElem?_map, found, filtered]
    rfl
  · dsimp only
    rw [localIndex_eq, getElem?_map, found]
    rfl
  · rw [filtered]
    generalize inRoles roles (view.relationIncidences id) = records at heldIds heldVertices
    generalize ids arrays = incidences at heldIds
    generalize vertices arrays = elements at heldVertices
    -- Position by position, an incidence and an element of the same record.
    induction heldIds generalizing elements with
    | nil =>
      cases heldVertices
      rfl
    | cons named _ ih =>
      obtain ⟨vertex, rest, stands, others, rfl⟩ := List.forall₂_cons_right_iff.mp heldVertices
      rw [List.map_cons, List.map_cons, ih _ others, incidenceElement_finished graph named]
      rw [collected.interned.elements.found.mpr stands]

end Finished

section Sides

variable (collected : Collected view definition hyperedges builder)
include collected

/-- The sides of the hyperedges. -/
def sidesOf (hyperedges : List HyperedgeArrays) :
    List (List ProjectionElementId × List ProjectionElementId) :=
  hyperedges.map fun arrays => (arrays.sources, arrays.targets)

omit collected in
theorem sidesOf_sources : (sidesOf hyperedges).map Prod.fst =
    hyperedges.map HyperedgeArrays.sources := by
  rw [sidesOf, map_map]
  rfl

omit collected in
theorem sidesOf_targets : (sidesOf hyperedges).map Prod.snd =
    hyperedges.map HyperedgeArrays.targets := by
  rw [sidesOf, map_map]
  rfl

/-- The participants of collected relations are interned elements. -/
theorem Collected.known : ∀ pair ∈ sidesOf hyperedges, Below builder.elements.length pair := by
  intro pair member
  obtain ⟨arrays, listed, rfl⟩ := mem_map.mp member
  obtain ⟨position, located⟩ := mem_iff_getElem?.mp listed
  obtain ⟨id, _, shown⟩ := forall₂_getElem? collected.shown.flip located
  -- An element of a side is that of a record, so it is interned.
  have below {elements : List ProjectionElementId} {records : List IncidenceRecord}
      (stands : List.Forall₂ (Stands builder.elements) elements records) :
      ∀ element ∈ elements, element.toNat < builder.elements.length := by
    intro element member
    obtain ⟨position, located⟩ := mem_iff_getElem?.mp member
    obtain ⟨record, _, stands⟩ := forall₂_getElem? stands located
    exact (List.getElem?_eq_some_iff.mp stands).1
  exact ⟨below shown.holds.sources, below shown.holds.targets⟩

theorem Collected.zipped :
    builder.sourceVertices.zip builder.targetVertices = sidesOf hyperedges := by
  rw [collected.sourceVertices, collected.targetVertices, List.zip_map', sidesOf]

theorem Collected.length_hyperedges_le : hyperedges.length ≤ 2 ^ 32 := by
  rw [← collected.shown.length_eq]
  exact collected.relations.length_le

theorem Collected.length_sidesOf_le : (sidesOf hyperedges).length ≤ 2 ^ 32 := by
  rw [sidesOf, length_map]
  exact collected.length_hyperedges_le

/-- Sides that `u32` can count are finished. -/
theorem Collected.finish_eq (sources : total (hyperedges.map HyperedgeArrays.sources) < 2 ^ 32)
    (targets : total (hyperedges.map HyperedgeArrays.targets) < 2 ^ 32) :
    builder.finish = pure (finished builder (added _ _ collected.known).graph) := by
  have arrays := buildDirectedVertexArrays_eq collected.known collected.length_sidesOf_le
    collected.interned.elements.length_le collected.zipped (sidesOf_sources ▸ sources)
    (sidesOf_targets ▸ targets)
  unfold finish
  refine (Fallible.bind_of_pure (buildElementIncidences_eq collected.interned)).trans ?_
  exact Fallible.bind_of_pure arrays

/-- Sides that `u32` cannot count are refused. -/
theorem Collected.finish_error
    (wide : 2 ^ 32 ≤ total (hyperedges.map HyperedgeArrays.sources) ∨
      2 ^ 32 ≤ total (hyperedges.map HyperedgeArrays.targets)) :
    ∃ error, builder.finish = throw error := by
  rw [← sidesOf_sources, ← sidesOf_targets] at wide
  obtain ⟨error, raised⟩ := buildDirectedVertexArrays_error collected.known
    collected.length_sidesOf_le collected.interned.elements.length_le collected.zipped wide
  refine ⟨error, ?_⟩
  unfold finish
  refine (Fallible.bind_of_pure (buildElementIncidences_eq collected.interned)).trans ?_
  exact Fallible.bind_of_throw raised

end Sides

section Participants

/-- The canonical ID of an interned element. -/
def canonical (builder : HypergraphProjectionBuilder) (vertex : ProjectionElementId) : ElementId :=
  builder.elements.getD vertex.toNat 0

theorem canonical_eq {vertex : ProjectionElementId} {record : IncidenceRecord}
    (stands : Stands builder.elements vertex record) :
    builder.canonical vertex = record.element := by
  rw [canonical, List.getD_eq_getElem?_getD, stands]
  rfl

/-- Each relation with the elements in its row, each where it first occurs. -/
def participantPairs (builder : HypergraphProjectionBuilder)
    (rows : List (List ProjectionElementId)) : List (RelationId × ElementId) :=
  (builder.relations.zip rows).flatMap fun entry =>
    (firsts entry.2).map fun vertex => (entry.1, builder.canonical vertex)

variable (sound : view.Sound) (collected : Collected view definition hyperedges builder)
  {roles : BTreeSet RoleId} {rows : List (List ProjectionElementId)}
  (each : List.Forall₂ (fun id row => List.Forall₂ (Stands builder.elements) row
    (inRoles roles (view.relationIncidences id))) builder.relations rows)
include each

theorem length_participantPairs : (builder.participantPairs rows).length = total rows := by
  have second : (builder.relations.zip rows).map Prod.snd = rows :=
    List.map_snd_zip each.length_eq.ge
  rw [participantPairs, List.length_flatMap, total]
  conv_rhs => rw [← second, map_map]
  simp only [length_map]
  rfl

/-- Each participant is that of a record. -/
theorem exists_record {entry : RelationId × List ProjectionElementId}
    (member : entry ∈ builder.relations.zip rows) {vertex : ProjectionElementId}
    (listed : vertex ∈ entry.2) : ∃ record ∈ inRoles roles (view.relationIncidences entry.1),
      Stands builder.elements vertex record := by
  obtain ⟨position, located⟩ := mem_iff_getElem?.mp listed
  obtain ⟨record, here, stands⟩ := forall₂_getElem? (List.forall₂_zip each member) located
  exact ⟨record, mem_of_getElem? here, stands⟩

include collected

/-- No participant is there twice. -/
theorem nodup_participantPairs : (builder.participantPairs rows).Nodup := by
  refine List.nodup_flatMap.mpr ⟨fun entry member => ?_, ?_⟩
  · -- Elements are interned once, so different participants are different elements.
    refine (nodup_firsts entry.2).map_on fun first one second other same => ?_
    obtain ⟨record, _, here⟩ := exists_record each member (mem_firsts.mp one)
    obtain ⟨record', _, there⟩ := exists_record each member (mem_firsts.mp other)
    have alike := (Prod.mk.inj same).2
    rw [canonical_eq here, canonical_eq there] at alike
    rw [Stands, alike] at here
    exact UInt32.toNat_inj.mp ((List.getElem?_inj (List.getElem?_eq_some_iff.mp here).1
      collected.interned.elements.nodup).mp (here.trans there.symm))
  · -- Entries are of different relations.
    have first : (builder.relations.zip rows).map Prod.fst = builder.relations :=
      List.map_fst_zip each.length_eq.le
    have apart : (builder.relations.zip rows).Pairwise fun one other => one.1 ≠ other.1 := by
      rw [← List.pairwise_map, first]
      exact collected.relations.nodup
    refine apart.imp fun {one other} differ pair inOne inOther => ?_
    obtain ⟨_, _, rfl⟩ := mem_map.mp inOne
    obtain ⟨_, _, same⟩ := mem_map.mp inOther
    exact differ (Prod.mk.inj same).1.symm

variable (selected : ∀ id, id ∈ builder.relations ↔ id ∈ view.SelectedBy definition.relationTypes)
include sound selected

omit collected in
/-- The participants listed are those that take part in a selected relation in one of the roles. -/
theorem mem_participantPairs (pair : RelationId × ElementId) :
    pair ∈ builder.participantPairs rows ↔ pair ∈ view.Participants definition roles := by
  constructor
  · intro member
    obtain ⟨entry, listed, inEntry⟩ := List.mem_flatMap.mp member
    obtain ⟨vertex, first, rfl⟩ := mem_map.mp inEntry
    obtain ⟨record, played, here⟩ := exists_record each listed (mem_firsts.mp first)
    obtain ⟨ofRelation, role⟩ := mem_filter.mp played
    obtain ⟨visible, same⟩ := ((relationIncidences_spec sound _).1 record).mp ofRelation
    refine ⟨record, ⟨visible, (selected _).mp ?_⟩, Std.ExtTreeSet.contains_iff_mem.mp role, ?_⟩
    · rw [same]
      exact (List.of_mem_zip listed).1
    · rw [same, canonical_eq here]
  · rintro ⟨record, ⟨visible, chosen⟩, role, rfl⟩
    -- The record stands in the row of its relation, and its element beside it.
    obtain ⟨position, located⟩ := mem_iff_getElem?.mp ((selected _).mpr chosen)
    obtain ⟨elements, row, stand⟩ := forall₂_getElem? each located
    have listed : (record.relation, elements) ∈ builder.relations.zip rows :=
      mem_of_getElem? (List.getElem?_zip_eq_some.mpr ⟨located, row⟩)
    have played : record ∈ inRoles roles (view.relationIncidences record.relation) :=
      mem_filter.mpr ⟨((relationIncidences_spec sound _).1 record).mpr ⟨visible, rfl⟩,
        Std.ExtTreeSet.contains_iff_mem.mpr role⟩
    obtain ⟨index, found⟩ := mem_iff_getElem?.mp played
    obtain ⟨vertex, here, stands⟩ := forall₂_getElem? stand.flip found
    refine List.mem_flatMap.mpr ⟨_, listed, mem_map.mpr
      ⟨vertex, mem_firsts.mpr (mem_of_getElem? here), ?_⟩⟩
    rw [canonical_eq stands]

/-- As many distinct participants are in the rows as take part in the roles. -/
theorem ncard_participants : (view.Participants definition roles).ncard = total rows := by
  rw [ncard_of_nodup (nodup_participantPairs collected each)
    (mem_participantPairs sound each selected), length_participantPairs each]

end Participants

/-- A row of a vertex stands at its number. -/
theorem getElem?_rows {T : Type} {count : Nat} {row : Nat → T} {vertex : UInt32}
    (inside : vertex.toNat < count) :
    ((List.range count).map row)[localIndex vertex]? = some (row vertex.toNat) := by
  rw [localIndex_eq, getElem?_map, List.getElem?_range inside]
  rfl

/-- The rows of a side answer which vertices take part on it. -/
theorem takesPart_iff {rows : List (List ProjectionElementId)} {hyperedge vertex : UInt32} :
    HypergraphProjection.TakesPart (fun hyperedge => rows[localIndex hyperedge]?) hyperedge vertex ↔
      ∃ elements, rows[hyperedge.toNat]? = some elements ∧ vertex ∈ elements := by
  unfold HypergraphProjection.TakesPart
  simp only [localIndex_eq]

/-- Vertices lead from the near side of the hyperedges to the far side. -/
theorem leads {projection : HypergraphProjection} {near far : List (List ProjectionElementId)}
    {hyperedgesOf ends : ProjectionElementId → Option (List UInt32)}
    (few : near.length ≤ 2 ^ 32)
    (own : ∀ {vertex : UInt32}, vertex.toNat < projection.elements.length →
      hyperedgesOf vertex = some ((occurrences (sideSets near) vertex.toNat).map UInt32.ofNat))
    (others : ∀ {vertex : UInt32}, vertex.toNat < projection.elements.length →
      ends vertex = some (uniqueSorted (((occurrences (sideSets near) vertex.toNat).flatMap
        fun hyperedge => (sideSets far).getD hyperedge []).map UInt32.ofNat))) :
    projection.Leads (fun hyperedge => near[localIndex hyperedge]?)
      (fun hyperedge => far[localIndex hyperedge]?) hyperedgesOf ends := by
  intro vertex contained
  have inside := of_decide_eq_true contained
  rw [localIndex_eq] at inside
  obtain ⟨row, reached, rfl, ascending, members, rfl, sorted, far⟩ := @rows_lead near far few vertex
  refine ⟨_, _, own inside, ascending, fun hyperedge => ?_, others inside, sorted, fun other => ?_⟩
  · rw [members, takesPart_iff]
  · rw [far]
    simp only [takesPart_iff]

section Faithful

variable (sound : view.Sound) (collected : Collected view definition hyperedges builder)
  (ordered : Ascending builder.relations)
  (selected : ∀ id, id ∈ builder.relations ↔ id ∈ view.SelectedBy definition.relationTypes)
include sound collected ordered selected

/-- What is finished from collected relations is a faithful directed hypergraph of them. -/
theorem Collected.faithful :
    (finished builder (added _ _ collected.known).graph).Faithful view definition where
  defined := collected.defined
  ordered := ordered
  relations := selected
  incidences record := by
    refine (collected.mem_incidences sound).trans ?_
    rw [selected]
    rfl
  elements id := by
    refine (collected.interned.members id).trans (exists_congr fun record => ?_)
    rw [collected.mem_incidences sound, selected]
    rfl
  relationIds := collected.relations.corresponds
  elementIds := collected.interned.elements.corresponds
  incidenceIds := by
    have corresponds := collected.interned.incidences.corresponds
    rw [length_map] at corresponds
    simp only [getElem?_map] at corresponds
    exact corresponds
  incidence {incidence record} located := by
    rw [localIndex_eq] at located
    have named : Names builder.incidences incidence record := located
    obtain ⟨relation, foundRelation, ofRelation⟩ := collected.relation_found sound named
    obtain ⟨element, foundElement, ofElement⟩ := collected.element_found named
    refine ⟨incidenceRole_finished _ named, ⟨relation, ?_, ?_⟩, element, ?_, ?_⟩
    · rw [incidenceRelation_finished _ named, foundRelation]
    · unfold HypergraphProjection.canonicalRelationId
      rw [localIndex_eq]
      exact ofRelation
    · rw [incidenceElement_finished _ named, foundElement]
    · unfold HypergraphProjection.canonicalElementId
      rw [localIndex_eq]
      exact ofElement
  relationRows hyperedge contained := by
    have inside := of_decide_eq_true contained
    rw [localIndex_eq] at inside
    obtain ⟨id, arrays, located, found, shown⟩ := collected.exists_shown inside
    exact ⟨arrays.relationIds, collected.relationIncidencesOf _ found,
      collected.ascending_relationIds located shown,
      fun incidence => collected.mem_relationIds _ sound located shown⟩
  elementRows vertex contained := by
    have inside := of_decide_eq_true contained
    rw [localIndex_eq] at inside
    obtain ⟨ascending, members⟩ := collected.elementRow
      (added _ _ collected.known).graph vertex
    exact ⟨_, elementIncidencesOf_finished _ inside, ascending, members⟩
  sources := by
    have shows := collected.showsSide (added _ _ collected.known).graph
      fun shown => ⟨shown.holds.sourceIds, shown.holds.sources⟩
    rw [← collected.sourceIncidences, ← collected.sourceVertices] at shows
    exact shows
  targets := by
    have shows := collected.showsSide (added _ _ collected.known).graph
      fun shown => ⟨shown.holds.targetIds, shown.holds.targets⟩
    rw [← collected.targetIncidences, ← collected.targetVertices] at shows
    exact shows
  outgoing := by
    have heads := heads_added collected.known
    have tails := tails_added collected.known
    rw [sidesOf_sources, ← collected.sourceVertices] at heads
    rw [sidesOf_targets, ← collected.targetVertices] at tails
    refine @leads _ builder.sourceVertices builder.targetVertices _ _ ?_ ?_ ?_
    · rw [collected.sourceVertices, length_map]
      exact collected.length_hyperedges_le
    · intro vertex inside
      refine (getElem?_rows inside).trans ?_
      rw [Hypergraph.outgoingOf, heads]
    · intro vertex inside
      refine (getElem?_rows inside).trans ?_
      unfold Hypergraph.outgoingOf Hypergraph.tailOf
      rw [heads, tails]
  incoming := by
    -- The other way, targets are near and sources are far.
    have heads := heads_added collected.known
    have tails := tails_added collected.known
    rw [sidesOf_sources, ← collected.sourceVertices] at heads
    rw [sidesOf_targets, ← collected.targetVertices] at tails
    refine @leads _ builder.targetVertices builder.sourceVertices _ _ ?_ ?_ ?_
    · rw [collected.targetVertices, length_map]
      exact collected.length_hyperedges_le
    · intro vertex inside
      refine (getElem?_rows inside).trans ?_
      rw [Hypergraph.incomingOf, tails]
    · intro vertex inside
      refine (getElem?_rows inside).trans ?_
      unfold Hypergraph.incomingOf Hypergraph.headOf
      rw [heads, tails]
  participants hyperedge contained := by
    have inside := of_decide_eq_true contained
    rw [localIndex_eq] at inside
    obtain ⟨id, arrays, located, found, shown⟩ := collected.exists_shown inside
    have row := collected.relationIncidencesOf (added _ _ collected.known).graph found
    obtain ⟨elements, mapped, same⟩ := exists_mapM_some fun incidence member => by
      obtain ⟨position, listed⟩ := mem_iff_getElem?.mp member
      obtain ⟨record, _, named⟩ := forall₂_getElem? shown.holds.relationIds listed
      obtain ⟨element, answered, _⟩ := collected.element_found named
      exact ⟨element, (incidenceElement_finished (added _ _ collected.known).graph named).trans
        answered⟩
    refine ⟨_, elements, row, ?_, same⟩
    unfold HypergraphProjection.hyperedgeParticipants
    rw [row]
    exact mapped
  incident vertex contained := by
    have inside := of_decide_eq_true contained
    rw [localIndex_eq] at inside
    have row := elementIncidencesOf_finished (added _ _ collected.known).graph inside
    have members := (collected.elementRow (added _ _ collected.known).graph vertex).2
    obtain ⟨relations, mapped, same⟩ := exists_mapM_some fun incidence member => by
      obtain ⟨record, named⟩ := exists_named ((members incidence).mp member)
      obtain ⟨relation, answered, _⟩ := collected.relation_found sound named
      exact ⟨relation, (incidenceRelation_finished (added _ _ collected.known).graph named).trans
        answered⟩
    refine ⟨_, relations, row, ?_, same⟩
    unfold HypergraphProjection.incidentHyperedges
    rw [row]
    exact mapped

end Faithful

section Sides

variable (sound : view.Sound) {ids : List RelationId}
  (selected : ∀ id, id ∈ ids ↔ id ∈ view.SelectedBy definition.relationTypes)
include sound selected

/-- The selected relations have a side when each has a record in one of its roles. -/
theorem hasSide_iff (roles : BTreeSet RoleId) : view.HasSide definition roles ↔
    ¬roles.isEmpty ∧ ∀ id ∈ ids, inRoles roles (view.relationIncidences id) ≠ [] := by
  have nonempty : ¬roles.isEmpty ↔ ∃ role, role ∈ roles := by
    rw [isEmpty_set_iff]
    push Not
    rfl
  have played {id : RelationId} (chosen : id ∈ view.SelectedBy definition.relationTypes) :
      inRoles roles (view.relationIncidences id) ≠ [] ↔
        ∃ record ∈ view.Participates definition, record.relation = id ∧ record.role ∈ roles := by
    constructor
    · intro nonempty
      obtain ⟨record, member⟩ := List.exists_mem_of_ne_nil _ nonempty
      obtain ⟨listed, role⟩ := mem_filter.mp member
      obtain ⟨visible, rfl⟩ := ((relationIncidences_spec sound id).1 record).mp listed
      exact ⟨record, ⟨visible, chosen⟩, rfl, Std.ExtTreeSet.contains_iff_mem.mp role⟩
    · rintro ⟨record, ⟨visible, _⟩, rfl, role⟩
      exact List.ne_nil_of_mem (mem_filter.mpr
        ⟨((relationIncidences_spec sound _).1 record).mpr ⟨visible, rfl⟩,
          Std.ExtTreeSet.contains_iff_mem.mpr role⟩)
  rw [nonempty]
  refine and_congr_right fun _ => ⟨fun each id member => ?_, fun each id chosen => ?_⟩
  · have chosen := (selected id).mp member
    exact (played chosen).mpr (each id chosen)
  · exact (played chosen).mp (each id ((selected id).mpr chosen))

/-- As many incidences are listed for the selected relations as take part in them. -/
theorem ncard_participates (distinct : ids.Nodup) :
    (view.Participates definition).ncard = (ids.flatMap view.relationIncidences).length := by
  refine ncard_of_nodup (nodup_flatMap_relationIncidences sound distinct).of_map fun record => ?_
  rw [List.mem_flatMap]
  simp only [(relationIncidences_spec sound _).1]
  constructor
  · rintro ⟨id, member, visible, rfl⟩
    exact ⟨visible, (selected _).mp member⟩
  · rintro ⟨visible, chosen⟩
    exact ⟨record.relation, (selected _).mpr chosen, visible, rfl⟩

end Sides

end HypergraphProjectionBuilder

open HypergraphProjectionBuilder

section Views

variable {view : LayeredState}

/-- The selected relations, pushed one after the other. -/
def pushSelected (view : LayeredState) (definition : HypergraphProjectionDefinition) :
    Except DbError HypergraphProjectionBuilder :=
  (view.relations.filter fun relation =>
    relationSelected relation definition.relationTypes).foldlM (pushRelation view) (.new definition)

/-- With roles of both sides, the selected relations are pushed and the projection is finished. -/
theorem fromState_eq {definition : HypergraphProjectionDefinition}
    (both : ¬(definition.sourceRoles.isEmpty ∨ definition.targetRoles.isEmpty)) :
    HypergraphProjection.fromState view definition =
      Fallible.ofResult (pushSelected view definition) >>= finish := if_neg both

/-- When all selected relations were pushed, they are collected in id order. -/
theorem collected_of_pushSelected (sound : view.Sound)
    {definition : HypergraphProjectionDefinition} {builder : HypergraphProjectionBuilder}
    (pushed : pushSelected view definition = .ok builder) :
    ∃ hyperedges, Collected view definition hyperedges builder ∧ Ascending builder.relations ∧
      ∀ id, id ∈ builder.relations ↔ id ∈ view.SelectedBy definition.relationTypes := by
  obtain ⟨ordered, selected⟩ := selectedBy_relations sound.coherent definition.relationTypes
  obtain ⟨hyperedges, collected, relations⟩ := collected_new.pushAll sound
    (by simpa [new] using ordered.nodup) pushed
  rw [show (new definition).relations = [] from rfl, List.nil_append] at relations
  rw [← relations] at ordered selected
  exact ⟨hyperedges, collected, ordered, selected⟩

/--
A hypergraph projection is there exactly when there are roles of both sides, every selected relation
has a participant on each, and `u32` can number the incidences and count the participants of each
side, and then it is a faithful directed hypergraph.
-/
theorem hypergraphProjection_faithful (sound : view.Sound)
    (definition : HypergraphProjectionDefinition) :
    ((∃ projection, HypergraphProjection.fromState view definition = pure projection) ↔
      view.Directed definition) ∧
    (∀ projection, HypergraphProjection.fromState view definition = pure projection →
      projection.Faithful view definition) ∧
    (HypergraphProjection.fromState view definition).Total := by
  by_cases empty : definition.sourceRoles.isEmpty ∨ definition.targetRoles.isEmpty
  · -- A projection without roles of a side is refused.
    unfold HypergraphProjection.fromState
    rw [if_pos empty]
    refine ⟨⟨fun never => absurd never Fallible.not_exists_throw, fun directed => ?_⟩,
      fun _ never => absurd never Fallible.throw_ne_pure, Fallible.total_throw _⟩
    obtain ⟨⟨source, listedSource⟩, _⟩ := directed.sources
    obtain ⟨⟨target, listedTarget⟩, _⟩ := directed.targets
    rcases empty with none | none
    · exact absurd listedSource (isEmpty_set_iff.mp none source)
    · exact absurd listedTarget (isEmpty_set_iff.mp none target)
  rw [fromState_eq empty]
  obtain ⟨sourceRoles, targetRoles⟩ := not_or.mp empty
  cases pushed : pushSelected view definition with
  | error error =>
    -- The relations would all have been pushed, had they both sides and enough numbers.
    refine ⟨⟨fun never => absurd never Fallible.not_exists_throw, fun directed => ?_⟩,
      fun _ never => absurd never Fallible.throw_ne_pure, Fallible.total_throw error⟩
    obtain ⟨ordered, selected⟩ := selectedBy_relations sound.coherent definition.relationTypes
    have incidences := ncard_participates sound selected ordered.nodup
    obtain ⟨_, sources⟩ := (hasSide_iff sound selected _).mp directed.sources
    obtain ⟨_, targets⟩ := (hasSide_iff sound selected _).mp directed.targets
    obtain ⟨after, folded⟩ := collected_new.exists_pushAll sound
      (fun record member => ⟨sources _ (List.mem_map_of_mem member),
        targets _ (List.mem_map_of_mem member)⟩)
      (by simpa [new] using ordered.nodup) (by
        rw [show (new definition).relations = [] from rfl, List.nil_append, ← incidences]
        exact directed.incidences)
    cases pushed.symm.trans folded
  | ok builder =>
    obtain ⟨hyperedges, collected, ordered, selected⟩ := collected_of_pushSelected sound pushed
    have incidences := ncard_participates sound selected collected.relations.nodup
    -- What was collected has both sides, and `u32` has numbered its incidences.
    have shownAt {id : RelationId} (member : id ∈ builder.relations) :
        ∃ arrays, Shown view definition builder id arrays := by
      obtain ⟨position, located⟩ := mem_iff_getElem?.mp member
      obtain ⟨arrays, _, shown⟩ := collected.shownAt located
      exact ⟨arrays, shown⟩
    have sources := (hasSide_iff sound selected _).mpr ⟨sourceRoles, fun id member none => by
      obtain ⟨arrays, shown⟩ := shownAt member
      have length := shown.holds.sources.length_eq
      rw [none] at length
      exact shown.sources (List.length_eq_zero_iff.mp length)⟩
    have targets := (hasSide_iff sound selected _).mpr ⟨targetRoles, fun id member none => by
      obtain ⟨arrays, shown⟩ := shownAt member
      have length := shown.holds.targets.length_eq
      rw [none] at length
      exact shown.targets (List.length_eq_zero_iff.mp length)⟩
    have numbered : (view.Participates definition).ncard ≤ 2 ^ 32 := by
      have length := collected.interned.incidences.length_le
      rwa [length_map, collected.incidences, ← incidences] at length
    have sourceCount := ncard_participants sound collected (List.forall₂_map_right_iff.mpr
      (collected.shown.imp fun _ _ shown => shown.holds.sources)) selected
    have targetCount := ncard_participants sound collected (List.forall₂_map_right_iff.mpr
      (collected.shown.imp fun _ _ shown => shown.holds.targets)) selected
    show ((∃ projection, builder.finish = pure projection) ↔ _) ∧
      (∀ projection, builder.finish = pure projection → _) ∧ builder.finish.Total
    by_cases wide : 2 ^ 32 ≤ total (hyperedges.map HyperedgeArrays.sources) ∨
        2 ^ 32 ≤ total (hyperedges.map HyperedgeArrays.targets)
    · -- One participant too many is refused.
      obtain ⟨error, raised⟩ := collected.finish_error wide
      rw [raised]
      refine ⟨⟨fun never => absurd never Fallible.not_exists_throw, fun directed => ?_⟩,
        fun _ never => absurd never Fallible.throw_ne_pure, Fallible.total_throw error⟩
      have first := directed.sourceParticipants
      have second := directed.targetParticipants
      omega
    · -- The participants can be counted: the projection is finished, and what it needed was met.
      obtain ⟨fewSources, fewTargets⟩ := not_or.mp wide
      rw [Nat.not_le] at fewSources fewTargets
      have finishes := collected.finish_eq fewSources fewTargets
      refine ⟨⟨fun _ => ⟨sources, targets, numbered, ?_, ?_⟩, fun _ => ⟨_, finishes⟩⟩, ?_, ?_⟩
      · rw [sourceCount]
        exact fewSources
      · rw [targetCount]
        exact fewTargets
      · intro projection built
        rw [← Fallible.pure_eq_pure.mp (finishes.symm.trans built)]
        exact collected.faithful sound ordered selected
      · rw [finishes]
        exact Fallible.total_pure _

end Views

/--
A store of three elements and two relations: one in which an element has two roles and another is
attached twice, and one with an element in a role of no side.
-/
def hypergraphWriter : Writer :=
  WriterOp.runAll [.registerRole "source", .registerRole "target", .registerRole "witness",
      .createElement, .createElement, .createElement,
      .createRelation, .createIncidence 1 2 1, .createIncidence 1 1 1, .createIncidence 1 2 2,
      .createIncidence 1 1 1,
      .createRelation, .createIncidence 2 3 3, .createIncidence 2 1 1, .createIncidence 2 2 2]
    ⟨⟨0, 0, .empty .initial .empty, .empty⟩, .fromOverlay (.empty .initial .empty), 1⟩

theorem hypergraphWriter_sound : hypergraphWriter.merged.Sound :=
  Writer.Step.sound (WriterOp.runAll_steps _ _) LayeredState.sound_empty

/-- The projection whose sources play either role, and whose targets the second. -/
def eitherDefinition : HypergraphProjectionDefinition where
  name := "either"
  relationTypes := ∅
  sourceRoles := (∅ : BTreeSet RoleId).insertMany [1, 2]
  targetRoles := (∅ : BTreeSet RoleId).insert 2

/-- Repeated sources stand in the rows, and an element of no side is projected. -/
theorem hypergraphProjection_faithful_either : ∃ projection,
    HypergraphProjection.fromState hypergraphWriter.merged eitherDefinition = pure projection ∧
      projection.Faithful hypergraphWriter.merged eitherDefinition ∧
      projection.elements = [2, 1, 3] ∧ projection.sourceVertices = [[0, 1, 0, 1], [1, 0]] := by
  have rows : ∃ builder, pushSelected hypergraphWriter.merged eitherDefinition = .ok builder ∧
      builder.elements = [2, 1, 3] ∧ builder.sourceVertices = [[0, 1, 0, 1], [1, 0]] ∧
      builder.targetVertices = [[0], [0]] := by
    obtain ⟨builder, pushed, rows⟩ := Fallible.exists_of_returns
      (show (Fallible.ofResult (pushSelected hypergraphWriter.merged eitherDefinition)).returns
        (fun builder => builder.elements = [2, 1, 3] ∧
          builder.sourceVertices = [[0, 1, 0, 1], [1, 0]] ∧
          builder.targetVertices = [[0], [0]]) = true
        by decide +kernel)
    exact ⟨builder, Fallible.ofResult_eq_pure.mp pushed, of_decide_eq_true rows⟩
  obtain ⟨builder, pushed, elements, sources, targets⟩ := rows
  obtain ⟨hyperedges, collected, _⟩ := collected_of_pushSelected hypergraphWriter_sound pushed
  have finishes := collected.finish_eq
    (by rw [← collected.sourceVertices, sources]; decide)
    (by rw [← collected.targetVertices, targets]; decide)
  have built : HypergraphProjection.fromState hypergraphWriter.merged eitherDefinition =
      pure (finished builder (added _ _ collected.known).graph) := by
    refine Eq.trans ?_ finishes
    rw [fromState_eq (by decide), pushed]
    rfl
  obtain ⟨_, faithful, _⟩ := hypergraphProjection_faithful hypergraphWriter_sound eitherDefinition
  exact ⟨_, built, faithful _ built, elements, sources⟩

end Oxgraph
