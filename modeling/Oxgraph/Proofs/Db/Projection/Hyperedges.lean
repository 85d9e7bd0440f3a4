import Oxgraph.Proofs.Db.Projection.Faithful
import Oxgraph.Spec.Projection

/-! The hyperedges that a hypergraph projection collects, with their incidences and participants. -/

namespace Oxgraph

open Layout

theorem projectionIncidenceId_eq_ok {index : Nat} {id : ProjectionIncidenceId} :
    projectionIncidenceId index = .ok id ↔ id.toNat = index := by
  unfold projectionIncidenceId
  rw [← show fromUsize index = some id ↔ id.toNat = index from fromUsize_eq_some]
  cases (fromUsize index : Option UInt32) <;> simp

namespace HypergraphProjectionBuilder

-- One incidence.

/-- The records in some roles, in order. -/
def inRoles (roles : BTreeSet RoleId) (records : List IncidenceRecord) : List IncidenceRecord :=
  records.filter fun record => roles.contains record.role

theorem inRoles_append (roles : BTreeSet RoleId) (records more : List IncidenceRecord) :
    inRoles roles (records ++ more) = inRoles roles records ++ inRoles roles more :=
  List.filter_append ..

/-- An ID names a record. -/
def Names (incidences : List IncidenceRecord) (id : ProjectionIncidenceId)
    (record : IncidenceRecord) : Prop :=
  incidences[id.toNat]? = some record

/-- A local element is that of a record. -/
def Stands (elements : List ElementId) (vertex : ProjectionElementId) (record : IncidenceRecord) :
    Prop :=
  elements[vertex.toNat]? = some record.element

/-- The arrays of a hyperedge hold its records and those of each side, position by position. -/
structure Holds (definition : HypergraphProjectionDefinition) (incidences : List IncidenceRecord)
    (elements : List ElementId) (records : List IncidenceRecord) (arrays : HyperedgeArrays) :
    Prop where
  relationIds : List.Forall₂ (Names incidences) arrays.relationIds records
  sourceIds : List.Forall₂ (Names incidences) arrays.sourceIds
    (inRoles definition.sourceRoles records)
  targetIds : List.Forall₂ (Names incidences) arrays.targetIds
    (inRoles definition.targetRoles records)
  sources : List.Forall₂ (Stands elements) arrays.sources (inRoles definition.sourceRoles records)
  targets : List.Forall₂ (Stands elements) arrays.targets (inRoles definition.targetRoles records)

variable {definition : HypergraphProjectionDefinition} {incidences : List IncidenceRecord}
  {elements : List ElementId} {records : List IncidenceRecord} {arrays : HyperedgeArrays}

/-- Arrays hold the same when more is collected. -/
theorem Holds.grow (holds : Holds definition incidences elements records arrays)
    {moreIncidences : List IncidenceRecord} {moreElements : List ElementId}
    (grownIncidences : incidences <+: moreIncidences) (grownElements : elements <+: moreElements) :
    Holds definition moreIncidences moreElements records arrays := by
  have names {ids : List ProjectionIncidenceId} {records : List IncidenceRecord}
      (each : List.Forall₂ (Names incidences) ids records) :
      List.Forall₂ (Names moreIncidences) ids records :=
    each.imp fun _ _ => getElem?_of_isPrefix grownIncidences
  have stands {vertices : List ProjectionElementId} {records : List IncidenceRecord}
      (each : List.Forall₂ (Stands elements) vertices records) :
      List.Forall₂ (Stands moreElements) vertices records :=
    each.imp fun _ _ => getElem?_of_isPrefix grownElements
  exact ⟨names holds.relationIds, names holds.sourceIds, names holds.targetIds,
    stands holds.sources, stands holds.targets⟩

/-- A list for one side takes what belongs to a further record if that has a role of the side. -/
theorem forall₂_inRoles {A : Type} {related : A → IncidenceRecord → Prop} {items : List A}
    {roles : BTreeSet RoleId} (each : List.Forall₂ related items (inRoles roles records))
    {record : IncidenceRecord} {item : A} (one : related item record) :
    List.Forall₂ related (if roles.contains record.role then items ++ [item] else items)
      (inRoles roles (records ++ [record])) := by
  rw [inRoles_append]
  by_cases inside : roles.contains record.role = true
  · have last : inRoles roles [record] = [record] := by simp [inRoles, inside]
    rw [if_pos inside, last]
    exact List.rel_append each (.cons one .nil)
  · have none : inRoles roles [record] = [] := by simp [inRoles, inside]
    rw [if_neg inside, none, List.append_nil]
    exact each

/-- The records are numbered by their ids and their elements by theirs, and no other elements. -/
structure Interned (builder : HypergraphProjectionBuilder) : Prop where
  incidences : Numbered UInt32.toNat (builder.incidences.map IncidenceRecord.id)
    builder.incidenceIndex
  elements : Numbered UInt32.toNat builder.elements builder.elementIndex
  members : ∀ element, element ∈ builder.elements ↔
    ∃ record ∈ builder.incidences, record.element = element

/-- There are no more elements than incidences. -/
theorem Interned.length_elements_le {builder : HypergraphProjectionBuilder}
    (interned : builder.Interned) : builder.elements.length ≤ builder.incidences.length := by
  have inside : builder.elements ⊆ builder.incidences.map IncidenceRecord.element := by
    intro element member
    obtain ⟨record, listed, rfl⟩ := (interned.members element).mp member
    exact List.mem_map_of_mem listed
  have count := (interned.elements.nodup.subperm inside).length_le
  rwa [List.length_map] at count

variable {before after : HypergraphProjectionBuilder} {record : IncidenceRecord}
  {held : HyperedgeArrays}

/-- What pushing records leaves: they follow those before, and only what numbers them changes. -/
structure Pushes (before : HypergraphProjectionBuilder) (records : List IncidenceRecord)
    (after : HypergraphProjectionBuilder) : Prop where
  rest : after = { before with
    elements := after.elements, elementIndex := after.elementIndex
    incidences := after.incidences, incidenceIndex := after.incidenceIndex }
  interned : after.Interned
  incidences : after.incidences = before.incidences ++ records
  grown : before.elements <+: after.elements

/-- Interning numbers the element, and changes nothing else. -/
theorem internElement_spec {canonical : ElementId} {id : ProjectionElementId}
    (interned : before.internElement canonical = .ok (id, after))
    (numbered : Numbered UInt32.toNat before.elements before.elementIndex) :
    Enters UInt32.toNat before.elements canonical id after.elements after.elementIndex ∧
      after = { before with elements := after.elements, elementIndex := after.elementIndex } := by
  unfold internElement at interned
  split at interned
  · rename_i known found
    cases interned
    exact ⟨numbered.enters_found found, rfl⟩
  · rename_i absent
    obtain ⟨fresh, allocated, done⟩ := bind_eq_ok.mp interned
    cases done
    have next := projectionElementId_eq_ok.mp allocated
    exact ⟨numbered.enters_absent (fun _ _ => UInt32.toNat_inj.mp) absent next, rfl⟩

/-- A new record takes the next number, and nothing else changes. -/
theorem pushIncidence_eq_ok {id : ProjectionIncidenceId}
    (absent : before.incidenceIndex[record.id]? = none) :
    before.pushIncidence record = .ok (id, after) ↔ id.toNat = before.incidences.length ∧
      after = { before with
        incidences := before.incidences ++ [record]
        incidenceIndex := before.incidenceIndex.insert record.id id } := by
  rw [pushIncidence, absent, bind_eq_ok]
  constructor
  · rintro ⟨_, allocated, done⟩
    obtain ⟨rfl, rfl⟩ := Prod.mk.inj (Except.ok.inj done)
    exact ⟨projectionIncidenceId_eq_ok.mp allocated, rfl⟩
  · rintro ⟨next, rfl⟩
    exact ⟨id, projectionIncidenceId_eq_ok.mpr next, rfl⟩

/-- A record that is entered follows those before, and its arrays hold it. -/
theorem pushParticipant_spec (interned : before.Interned)
    (fresh : record.id ∉ before.incidences.map IncidenceRecord.id)
    (holds : Holds before.definition before.incidences before.elements records arrays)
    (pushed : pushParticipant (arrays, before) record = .ok (held, after)) :
    before.Pushes [record] after ∧
      Holds before.definition after.incidences after.elements (records ++ [record]) held := by
  obtain ⟨⟨id, middle⟩, first, rest⟩ := bind_eq_ok.mp pushed
  obtain ⟨⟨vertex, last⟩, second, done⟩ := bind_eq_ok.mp rest
  obtain ⟨rfl, rfl⟩ := Prod.mk.inj (Except.ok.inj done)
  obtain ⟨next, rfl⟩ := (pushIncidence_eq_ok (interned.incidences.absent fresh)).mp first
  have numbered := interned.incidences.push (fun _ _ => UInt32.toNat_inj.mp) fresh
    (next.trans (List.length_map _).symm)
  obtain ⟨entered, same⟩ := internElement_spec second interned.elements
  have lastIncidences : last.incidences = before.incidences ++ [record] := by rw [same]
  have lastIndex : last.incidenceIndex = before.incidenceIndex.insert record.id id := by rw [same]
  have lastDefinition : last.definition = before.definition := by rw [same]
  have named : Names last.incidences id record := by
    rw [Names, lastIncidences, next, List.getElem?_concat_length]
  have grown : before.incidences <+: last.incidences := lastIncidences ▸ List.prefix_append _ _
  have held := holds.grow grown entered.grown
  refine ⟨⟨?_, ⟨?_, entered.numbered, fun element => ?_⟩, lastIncidences, entered.grown⟩, ?_⟩
  · rw [same]
  · rw [lastIncidences, lastIndex, List.map_append]
    exact numbered
  · -- Its element is the one that may have been new.
    rw [entered.members, lastIncidences]
    show element ∈ before.elements ∨ element = record.element ↔ _
    rw [interned.members]
    simp only [List.mem_append, List.mem_singleton, or_and_right, exists_or, exists_eq_left]
    exact or_congr_right eq_comm
  · rw [lastDefinition]
    exact ⟨List.rel_append held.relationIds (.cons named .nil),
      forall₂_inRoles held.sourceIds named, forall₂_inRoles held.targetIds named,
      forall₂_inRoles held.sources entered.located, forall₂_inRoles held.targets entered.located⟩

/-- What two batches of records leave is what both leave together. -/
theorem Pushes.trans {middle : HypergraphProjectionBuilder} {more : List IncidenceRecord}
    (first : before.Pushes records middle) (second : middle.Pushes more after) :
    before.Pushes (records ++ more) after := by
  refine ⟨?_, second.interned, ?_, first.grown.trans second.grown⟩
  · have rest := second.rest
    rw [first.rest] at rest
    exact rest
  · rw [second.incidences, first.incidences, List.append_assoc]

/-- An element is interned when `u32` can number it. -/
theorem exists_internElement {canonical : ElementId} (room : before.elements.length < 2 ^ 32) :
    ∃ result, before.internElement canonical = .ok result := by
  unfold internElement
  cases before.elementIndex[canonical]? with
  | some known => exact ⟨_, rfl⟩
  | none =>
    have allocated := projectionElementId_eq_ok.mpr
      (UInt32.toNat_ofNat_of_lt' room : (UInt32.ofNat before.elements.length).toNat = _)
    exact ⟨_, bind_eq_ok.mpr ⟨_, allocated, rfl⟩⟩

/-- A record is entered when `u32` can number it. -/
theorem exists_pushParticipant (interned : before.Interned)
    (fresh : record.id ∉ before.incidences.map IncidenceRecord.id)
    (room : before.incidences.length < 2 ^ 32) :
    ∃ result, pushParticipant (arrays, before) record = .ok result := by
  have pushed := (pushIncidence_eq_ok (interned.incidences.absent fresh)).mpr
    ⟨UInt32.toNat_ofNat_of_lt' room, rfl⟩
  -- There are no more elements than incidences, so a new element finds a number too.
  obtain ⟨result, element⟩ := @exists_internElement { before with
    incidences := before.incidences ++ [record]
    incidenceIndex := before.incidenceIndex.insert record.id _ } record.element
      (Nat.lt_of_le_of_lt interned.length_elements_le room)
  exact ⟨_, bind_eq_ok.mpr ⟨_, pushed, bind_eq_ok.mpr ⟨_, element, rfl⟩⟩⟩

/-- Fresh records of a list leave fresh ones after the first is entered. -/
theorem Pushes.fresh {rest : List IncidenceRecord} (pushes : before.Pushes [record] after)
    (fresh : ((before.incidences ++ record :: rest).map IncidenceRecord.id).Nodup) :
    ((after.incidences ++ rest).map IncidenceRecord.id).Nodup := by
  rw [pushes.incidences, List.append_assoc]
  exact fresh

/-- The first of fresh records is fresh. -/
theorem fresh_head {rest : List IncidenceRecord}
    (fresh : ((before.incidences ++ record :: rest).map IncidenceRecord.id).Nodup) :
    record.id ∉ before.incidences.map IncidenceRecord.id := by
  rw [List.map_append, List.map_cons] at fresh
  exact fun member => (List.nodup_append.mp fresh).2.2 _ member _ (by simp) rfl

/-- Records that are entered follow those before, and the arrays hold them. -/
theorem pushParticipants_spec {more : List IncidenceRecord}
    (pushed : more.foldlM pushParticipant (arrays, before) = .ok (held, after))
    (interned : before.Interned)
    (fresh : ((before.incidences ++ more).map IncidenceRecord.id).Nodup)
    (holds : Holds before.definition before.incidences before.elements records arrays) :
    before.Pushes more after ∧
      Holds before.definition after.incidences after.elements (records ++ more) held := by
  induction more generalizing before records arrays with
  | nil =>
    cases pushed
    exact ⟨⟨rfl, interned, by simp, List.prefix_rfl⟩, by simpa using holds⟩
  | cons record rest ih =>
    obtain ⟨⟨next, middle⟩, first, others⟩ := bind_eq_ok.mp pushed
    obtain ⟨pushes, holdsNext⟩ := pushParticipant_spec interned (fresh_head fresh) holds first
    have same : middle.definition = before.definition := by rw [pushes.rest]
    rw [← same] at holdsNext
    obtain ⟨later, holdsAll⟩ := ih others pushes.interned (pushes.fresh fresh) holdsNext
    rw [same, List.append_assoc] at holdsAll
    exact ⟨pushes.trans later, holdsAll⟩

/-- Records are all entered when `u32` can number them. -/
theorem exists_pushParticipants {more : List IncidenceRecord} (interned : before.Interned)
    (fresh : ((before.incidences ++ more).map IncidenceRecord.id).Nodup)
    (holds : Holds before.definition before.incidences before.elements records arrays)
    (room : before.incidences.length + more.length ≤ 2 ^ 32) :
    ∃ result, more.foldlM pushParticipant (arrays, before) = .ok result := by
  induction more generalizing before records arrays with
  | nil => exact ⟨_, rfl⟩
  | cons record rest ih =>
    rw [List.length_cons] at room
    obtain ⟨⟨next, middle⟩, first⟩ :=
      @exists_pushParticipant arrays before record interned (fresh_head fresh) (by omega)
    obtain ⟨pushes, holdsNext⟩ := pushParticipant_spec interned (fresh_head fresh) holds first
    have same : middle.definition = before.definition := by rw [pushes.rest]
    rw [← same] at holdsNext
    obtain ⟨result, others⟩ := ih pushes.interned (pushes.fresh fresh) holdsNext (by
      rw [pushes.incidences, List.length_append, List.length_singleton]
      omega)
    exact ⟨result, bind_eq_ok.mpr ⟨_, first, others⟩⟩

end HypergraphProjectionBuilder

section Views

variable {view : LayeredState} (sound : view.Sound)
include sound

/-- The incidences of a relation are the visible ones of it, in id order. -/
theorem relationIncidences_spec (id : RelationId) :
    (∀ record, record ∈ view.relationIncidences id ↔
      view.incidence record.id = some record ∧ record.relation = id) ∧
    Ascending ((view.relationIncidences id).map IncidenceRecord.id) := by
  obtain ⟨members, sorted⟩ := incidences_spec sound.coherent
  rw [relationIncidences_eq_scan sound.coherent sound.represents]
  unfold LayeredState.relationIncidencesScan
  refine ⟨fun record => ?_, ascending_map_filter sorted _⟩
  rw [List.mem_filter, members]
  simp

/-- Relations do not share incidences. -/
theorem nodup_flatMap_relationIncidences {ids : List RelationId} (distinct : ids.Nodup) :
    ((ids.flatMap view.relationIncidences).map IncidenceRecord.id).Nodup := by
  rw [List.map_flatMap]
  refine List.nodup_flatMap.mpr ⟨fun id _ => (relationIncidences_spec sound id).2.nodup, ?_⟩
  refine distinct.imp fun {first second} differ key one other => ?_
  obtain ⟨record, listed, rfl⟩ := List.mem_map.mp one
  obtain ⟨record', listed', same⟩ := List.mem_map.mp other
  obtain ⟨visible, rfl⟩ := ((relationIncidences_spec sound _).1 record).mp listed
  obtain ⟨visible', rfl⟩ := ((relationIncidences_spec sound _).1 record').mp listed'
  -- One id has one record, and so one relation.
  rw [same, visible] at visible'
  cases visible'
  exact differ rfl

namespace HypergraphProjectionBuilder

variable {definition : HypergraphProjectionDefinition} {before after : HypergraphProjectionBuilder}
  {hyperedges : List HyperedgeArrays}

omit sound

/-- The arrays of a relation, with a participant on each side. -/
structure Shown (view : LayeredState) (definition : HypergraphProjectionDefinition)
    (builder : HypergraphProjectionBuilder) (id : RelationId) (arrays : HyperedgeArrays) :
    Prop where
  holds : Holds definition builder.incidences builder.elements (view.relationIncidences id) arrays
  sources : arrays.sources ≠ []
  targets : arrays.targets ≠ []

/-- A builder that holds the arrays of the relations it collected. -/
structure Collected (view : LayeredState) (definition : HypergraphProjectionDefinition)
    (hyperedges : List HyperedgeArrays) (builder : HypergraphProjectionBuilder) : Prop where
  defined : builder.definition = definition
  relations : Numbered UInt32.toNat builder.relations builder.relationIndex
  interned : builder.Interned
  incidences : builder.incidences = builder.relations.flatMap view.relationIncidences
  shown : List.Forall₂ (Shown view definition builder) builder.relations hyperedges
  -- Each array of the builder has one row of the arrays of each hyperedge.
  relationIncidences : builder.relationIncidences = hyperedges.map HyperedgeArrays.relationIds
  sourceIncidences : builder.sourceIncidences = hyperedges.map HyperedgeArrays.sourceIds
  targetIncidences : builder.targetIncidences = hyperedges.map HyperedgeArrays.targetIds
  sourceVertices : builder.sourceVertices = hyperedges.map HyperedgeArrays.sources
  targetVertices : builder.targetVertices = hyperedges.map HyperedgeArrays.targets

theorem collected_new : Collected view definition [] (new definition) :=
  ⟨rfl, .nil, ⟨.nil, .nil, by simp [new]⟩, rfl, .nil, rfl, rfl, rfl, rfl, rfl⟩

/-- No arrays hold no records. -/
theorem holds_nil {incidences : List IncidenceRecord} {elements : List ElementId} :
    Holds definition incidences elements [] ⟨[], [], [], [], []⟩ :=
  ⟨.nil, .nil, .nil, .nil, .nil⟩

/-- A relation has incidences, as it has participants. -/
theorem Shown.ne_nil {id : RelationId} {arrays : HyperedgeArrays}
    (shown : Shown view definition before id arrays) : view.relationIncidences id ≠ [] := by
  intro none
  have length := shown.holds.sources.length_eq
  rw [none] at length
  exact shown.sources (List.length_eq_zero_iff.mp length)

include sound

/-- The incidences of a new relation are new. -/
theorem Collected.fresh (collected : Collected view definition hyperedges before)
    {id : RelationId} (fresh : id ∉ before.relations) :
    ((before.incidences ++ view.relationIncidences id).map IncidenceRecord.id).Nodup := by
  have distinct : (before.relations ++ [id]).Nodup := by
    refine List.nodup_append.mpr ⟨collected.relations.nodup, List.nodup_singleton _, ?_⟩
    intro other member last single same
    exact fresh (List.mem_singleton.mp single ▸ same ▸ member)
  have whole := nodup_flatMap_relationIncidences sound distinct
  rwa [List.flatMap_append, ← collected.incidences, List.flatMap_singleton] at whole

variable {record : RelationRecord}

/-- A relation that is pushed is collected with its arrays. -/
theorem Collected.push (collected : Collected view definition hyperedges before)
    (fresh : record.id ∉ before.relations) (pushed : pushRelation view before record = .ok after) :
    ∃ arrays, Collected view definition (hyperedges ++ [arrays]) after ∧
      after.relations = before.relations ++ [record.id] := by
  obtain ⟨hyperedge, allocated, rest⟩ := bind_eq_ok.mp pushed
  obtain ⟨⟨arrays, last⟩, entered, done⟩ := bind_eq_ok.mp rest
  obtain ⟨pushes, holds⟩ := pushParticipants_spec entered
    ⟨collected.interned.incidences, collected.interned.elements, collected.interned.members⟩
    (collected.fresh sound fresh) holds_nil
  dsimp only at done
  split at done
  · cases done
  rename_i bothSides
  cases done
  -- Entering its incidences touches none of the arrays.
  have sameDefinition : last.definition = definition := by rw [pushes.rest, collected.defined]
  have relations : last.relations = before.relations ++ [record.id] := by rw [pushes.rest]
  have index : last.relationIndex = before.relationIndex.insert record.id hyperedge := by
    rw [pushes.rest]
  have grown : before.incidences <+: last.incidences :=
    pushes.incidences ▸ List.prefix_append _ _
  have shown : Shown view definition last record.id arrays := by
    refine ⟨?_, fun none => bothSides (.inl ?_), fun none => bothSides (.inr ?_)⟩
    · rw [← collected.defined]
      exact holds
    · rw [none]
      rfl
    · rw [none]
      rfl
  -- So each of them takes the row of the new hyperedge.
  have row {Row : Type} {field : HypergraphProjectionBuilder → List Row}
      {own : HyperedgeArrays → Row} (rows : field last = field before)
      (collected : field before = hyperedges.map own) :
      field last ++ [own arrays] = (hyperedges ++ [arrays]).map own := by
    rw [rows, collected, List.map_append, List.map_singleton]
  refine ⟨arrays, {
    defined := sameDefinition
    relations := ?_
    interned := ⟨pushes.interned.incidences, pushes.interned.elements, pushes.interned.members⟩
    incidences := ?_
    shown := ?_
    relationIncidences := row (by rw [pushes.rest]) collected.relationIncidences
    sourceIncidences := row (by rw [pushes.rest]) collected.sourceIncidences
    targetIncidences := row (by rw [pushes.rest]) collected.targetIncidences
    sourceVertices := row (by rw [pushes.rest]) collected.sourceVertices
    targetVertices := row (by rw [pushes.rest]) collected.targetVertices }, relations⟩
  · show Numbered UInt32.toNat last.relations last.relationIndex
    rw [relations, index]
    exact collected.relations.push (fun _ _ => UInt32.toNat_inj.mp) fresh
      (projectionRelationId_eq_ok.mp allocated)
  · show last.incidences = last.relations.flatMap view.relationIncidences
    rw [pushes.incidences, relations, List.flatMap_append, ← collected.incidences,
      List.flatMap_singleton]
  · show List.Forall₂ _ last.relations _
    rw [relations]
    refine List.rel_append (collected.shown.imp fun id arrays before => ?_)
      (.cons ⟨shown.holds, shown.sources, shown.targets⟩ .nil)
    exact ⟨before.holds.grow grown pushes.grown, before.sources, before.targets⟩

omit sound in
/-- Every relation collected has incidences. -/
theorem Collected.length_relations_le (collected : Collected view definition hyperedges before) :
    before.relations.length ≤ before.incidences.length := by
  have each : ∀ id ∈ before.relations, view.relationIncidences id ≠ [] := by
    intro id member
    obtain ⟨position, located⟩ := List.mem_iff_getElem?.mp member
    obtain ⟨_, _, shown⟩ := forall₂_getElem? collected.shown located
    exact shown.ne_nil
  have counts := List.length_le_sum_of_one_le
    (before.relations.map fun id => (view.relationIncidences id).length) (by
      intro count member
      obtain ⟨id, listed, rfl⟩ := List.mem_map.mp member
      exact List.length_pos_iff.mpr (each id listed))
  rwa [List.length_map, ← List.length_flatMap, ← collected.incidences] at counts

/-- A relation with participants on both sides is pushed when `u32` can number its incidences. -/
theorem Collected.exists_push (collected : Collected view definition hyperedges before)
    (fresh : record.id ∉ before.relations)
    (sources : inRoles definition.sourceRoles (view.relationIncidences record.id) ≠ [])
    (targets : inRoles definition.targetRoles (view.relationIncidences record.id) ≠ [])
    (room : before.incidences.length + (view.relationIncidences record.id).length ≤ 2 ^ 32) :
    ∃ after, pushRelation view before record = .ok after := by
  -- The relations so far have as many incidences at least, and this one has some too.
  have some : 0 < (view.relationIncidences record.id).length := by
    refine List.length_pos_iff.mpr fun none => sources ?_
    rw [none]
    rfl
  have few : before.relations.length < 2 ^ 32 := by
    have fewer := collected.length_relations_le
    omega
  have allocated := projectionRelationId_eq_ok.mpr
    (UInt32.toNat_ofNat_of_lt' few : (UInt32.ofNat before.relations.length).toNat = _)
  have interned := collected.interned
  obtain ⟨⟨arrays, last⟩, entered⟩ := @exists_pushParticipants [] ⟨[], [], [], [], []⟩
    { before with
      relations := before.relations ++ [record.id]
      relationIndex := before.relationIndex.insert record.id (UInt32.ofNat before.relations.length) }
    (view.relationIncidences record.id) ⟨interned.incidences, interned.elements, interned.members⟩
    (collected.fresh sound fresh) holds_nil room
  obtain ⟨_, holds⟩ := pushParticipants_spec entered
    ⟨interned.incidences, interned.elements, interned.members⟩ (collected.fresh sound fresh)
    holds_nil
  -- What is held of a side is as much as there is.
  have bothSides : ¬(arrays.sources.isEmpty ∨ arrays.targets.isEmpty) := by
    have same := collected.defined
    rintro (none | none)
    · have length := holds.sources.length_eq
      rw [List.isEmpty_iff.mp none] at length
      exact sources (same ▸ List.length_eq_zero_iff.mp length.symm)
    · have length := holds.targets.length_eq
      rw [List.isEmpty_iff.mp none] at length
      exact targets (same ▸ List.length_eq_zero_iff.mp length.symm)
  exact ⟨_, bind_eq_ok.mpr ⟨_, allocated, bind_eq_ok.mpr ⟨_, entered, if_neg bothSides⟩⟩⟩

/-- Pushing the first of distinct relations leaves distinct ones to be pushed after it. -/
theorem Collected.pushHead (collected : Collected view definition hyperedges before)
    {rest : List RelationRecord}
    (fresh : (before.relations ++ (record :: rest).map RelationRecord.id).Nodup)
    (pushed : pushRelation view before record = .ok after) :
    ∃ arrays, Collected view definition (hyperedges ++ [arrays]) after ∧
      before.relations ++ (record :: rest).map RelationRecord.id =
        after.relations ++ rest.map RelationRecord.id := by
  have new : record.id ∉ before.relations := fun member =>
    (List.nodup_append.mp fresh).2.2 _ member _ (by simp) rfl
  obtain ⟨arrays, collectedAfter, relations⟩ := collected.push sound new pushed
  refine ⟨arrays, collectedAfter, ?_⟩
  rw [relations]
  simp

/-- Relations pushed one after the other are all collected. -/
theorem Collected.pushAll {records : List RelationRecord}
    (collected : Collected view definition hyperedges before)
    (fresh : (before.relations ++ records.map RelationRecord.id).Nodup)
    (pushed : records.foldlM (pushRelation view) before = .ok after) :
    ∃ all, Collected view definition all after ∧
      after.relations = before.relations ++ records.map RelationRecord.id := by
  induction records generalizing before hyperedges with
  | nil =>
    cases pushed
    exact ⟨hyperedges, collected, by simp⟩
  | cons record rest ih =>
    obtain ⟨middle, first, others⟩ := bind_eq_ok.mp pushed
    obtain ⟨arrays, collectedMiddle, follow⟩ := collected.pushHead sound fresh first
    rw [follow] at fresh ⊢
    exact ih collectedMiddle fresh others

/-- Relations with both sides are all pushed when `u32` can number their incidences. -/
theorem Collected.exists_pushAll {records : List RelationRecord}
    (collected : Collected view definition hyperedges before)
    (sides : ∀ record ∈ records,
      inRoles definition.sourceRoles (view.relationIncidences record.id) ≠ [] ∧
        inRoles definition.targetRoles (view.relationIncidences record.id) ≠ [])
    (fresh : (before.relations ++ records.map RelationRecord.id).Nodup)
    (room : ((before.relations ++ records.map RelationRecord.id).flatMap
      view.relationIncidences).length ≤ 2 ^ 32) :
    ∃ after, records.foldlM (pushRelation view) before = .ok after := by
  induction records generalizing before hyperedges with
  | nil => exact ⟨before, rfl⟩
  | cons record rest ih =>
    obtain ⟨sources, targets⟩ := sides record (by simp)
    have new : record.id ∉ before.relations := fun member =>
      (List.nodup_append.mp fresh).2.2 _ member _ (by simp) rfl
    obtain ⟨middle, first⟩ := collected.exists_push sound new sources targets (by
      rw [List.flatMap_append, ← collected.incidences, List.length_append, List.map_cons,
        List.flatMap_cons, List.length_append] at room
      omega)
    obtain ⟨arrays, collectedMiddle, follow⟩ := collected.pushHead sound fresh first
    rw [follow] at fresh room
    obtain ⟨after, others⟩ := ih collectedMiddle
      (fun other member => sides other (List.mem_cons_of_mem _ member)) fresh room
    exact ⟨after, bind_eq_ok.mpr ⟨middle, first, others⟩⟩

end HypergraphProjectionBuilder

end Views

end Oxgraph
