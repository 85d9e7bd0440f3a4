import Oxgraph.Db.HypergraphProjection
import Oxgraph.Db.Query.Plan
import Oxgraph.Proofs.Db.Database.Calls
import Oxgraph.Proofs.Db.Database.Commit
import Oxgraph.Proofs.Db.Overlay.Merge
import Oxgraph.Proofs.Db.Wal

/-! How a store is split between its base and its overlay shows in no read and in no write. -/

namespace Oxgraph

/-- What a view shows of a store: its contents, its catalog, and its allocators. -/
structure ShownState where
  contents : Contents
  catalog : Catalog
  next : NextIds

/-- What a layered view shows. -/
def LayeredState.shown (view : LayeredState) : ShownState :=
  ⟨view.contents, view.catalog, view.nextIds⟩

-- Reads.

/-- Every iterator and every index-backed lookup of two views returns the same. -/
structure LayeredState.ReadsLike (left right : LayeredState) : Prop where
  elements : left.elements = right.elements
  relations : left.relations = right.relations
  incidences : left.incidences = right.incidences
  properties : left.properties = right.properties
  subjectProperties : left.subjectProperties = right.subjectProperties
  elementsWithLabel : left.elementsWithLabel = right.elementsWithLabel
  relationsWithType : left.relationsWithType = right.relationsWithType
  elementIncidences : left.elementIncidences = right.elementIncidences
  relationIncidences : left.relationIncidences = right.relationIncidences
  propertyEqual : left.propertyEqual = right.propertyEqual
  propertyRange : left.propertyRange = right.propertyRange
  propertyKeySubjects : left.propertyKeySubjects = right.propertyKeySubjects
  typedPropertyEqualForFamily :
    left.typedPropertyEqualForFamily = right.typedPropertyEqualForFamily
  typedPropertyCompositeEqual : ∀ keys values, keys ≠ [] →
    left.typedPropertyCompositeEqual keys values = right.typedPropertyCompositeEqual keys values

/-- So does every projection, neighbour lookup and query over them. -/
structure LayeredState.AnswersLike (left right : LayeredState) : Prop
    extends ReadsLike left right where
  graph : GraphProjection.fromState left = GraphProjection.fromState right
  hypergraph : HypergraphProjection.fromState left = HypergraphProjection.fromState right
  neighbors : ∀ {one other : Reader}, one.snapshot.view = left → other.snapshot.view = right →
    one.neighbors = other.neighbors
  prepare : PreparedQuery.prepare left = PreparedQuery.prepare right
  execute : PreparedQuery.execute left = PreparedQuery.execute right

section Reads

variable {left right : LayeredState}

/-- Records listed by two enumerations of the same reads are the same. -/
theorem eq_of_enumerates {Record : Type} {own : Record → UInt64}
    {read again : UInt64 → Option Record} (same : read = again) {first second : List Record}
    (one : Enumerates (first.map fun record => (own record, record)) read)
    (other : Enumerates (second.map fun record => (own record, record)) again) :
    first = second := by
  subst same
  have pairs := congrArg (List.map Prod.snd) (one.unique other)
  simpa only [List.map_map, Function.comp_def, List.map_id'] using pairs

/-- Sound views that show the same read alike, however they are layered. -/
theorem LayeredState.Sound.readsLike (leftSound : left.Sound) (rightSound : right.Sound)
    (shown : left.shown = right.shown) : left.ReadsLike right := by
  obtain ⟨contents, catalog, _⟩ := ShownState.mk.inj shown
  obtain ⟨element, relation, incidence, property⟩ := Contents.mk.inj contents
  have leftKeyed := leftSound.coherent.toKeyed
  have rightKeyed := rightSound.coherent.toKeyed
  -- The records and the properties are listed in the order of their keys.
  have elements : left.elements = right.elements :=
    eq_of_enumerates element
      (enumerates_records ElementRecord.id leftKeyed.base.element leftKeyed.merged.element)
      (enumerates_records ElementRecord.id rightKeyed.base.element rightKeyed.merged.element)
  have relations : left.relations = right.relations :=
    eq_of_enumerates relation
      (enumerates_records RelationRecord.id leftKeyed.base.relation leftKeyed.merged.relation)
      (enumerates_records RelationRecord.id rightKeyed.base.relation rightKeyed.merged.relation)
  have incidences : left.incidences = right.incidences :=
    eq_of_enumerates incidence
      (enumerates_records IncidenceRecord.id leftKeyed.base.incidence leftKeyed.merged.incidence)
      (enumerates_records IncidenceRecord.id rightKeyed.base.incidence rightKeyed.merged.incidence)
  have properties : left.properties = right.properties := by
    refine enumerates_properties.unique ?_
    rw [property]
    exact enumerates_properties
  have validates : left.validateLookupValueForFamily = right.validateLookupValueForFamily := by
    unfold validateLookupValueForFamily
    rw [catalog]
  have tuples : left.validateTuple = right.validateTuple := by
    unfold validateTuple validateLookupValue
    rw [catalog]
  -- Every lookup answers as a scan of what is listed.
  have one := leftSound.exact
  have other := rightSound.exact
  have equal : left.propertyEqual = right.propertyEqual := by
    funext key value
    rw [one.propertyEqual, other.propertyEqual, propertyEqualScan, propertyEqualScan, properties]
  refine ⟨elements, relations, incidences, properties, ?_, ?_, ?_, ?_, ?_, equal, ?_, ?_, ?_, ?_⟩
  · funext subject
    refine (enumerates_subjectProperties subject).unique ?_
    rw [property]
    exact enumerates_subjectProperties subject
  · funext label
    rw [one.elementsWithLabel, other.elementsWithLabel, elementsWithLabelScan,
      elementsWithLabelScan, elements]
  · funext relationType
    rw [one.relationsWithType, other.relationsWithType, relationsWithTypeScan,
      relationsWithTypeScan, relations]
  · funext id
    rw [one.elementIncidences, other.elementIncidences, elementIncidencesScan,
      elementIncidencesScan, incidences]
  · funext id
    rw [one.relationIncidences, other.relationIncidences, relationIncidencesScan,
      relationIncidencesScan, incidences]
  · funext key min max
    rw [one.propertyRange, other.propertyRange, propertyRangeScan, propertyRangeScan, properties]
  · funext key
    rw [one.propertyKeySubjects, other.propertyKeySubjects, propertyKeySubjectsScan,
      propertyKeySubjectsScan, properties]
  · unfold typedPropertyEqualForFamily
    rw [equal, validates]
  · intro keys values nonempty
    rw [one.typedPropertyCompositeEqual keys values nonempty,
      other.typedPropertyCompositeEqual keys values nonempty]
    unfold typedPropertyCompositeEqualScan propertiesBySubject
    rw [tuples, properties]

/-- Views that show the same and read alike answer alike. -/
theorem LayeredState.ReadsLike.answersLike (reads : left.ReadsLike right)
    (shown : left.shown = right.shown) : left.AnswersLike right := by
  obtain ⟨contents, catalog, _⟩ := ShownState.mk.inj shown
  obtain ⟨_, relation, _, property⟩ := Contents.mk.inj contents
  have graph : GraphProjection.fromState left = GraphProjection.fromState right := by
    unfold GraphProjection.fromState GraphProjectionBuilder.pushRelation graphEndpoints
    rw [reads.relations, reads.relationIncidences]
  refine ⟨reads, graph, ?_, ?_, ?_, ?_⟩
  · unfold HypergraphProjection.fromState HypergraphProjectionBuilder.pushRelation
    rw [reads.relations, reads.relationIncidences]
  · rintro one other rfl rfl
    unfold Reader.neighbors
    dsimp only
    rw [reads.elementIncidences, reads.relationIncidences, relation]
  · -- A query is bound against the catalog, and its predicates leaf by leaf.
    have comparison : bindComparison left = bindComparison right := by
      unfold bindComparison validateLookupValueForFamily
      rw [catalog]
    have predicate : bindPredicate left = bindPredicate right := by
      funext predicate
      induction predicate with
      | compare => rw [bindPredicate, bindPredicate, comparison]
      | and _ _ one other | or _ _ one other => rw [bindPredicate, bindPredicate, one, other]
    unfold PreparedQuery.prepare bindAndLower lowerGraphWalk
    rw [comparison, predicate, catalog]
  · have evaluate : BoundPredicate.evaluate left = BoundPredicate.evaluate right := by
      funext element predicate
      induction predicate with
      | compare => rw [BoundPredicate.evaluate, BoundPredicate.evaluate, property]
      | and _ _ one other | or _ _ one other =>
        rw [BoundPredicate.evaluate, BoundPredicate.evaluate, one, other]
    unfold PreparedQuery.execute QueryPlan.execute scanElementsWithProperty filterElements
      executeGraphWalk graphProjection scanCatalog
    rw [reads.elements, reads.relations, reads.incidences, reads.elementsWithLabel,
      reads.relationsWithType, reads.typedPropertyEqualForFamily, evaluate, graph, catalog]

end Reads

-- Writes.

/-- Two writers show the same store, and have logged the same ops. -/
structure Writer.Alike (left right : Writer) : Prop where
  shown : left.merged.shown = right.merged.shown
  log : left.delta.log = right.delta.log

namespace Writer

variable {left right : Writer} {T U : Type}

/-- A mutator cannot tell apart sound writers that are alike. -/
def Blind (mutator : Mutation DbError Writer T) : Prop :=
  mutator.Agrees (fun writer => writer.merged.Sound) Alike

theorem Alike.contents (alike : Alike left right) :
    left.merged.contents = right.merged.contents := congrArg ShownState.contents alike.shown

theorem Alike.catalog (alike : Alike left right) : left.delta.catalog = right.delta.catalog :=
  congrArg ShownState.catalog alike.shown

theorem Alike.next (alike : Alike left right) : left.delta.next = right.delta.next :=
  congrArg ShownState.next alike.shown

/-- A guarded mutator keeps the view sound. -/
theorem Guarded.keeps {mutator : Mutation DbError Writer T} (guarded : Guarded mutator) :
    mutator.Keeps fun writer => writer.merged.Sound :=
  fun writer sound => Step.sound (guarded writer) sound

/-- Blind mutators in turn are blind, since the first keeps the view sound. -/
theorem Blind.bind {first : Mutation DbError Writer T} {next : T → Mutation DbError Writer U}
    (guarded : Guarded first) (before : Blind first) (after : ∀ value, Blind (next value)) :
    Blind (first >>= next) := Mutation.Agrees.bind guarded.keeps before after

/-- One change made on both sides leaves writers alike. -/
theorem Alike.made {change : Change} {first second : Overlay} (alike : Alike left right)
    (one : change.apply left.base left.delta.toOverlay = .ok first)
    (other : change.apply right.base right.delta.toOverlay = .ok second) :
    Alike { left with delta := { first with log := change.record left.delta.log } }
      { right with delta := { second with log := change.record right.delta.log } } := by
  have contents : (LayeredState.mk left.base first).contents =
      (LayeredState.mk right.base second).contents := by
    rw [contents_apply one, contents_apply other]
    exact congrArg change.effect alike.contents
  have catalog : first.catalog = second.catalog := by
    rcases catalog_apply one with same | ⟨entry, rfl, inserted⟩
    · rcases catalog_apply other with also | ⟨entry, rfl, inserted⟩
      · rw [same, also, alike.catalog]
      · obtain ⟨_, put, rfl⟩ := Overlay.registerEntry_eq_ok.mp one
        exact Except.ok.inj (put.symm.trans ((congrArg entry.insert alike.catalog).trans inserted))
    · rcases catalog_apply other with also | ⟨_, ⟨⟩, again⟩
      · obtain ⟨_, put, rfl⟩ := Overlay.registerEntry_eq_ok.mp other
        exact Except.ok.inj
          (inserted.symm.trans ((congrArg entry.insert alike.catalog).trans put))
      · rw [alike.catalog] at inserted
        exact Except.ok.inj (inserted.symm.trans again)
  have next : first.next = second.next :=
    (next_apply one).trans (alike.next.trans (next_apply other).symm)
  exact ⟨(ShownState.mk.injEq ..).mpr ⟨contents, catalog, next⟩, congrArg change.record alike.log⟩

/-- A mutator that makes one change is blind. -/
theorem change_blind {mutator : WriteOverlay → BaseRecords → WriteOverlay} (made : Change)
    (makes : ∀ delta base, ∃ overlay, made.apply base delta.toOverlay = .ok overlay ∧
      mutator delta base = { overlay with log := made.record delta.log }) :
    Blind (change mutator) := by
  intro left right _ _ alike
  obtain ⟨first, one, leftMade⟩ := makes left.delta left.base
  obtain ⟨second, other, rightMade⟩ := makes right.delta right.base
  refine ⟨rfl, ?_⟩
  change Alike { left with delta := mutator left.delta left.base }
    { right with delta := mutator right.delta right.base }
  rw [leftMade, rightMade]
  exact alike.made one other

/-- Writers that draw the same id stay alike. -/
theorem Alike.drawn (alike : Alike left right) (family : IdFamily) (next : UInt64) :
    Alike { left with delta := { left.delta with next := left.delta.next.set family next } }
      { right with delta := { right.delta with next := right.delta.next.set family next } } := by
  have raised := congrArg (fun drawn : NextIds => drawn.set family next) alike.next
  exact ⟨(ShownState.mk.injEq ..).mpr ⟨alike.contents, alike.catalog, raised⟩, alike.log⟩

/-- A mutator that draws an id and records its creation is blind. -/
theorem create_blind {family : IdFamily} {make : UInt64 → WriteOverlay → WriteOverlay}
    (change : UInt64 → Change) (makes : ∀ id delta base, ∃ overlay,
      (change id).apply base delta.toOverlay = .ok overlay ∧
        make id delta = { overlay with log := (change id).record delta.log }) :
    Blind (onDelta (WriteOverlay.allocate family >>= fun id =>
      Mutation.modify (make id) >>= fun _ => pure id)) := by
  intro left right _ _ alike
  unfold onDelta Mutation.onPart
  rw [Mutation.bind_apply, Mutation.bind_apply, WriteOverlay.allocate, WriteOverlay.allocate,
    ← alike.next]
  cases fits : checkedNext (left.delta.next.get family) with
  | none => exact ⟨rfl, alike⟩
  | some next =>
    have drawn := alike.drawn family next
    obtain ⟨first, one, leftMade⟩ := makes (left.delta.next.get family)
      { left.delta with next := left.delta.next.set family next } left.base
    obtain ⟨second, other, rightMade⟩ := makes (left.delta.next.get family)
      { right.delta with next := right.delta.next.set family next } right.base
    have made := drawn.made one other
    refine ⟨rfl, ?_⟩
    rw [← leftMade, ← rightMade, ← alike.next] at made
    exact made

/-- A registration is blind, whether it takes, burns its id on a taken name, or overflows. -/
theorem register_blind {family : IdFamily} {opKind flags : UInt32} {name : String}
    {body : Option (List UInt64)} {insert : UInt64 → Catalog → Except CatalogError Catalog}
    (entry : UInt64 → Registration) (form : ∀ id, (entry id).handle = (family, id) ∧
      (entry id).kindFlags = (opKind, flags) ∧ (entry id).name = name ∧ (entry id).body = body ∧
        (entry id).insert = insert id) :
    Blind (onDelta (WriteOverlay.register family opKind flags name body insert)) := by
  intro left right _ _ alike
  obtain ⟨handle, kind, named, bodied, inserts⟩ := form (left.delta.next.get family)
  unfold onDelta Mutation.onPart WriteOverlay.register
  rw [Mutation.bind_apply, Mutation.bind_apply, WriteOverlay.allocate, WriteOverlay.allocate,
    ← alike.next]
  cases fits : checkedNext (left.delta.next.get family) with
  | none => exact ⟨rfl, alike⟩
  | some next =>
    have drawn := alike.drawn family next
    rw [← alike.next] at drawn
    have alikeCatalog := congrArg (entry (left.delta.next.get family)).insert alike.catalog
    simp only [← named, ← bodied, ← inserts, Mutation.bind_apply, WriteOverlay.internEntry_eq,
      Mutation.attempt, Overlay.registerEntry]
    -- Both catalogs have the name, or neither has it.
    cases inserted : (entry (left.delta.next.get family)).insert left.delta.catalog with
    | error error =>
      simp only [← alikeCatalog, inserted, Except.map]
      exact ⟨trivial, drawn.shown, congrArg (fun log => ((entry _).intern log).2) alike.log⟩
    | ok catalog =>
      have one : (Change.register (entry (left.delta.next.get family))).apply left.base
          { left.delta.toOverlay with next := left.delta.next.set family next } =
          .ok { left.delta.toOverlay with next := left.delta.next.set family next, catalog } := by
        simp only [Change.apply, Overlay.registerEntry, inserted]
      have other : (Change.register (entry (left.delta.next.get family))).apply right.base
          { right.delta.toOverlay with next := left.delta.next.set family next } =
          .ok { right.delta.toOverlay with next := left.delta.next.set family next, catalog } := by
        simp only [Change.apply, Overlay.registerEntry, ← alikeCatalog, inserted]
      have made := drawn.made one other
      simp only [Change.record, handle, kind] at made
      simp only [← alikeCatalog, inserted, Except.map, Mutation.modify_apply, Mutation.pure_apply]
      exact ⟨trivial, made⟩

-- The checks read what is shown.

theorem requireElement_blind (id : ElementId) : Blind (requireElement id) :=
  .require _ fun alike => congrArg (fun shown => (shown.element id).isSome) alike.contents

theorem requireRelation_blind (id : RelationId) : Blind (requireRelation id) :=
  .require _ fun alike => congrArg (fun shown => (shown.relation id).isSome) alike.contents

theorem requireIncidence_blind (id : IncidenceId) : Blind (requireIncidence id) :=
  .require _ fun alike => congrArg (fun shown => (shown.incidence id).isSome) alike.contents

theorem requireRole_blind (id : RoleId) : Blind (requireRole id) :=
  .require _ fun alike => congrArg (fun catalog => (catalog.role id).isSome) alike.catalog

theorem requireLabel_blind (id : LabelId) : Blind (requireLabel id) :=
  .require _ fun alike => congrArg (fun catalog => (catalog.label id).isSome) alike.catalog

theorem requireRelationType_blind (id : RelationTypeId) : Blind (requireRelationType id) :=
  .require _ fun alike => congrArg (fun catalog => (catalog.relationType id).isSome) alike.catalog

theorem requirePropertyKey_blind (id : PropertyKeyId) : Blind (requirePropertyKey id) :=
  .require _ fun alike => congrArg (fun catalog => (catalog.propertyKey id).isSome) alike.catalog

variable (subject : PropertySubject)

theorem requireSubject_blind : Blind (requireSubject subject) := by
  cases subject with
  | element id => exact requireElement_blind id
  | relation id => exact requireRelation_blind id
  | incidence id => exact requireIncidence_blind id

theorem requireSubject_guarded : Guarded (requireSubject subject) := by
  cases subject <;> exact fun _ => .require _ _

theorem validateProjectionDefinition_blind (definition : ProjectionDefinition) :
    Blind (validateProjectionDefinition definition) := by
  have roles (ids : List RoleId) : Blind (ids.forM requireRole) :=
    .forM ids (fun id => (requireRole_guarded id).keeps) requireRole_blind
  have types (ids : List RelationTypeId) : Blind (ids.forM requireRelationType) :=
    .forM ids (fun id => (requireRelationType_guarded id).keeps) requireRelationType_blind
  cases definition with
  | graph graph =>
    exact .bind (requireRole_guarded _) (requireRole_blind _) fun _ =>
      .bind (requireRole_guarded _) (requireRole_blind _) fun _ => types _
  | hypergraph hyper =>
    exact .bind (fun _ => .forM _ fun id _ => requireRole_guarded id) (roles _) fun _ =>
      .bind (fun _ => .forM _ fun id _ => requireRole_guarded id) (roles _) fun _ => types _

theorem validateIndexDefinition_blind (definition : IndexDefinition) :
    Blind (validateIndexDefinition definition) := by
  cases definition with
  | label id => exact requireLabel_blind id
  | relationType id => exact requireRelationType_blind id
  | propertyEquality id | propertyRange id => exact requirePropertyKey_blind id
  | compositeEquality keys =>
    simp only [validateIndexDefinition]
    split
    · exact .fail _
    · exact .forM keys (fun id => (requirePropertyKey_guarded id).keeps) requirePropertyKey_blind
  | projection id =>
    exact .require _ fun alike => congrArg (fun catalog => (catalog.projection id).isSome)
      alike.catalog

-- The primitive mutators.

theorem registerRole_blind (name : String) : Blind (registerRole name) :=
  register_blind (.role · name) fun _ => ⟨rfl, rfl, rfl, rfl, rfl⟩

theorem registerLabel_blind (name : String) : Blind (registerLabel name) :=
  register_blind (.label · name) fun _ => ⟨rfl, rfl, rfl, rfl, rfl⟩

theorem registerRelationType_blind (name : String) : Blind (registerRelationType name) :=
  register_blind (.relationType · name) fun _ => ⟨rfl, rfl, rfl, rfl, rfl⟩

theorem registerPropertyKey_blind (name : String) (family : PropertyFamily)
    (valueType : PropertyType) : Blind (registerPropertyKey name family valueType) :=
  register_blind (fun id => .propertyKey ⟨id, name, family, valueType⟩)
    fun _ => ⟨rfl, rfl, rfl, rfl, rfl⟩

theorem defineProjection_blind (definition : ProjectionDefinition) :
    Blind (defineProjection definition) :=
  .bind (validateProjectionDefinition_guarded _) (validateProjectionDefinition_blind _) fun _ =>
    register_blind (.projection · definition) fun _ => ⟨rfl, rfl, rfl, rfl, rfl⟩

theorem defineIndex_blind (name : String) (definition : IndexDefinition) :
    Blind (defineIndex name definition) :=
  .bind (validateIndexDefinition_guarded _) (validateIndexDefinition_blind _) fun _ =>
    register_blind (.index · name definition) fun _ => ⟨rfl, rfl, rfl, rfl, rfl⟩

theorem createElement_blind : Blind createElement :=
  create_blind .createElement fun _ _ _ => ⟨_, rfl, rfl⟩

theorem createRelation_blind : Blind createRelation :=
  create_blind .createRelation fun _ _ _ => ⟨_, rfl, rfl⟩

theorem createIncidence_blind (relation : RelationId) (element : ElementId) (role : RoleId) :
    Blind (createIncidence relation element role) :=
  .bind (fun _ => .require _ _) (requireRelation_blind _) fun _ =>
    .bind (fun _ => .require _ _) (requireElement_blind _) fun _ =>
      .bind (fun _ => .require _ _) (requireRole_blind _) fun _ =>
        create_blind (fun id => .createIncidence ⟨id, relation, element, role⟩)
          fun _ _ _ => ⟨_, rfl, rfl⟩

/-- Tombstoning the same incidences leaves writers alike. -/
theorem Alike.tombstoneIncidences (alike : Alike left right) (ids : List IncidenceId) :
    Alike { left with delta := tombstoneIncidences left.base ids left.delta }
      { right with delta := tombstoneIncidences right.base ids right.delta } := by
  induction ids generalizing left right with
  | nil => exact alike
  | cons id rest ih =>
    have first : Alike { left with delta := left.delta.tombstoneIncidence left.base id }
        { right with delta := right.delta.tombstoneIncidence right.base id } :=
      @Alike.made left right (.tombstoneIncidence id) _ _ alike rfl rfl
    exact ih first

/-- A change with its cascade is blind. -/
theorem cascade_blind {mutator : WriteOverlay → BaseRecords → WriteOverlay} (made : Change)
    (makes : ∀ delta base, ∃ overlay, made.apply base delta.toOverlay = .ok overlay ∧
      mutator delta base = { overlay with log := made.record delta.log })
    (ids : List IncidenceId) :
    Blind (change fun delta base => tombstoneIncidences base ids (mutator delta base)) := by
  intro left right leftSound rightSound alike
  have masked := (change_blind made makes left right leftSound rightSound alike).2
  exact ⟨rfl, Alike.tombstoneIncidences masked ids⟩

theorem tombstoneElement_blind (id : ElementId) : Blind (tombstoneElement id) := by
  refine .bind (fun _ => .require _ _) (requireElement_blind id) fun _ => .read_bind ?_ fun writer =>
    cascade_blind (.tombstoneElement id) (fun _ _ => ⟨_, rfl, rfl⟩) _
  intro left right leftSound rightSound alike
  simp only [(leftSound.readsLike rightSound alike.shown).elementIncidences]

theorem tombstoneRelation_blind (id : RelationId) : Blind (tombstoneRelation id) := by
  refine .bind (fun _ => .require _ _) (requireRelation_blind id) fun _ => .read_bind ?_ fun writer =>
    cascade_blind (.tombstoneRelation id) (fun _ _ => ⟨_, rfl, rfl⟩) _
  intro left right leftSound rightSound alike
  simp only [(leftSound.readsLike rightSound alike.shown).relationIncidences]

theorem tombstone_blind : Blind (tombstone subject) := by
  cases subject with
  | element id => exact tombstoneElement_blind id
  | relation id => exact tombstoneRelation_blind id
  | incidence id =>
    exact .bind (fun _ => .require _ _) (requireIncidence_blind id) fun _ =>
      change_blind (.tombstoneIncidence id) fun _ _ => ⟨_, rfl, rfl⟩

theorem addLabel_blind (label : LabelId) :
    Blind (addLabel subject label) := by
  cases subject with
  | element id =>
    exact .bind (fun _ => .require _ _) (requireElement_blind id) fun _ =>
      .bind (fun _ => .require _ _) (requireLabel_blind label) fun _ =>
        change_blind (.addElementLabel id label) fun _ _ => ⟨_, rfl, rfl⟩
  | relation id =>
    exact .bind (fun _ => .require _ _) (requireRelation_blind id) fun _ =>
      .bind (fun _ => .require _ _) (requireLabel_blind label) fun _ =>
        change_blind (.addRelationLabel id label) fun _ _ => ⟨_, rfl, rfl⟩
  | incidence id => exact .fail _

theorem setRelationType_blind (relation : RelationId) (relationType : RelationTypeId) :
    Blind (setRelationType relation relationType) :=
  .bind (fun _ => .require _ _) (requireRelation_blind relation) fun _ =>
    .bind (fun _ => .require _ _) (requireRelationType_blind relationType) fun _ =>
      change_blind (.setRelationType relation relationType) fun _ _ => ⟨_, rfl, rfl⟩

theorem propertyKeyDefinition_blind (key : PropertyKeyId) : Blind (propertyKeyDefinition key) := by
  refine .read_bind (fun _ _ alike => ?_) fun writer => ?_
  · have same : _ = _ := alike.catalog
    simp only [merged, LayeredState.catalog, same]
  · split
    · exact .fail _
    · exact .pure _

/-- Setting a property is blind: whether it is a re-assertion depends on what is visible. -/
theorem setProperty_blind (key : PropertyKeyId)
    (value : PropertyValue) : Blind (setProperty subject key value) := by
  refine .bind (requireSubject_guarded subject) (requireSubject_blind subject) fun _ =>
    .bind (propertyKeyDefinition_guarded key) (propertyKeyDefinition_blind key) fun definition => ?_
  split
  · exact .fail _
  split
  · exact .fail _
  intro left right leftSound rightSound alike
  have same : left.delta.visiblePropertyIs left.base subject key value =
      right.delta.visiblePropertyIs right.base subject key value := by
    refine Bool.eq_iff_iff.mpr (visiblePropertyIs_iff.trans (Iff.trans ?_
      visiblePropertyIs_iff.symm))
    exact iff_of_eq (congrArg (fun shown => shown.property subject key = some value) alike.contents)
  refine ⟨rfl, ?_⟩
  change Alike { left with delta := left.delta.setProperty left.base subject key value }
    { right with delta := right.delta.setProperty right.base subject key value }
  unfold WriteOverlay.setProperty
  rw [← same]
  split
  · exact alike
  · exact @Alike.made left right (.setProperty subject key value) _ _ alike rfl rfl

theorem removeProperty_blind (key : PropertyKeyId) :
    Blind (removeProperty subject key) :=
  .bind (requireSubject_guarded subject) (requireSubject_blind subject) fun _ =>
    .bind (requirePropertyKey_guarded key) (requirePropertyKey_blind key) fun _ =>
      change_blind (.removeProperty subject key) fun _ _ => ⟨_, rfl, rfl⟩

-- The composite operations, which run the primitive ones in turn.

theorem equalityIndexKey_blind (index : IndexId) : Blind (equalityIndexKey index) := by
  refine .read_bind (fun _ _ alike => ?_) fun writer => ?_
  · have same : _ = _ := alike.catalog
    simp only [merged, LayeredState.catalog, same]
  · split
    · exact .fail _
    · split
      · exact .pure _
      · exact .fail _

theorem carrierOr_blind {pick : PropertySubject → Option UInt64} {key : PropertyKeyId}
    {value : PropertyValue} {mint : Mutation DbError Writer UInt64} (blind : Blind mint) :
    Blind (carrierOr pick key value mint) := by
  refine .read_bind (fun leftSound rightSound alike => ?_) fun writer => ?_
  · simp only [(leftSound.readsLike rightSound alike.shown).propertyEqual]
  · split
    · exact .pure _
    · exact blind

theorem upsertElement_blind (index : IndexId) (value : PropertyValue) :
    Blind (upsertElement index value) := by
  rw [upsertElement_eq]
  refine .bind (equalityIndexKey_guarded index) (equalityIndexKey_blind index) fun key =>
    carrierOr_blind ?_
  exact .bind createElement_guarded createElement_blind fun element =>
    .bind (setProperty_guarded _ key value) (setProperty_blind _ key value) fun _ => .pure _

theorem upsertRelation_blind (index : IndexId) (value : PropertyValue)
    (relationType : RelationTypeId) (endpoints : List (ElementId × RoleId)) :
    Blind (upsertRelation index value relationType endpoints) := by
  have attached (relation : RelationId) (endpoint : ElementId × RoleId) :
      Guarded (createIncidence relation endpoint.1 endpoint.2 >>= fun _ => pure ()) :=
    fun writer => .bind (createIncidence_guarded _ _ _ writer) fun _ _ _ => .pure _
  rw [upsertRelation_eq]
  refine .bind (equalityIndexKey_guarded index) (equalityIndexKey_blind index) fun key =>
    carrierOr_blind ?_
  refine .bind createRelation_guarded createRelation_blind fun relation => ?_
  refine .bind (setRelationType_guarded _ _) (setRelationType_blind _ _) fun _ => ?_
  refine .bind (setProperty_guarded _ key value) (setProperty_blind _ key value) fun _ => ?_
  refine .bind (fun _ => .forM _ fun endpoint _ => attached relation endpoint) ?_ fun _ => .pure _
  exact .forM endpoints (fun endpoint => (attached relation endpoint).keeps) fun endpoint =>
    Blind.bind (createIncidence_guarded _ _ _) (createIncidence_blind _ _ _) fun _ => .pure _

theorem retain_blind (index : IndexId) (keep : List PropertyValue) : Blind (retain index keep) := by
  refine .bind (equalityIndexKey_guarded index) (equalityIndexKey_blind index) fun key =>
    .read_bind (fun leftSound rightSound alike => ?_) fun writer => ?_
  · simp only [(leftSound.readsLike rightSound alike.shown).propertyKeySubjects]
  · exact .forM _ (fun subject => (tombstone_guarded subject).keeps) tombstone_blind

theorem getOr_blind {lookup : Catalog → Option T} {make : Mutation DbError Writer T}
    (blind : Blind make) : Blind (getOr lookup make) := by
  refine .read_bind (fun _ _ alike => ?_) fun writer => ?_
  · have same : _ = _ := alike.catalog
    simp only [merged, LayeredState.catalog, same]
  · split
    · exact .pure _
    · exact blind

theorem registerKeyOrGet_blind (name : String) (family : PropertyFamily)
    (valueType : PropertyType) : Blind (registerKeyOrGet name family valueType) := by
  refine .read_bind (fun _ _ alike => ?_) fun writer => ?_
  · have same : _ = _ := alike.catalog
    simp only [merged, LayeredState.catalog, same]
  · split
    · exact registerPropertyKey_blind name family valueType
    · split
      · split
        · exact .pure _
        · exact .fail _
      · exact .fail _

-- Declarative schemas.

theorem defineGraphProjection_blind (spec : GraphProjectionSpec) (bound : Bound) :
    Blind (defineGraphProjection spec bound) :=
  .bind (fun _ => .lift _) (.lift _) fun _ => .bind (fun _ => .lift _) (.lift _) fun _ =>
    .bind (fun _ => .lift _) (.lift _) fun _ => defineProjection_blind _

theorem defineHypergraphProjection_blind (spec : HypergraphProjectionSpec) (bound : Bound) :
    Blind (defineHypergraphProjection spec bound) :=
  .bind (fun _ => .lift _) (.lift _) fun _ => .bind (fun _ => .lift _) (.lift _) fun _ =>
    .bind (fun _ => .lift _) (.lift _) fun _ => defineProjection_blind _

/-- A round of a schema that binds one name is blind when taking its id is. -/
theorem bound_blind {Id : Type} {take : Mutation DbError Writer Id} (guarded : Guarded take)
    (blind : Blind take) (add : Id → Bound) :
    Blind (take >>= fun id => (pure (add id) : Mutation DbError Writer Bound)) :=
  .bind guarded blind fun _ => .pure _

/-- A run of rounds is blind when each of them is. -/
theorem rounds_blind {Item : Type} {round : Bound → Item → Mutation DbError Writer Bound}
    (guarded : ∀ bound item, Guarded (round bound item))
    (blind : ∀ bound item, Blind (round bound item)) (items : List Item)
    {next : Bound → Mutation DbError Writer Bound} (after : ∀ bound, Blind (next bound))
    (bound : Bound) : Blind (items.foldlM round bound >>= next) :=
  .bind (fun _ => .foldlM _ _ fun item _ bound => guarded bound item)
    (.foldlM items bound (fun bound item => (guarded bound item).keeps) blind) after

theorem applySchema_blind (schema : Schema) : Blind (applySchema schema) := by
  refine rounds_blind bindRole_guarded (fun _ name => bound_blind
    (getOr_guarded (registerRole_guarded name)) (getOr_blind (registerRole_blind name)) _) _
      (fun bound => ?_) _
  refine rounds_blind bindLabel_guarded (fun _ name => bound_blind
    (getOr_guarded (registerLabel_guarded name)) (getOr_blind (registerLabel_blind name)) _) _
      (fun bound => ?_) _
  refine rounds_blind bindRelationType_guarded (fun _ name => bound_blind
    (getOr_guarded (registerRelationType_guarded name))
      (getOr_blind (registerRelationType_blind name)) _) _ (fun bound => ?_) _
  refine rounds_blind bindKey_guarded (fun _ key => bound_blind
    (registerKeyOrGet_guarded _ _ _) (registerKeyOrGet_blind _ _ _) _) _ (fun bound => ?_) _
  refine rounds_blind bindEqualityIndex_guarded (fun _ declared =>
    .bind (fun _ => .lift _) (.lift _) fun key => bound_blind
      (getOr_guarded (defineIndex_guarded _ _)) (getOr_blind (defineIndex_blind _ _)) _) _
        (fun bound => ?_) _
  refine rounds_blind bindGraphProjection_guarded (fun bound spec => bound_blind
    (getOr_guarded (defineGraphProjection_guarded spec bound))
      (getOr_blind (defineGraphProjection_blind spec bound)) _) _ (fun bound => ?_) _
  exact .foldlM _ _ (fun bound spec => (bindHypergraphProjection_guarded bound spec).keeps)
    fun bound spec => bound_blind (getOr_guarded (defineHypergraphProjection_guarded spec bound))
      (getOr_blind (defineHypergraphProjection_blind spec bound)) _

end Writer

/-- Every call of a public mutator is blind. -/
theorem WriterOp.call_blind (op : WriterOp) : Writer.Blind op.call := by
  open Writer in
  cases op with
  | registerRole name => exact registerRole_blind name
  | registerLabel name => exact registerLabel_blind name
  | registerRelationType name => exact registerRelationType_blind name
  | registerPropertyKey name family valueType =>
    exact registerPropertyKey_blind name family valueType
  | defineProjection definition => exact defineProjection_blind definition
  | defineIndex name definition => exact defineIndex_blind name definition
  | applySchema schema => exact applySchema_blind schema
  | createElement => exact createElement_blind
  | createRelation => exact createRelation_blind
  | createIncidence relation element role => exact createIncidence_blind relation element role
  | setRelationType relation relationType => exact setRelationType_blind relation relationType
  | upsertElement index value => exact upsertElement_blind index value
  | upsertRelation index value relationType endpoints =>
    exact upsertRelation_blind index value relationType endpoints
  | retain index keep => exact retain_blind index keep
  | set subject key value => exact setProperty_blind subject key value
  | unset subject key => exact removeProperty_blind subject key
  | addLabel subject label => exact addLabel_blind subject label
  | tombstone subject => exact tombstone_blind subject

-- Transactions.

/--
What a transaction does with its writer: public calls, and in the end a result.

Each call is chosen by how the calls before it ended; a program may go on after one that failed.
-/
inductive Program (R : Type) where
  | ends (result : Except DbError R)
  | call (op : WriterOp) (next : Except DbError op.Returns → Program R)

namespace Program

variable {R : Type}

/-- Runs a program. -/
def run : Program R → Mutation DbError Writer R
  | .ends result => .lift result
  | .call op next => do
    let ended ← op.call.tried
    (next ended).run

/-- A program takes guarded steps. -/
theorem run_guarded (program : Program R) : Writer.Guarded program.run := by
  induction program with
  | ends result => exact fun _ => .lift result
  | call op next ih =>
    exact fun writer => .bind (.tried (op.call_guarded writer)) fun ended state _ => ih ended state

/-- A program depends on nothing but what is shown. -/
theorem run_blind (program : Program R) : Writer.Blind program.run := by
  induction program with
  | ends result => exact .lift result
  | call op next ih =>
    exact .bind (fun writer => .tried (op.call_guarded writer)) (.tried op.call_blind) ih

/-- Calls in turn, whatever each of them returns. -/
def calls (ops : List WriterOp) : Program Unit :=
  ops.foldr (fun op rest => .call op fun _ => rest) (.ends (.ok ()))

end Program

namespace Db

variable [Crc32c] {R : Type}

/-- Runs transactions in turn, and collects what they return. -/
def runAll : List (Mutation DbError Writer R) → Db → List (Except DbError (R × CommitOutcome)) × Db
  | [], database => ([], database)
  | body :: rest, database =>
    let written := write body database
    let others := runAll rest written.2
    (written.1 :: others.1, others.2)

/-- Two databases show the same store at the same commit, and burnt the same transaction ids. -/
structure Alike (left right : Db) : Prop where
  shown : left.current.view.shown = right.current.view.shown
  lsn : left.current.lsn = right.current.lsn
  transaction : left.lastTransactionId = right.lastTransactionId

variable {left right : Db}

/-- Databases that are alike commit alike what alike writers reached over them. -/
theorem commit_alike {one other : Writer} (alike : left.Alike right) (writers : one.Alike other)
    (lsn : one.parent.lsn = other.parent.lsn) (id : one.transactionId = other.transactionId) :
    (commit one left).1 = (commit other right).1 ∧
      (commit one left).2.Alike (commit other right).2 := by
  have frame : one.delta.takeFrame = other.delta.takeFrame := by
    unfold WriteOverlay.takeFrame
    rw [writers.log, writers.next]
  have nothing : one.delta.isEmpty = other.delta.isEmpty :=
    congrArg MutationLog.isEmpty writers.log
  unfold commit
  rw [nothing, ← lsn]
  split
  · exact ⟨rfl, alike⟩
  split
  · exact ⟨rfl, alike⟩
  -- The generation is stamped on the record, but whether a frame fits depends on its length.
  rename_i next _
  let record (generation : UInt64) : CommitFrame :=
    ⟨next, one.transactionId, generation, one.delta.takeFrame.ops, one.delta.takeFrame.blob⟩
  have encoded := encodeCommit_eq (record left.baseGeneration)
  have again := encodeCommit_eq (record right.baseGeneration)
  simp only [record] at encoded again ⊢
  rw [← frame, ← id, encoded, again]
  by_cases fits : (record left.baseGeneration).recordLen < u32Bound
  · rw [if_pos fits, if_pos (show (record right.baseGeneration).recordLen < u32Bound from fits)]
    exact ⟨rfl, writers.shown, rfl, rfl⟩
  · rw [if_neg fits, if_neg (show ¬ (record right.baseGeneration).recordLen < u32Bound from fits)]
    exact ⟨rfl, alike⟩

/-- A transaction returns the same from databases that are alike, and leaves them alike. -/
theorem write_alike {body : Mutation DbError Writer R} (guarded : Writer.Guarded body)
    (blind : Writer.Blind body) (leftSound : left.current.view.Sound)
    (rightSound : right.current.view.Sound) (alike : left.Alike right) :
    (write body left).1 = (write body right).1 ∧
      (write body left).2.Alike (write body right).2 := by
  unfold write
  rw [Mutation.bind_apply, Mutation.bind_apply, beginWrite, beginWrite, ← alike.transaction]
  cases checkedNext left.lastTransactionId with
  | none => exact ⟨rfl, alike⟩
  | some id =>
    have begun : Writer.Alike (left.begun id) (right.begun id) := ⟨alike.shown, rfl⟩
    have burnt : Db.Alike { left with lastTransactionId := id }
        { right with lastTransactionId := id } := ⟨alike.shown, alike.lsn, rfl⟩
    obtain ⟨results, reached⟩ :=
      blind (left.begun id) (right.begun id) leftSound rightSound begun
    -- A body leaves the writer's parent and transaction id alone, so both commit at one place.
    have leftKept := Writer.Step.parent_eq (guarded (left.begun id))
    have rightKept := Writer.Step.parent_eq (guarded (right.begun id))
    change (finish (body (left.begun id)) _).1 = (finish (body (right.begun id)) _).1 ∧
        (finish (body (left.begun id)) _).2.Alike (finish (body (right.begun id)) _).2
    generalize body (left.begun id) = one at results reached leftKept ⊢
    generalize body (right.begun id) = other at results reached rightKept ⊢
    obtain ⟨result, first⟩ := one
    obtain ⟨_, second⟩ := other
    cases results
    cases result with
    | error error => exact ⟨rfl, burnt⟩
    | ok value =>
      obtain ⟨leftParent, leftId⟩ := leftKept
      obtain ⟨rightParent, rightId⟩ := rightKept
      obtain ⟨same, after⟩ := commit_alike burnt reached
        (by rw [leftParent, rightParent]; exact alike.lsn) (by rw [leftId, rightId]; rfl)
      have nothing : first.delta.isEmpty = second.delta.isEmpty :=
        congrArg MutationLog.isEmpty reached.log
      simp only [finish, Mutation.bind_apply, nothing]
      generalize commit first _ = ended at same after ⊢
      generalize commit second _ = also at same after ⊢
      obtain ⟨outcome, _⟩ := ended
      obtain ⟨_, _⟩ := also
      cases same
      cases outcome with
      | error _ => exact ⟨rfl, after⟩
      | ok _ => exact ⟨rfl, after⟩

/-- Whatever programs run, how a store is layered shows in no result and in no read. -/
theorem runAll_alike (programs : List (Program R)) (leftSound : left.current.view.Sound)
    (rightSound : right.current.view.Sound) (alike : left.Alike right) :
    (runAll (programs.map Program.run) left).1 = (runAll (programs.map Program.run) right).1 ∧
      (runAll (programs.map Program.run) left).2.Alike
        (runAll (programs.map Program.run) right).2 ∧
      (runAll (programs.map Program.run) left).2.current.view.AnswersLike
        (runAll (programs.map Program.run) right).2.current.view := by
  induction programs generalizing left right with
  | nil =>
    exact ⟨rfl, alike, (leftSound.readsLike rightSound alike.shown).answersLike alike.shown⟩
  | cons program rest ih =>
    have guarded := program.run_guarded
    obtain ⟨same, after⟩ := write_alike guarded program.run_blind leftSound rightSound alike
    obtain ⟨results, reached, reads⟩ := ih (write_sound guarded leftSound)
      (write_sound guarded rightSound) after
    refine ⟨?_, reached, reads⟩
    rw [List.map_cons, runAll, runAll, same, results]

/-- A program that labels an element it creates, or drops the first element when the label is
registered already. -/
def Program.seen : Program UInt64 :=
  .call (.registerLabel "seen") fun
    | .ok label => .call .createElement fun
      | .ok element => .call (.addLabel (.element element) label) fun _ => .ends (.ok element)
      | .error error => .ends (.error error)
    | .error _ => .call (.tombstone (.element 1)) fun _ => .ends (.ok 1)

/-- A store with one element in its base, as a checkpoint leaves it. -/
def checkpointed : Db :=
  ⟨⟨1, 1, .empty { NextIds.initial with element := 2 } .empty,
    ⟨⟨(∅ : BTreeMap ElementId ElementRecord).insert 1 ⟨1, ∅⟩, ∅, ∅, ∅⟩, .owned .empty⟩⟩, 1, 1, []⟩

/-- A writer over an empty store. -/
def blankWriter : Writer := begun ⟨⟨0, 0, .empty .initial .empty, .empty⟩, 0, 0, []⟩ 1

/-- A store over an empty base, with one element in its overlay. -/
def overlaid : Db :=
  ⟨⟨0, 1, (Writer.createElement blankWriter).2.delta.toOverlay, .empty⟩, 0, 1, []⟩

omit [Crc32c] in
/-- An element that lies in the base or in the overlay, seen by a program that runs twice. -/
theorem runAll_alike_checkpointed :
    letI : Crc32c := castagnoli
    let programs := [Program.seen.run, Program.seen.run]
    (runAll programs checkpointed).1 = (runAll programs overlaid).1 ∧
      (runAll programs checkpointed).2.Alike (runAll programs overlaid).2 ∧
      (runAll programs checkpointed).2.current.view.AnswersLike
        (runAll programs overlaid).2.current.view := by
  have left : checkpointed.current.view.Sound := by
    refine LayeredState.sound_bare (fun id record found => ?_) fun family => by
      cases family <;> decide
    rw [Std.ExtTreeMap.getElem?_insert] at found
    split at found
    · rename_i same
      cases found
      obtain rfl := Std.LawfulEqCmp.eq_of_compare same
      exact ⟨rfl, by decide⟩
    · simp at found
  have right : overlaid.current.view.Sound :=
    Writer.Step.sound (Writer.createElement_guarded blankWriter) LayeredState.sound_empty
  have alike : checkpointed.Alike overlaid := by
    refine ⟨?_, rfl, rfl⟩
    have contents : checkpointed.current.view.contents = overlaid.current.view.contents := by
      refine Contents.mk.injEq .. |>.mpr ⟨funext fun id => ?_, rfl, rfl, rfl⟩
      change layered ((∅ : BTreeMap ElementId ElementRecord).insert 1 ⟨1, ∅⟩) ∅ id =
        layered ∅ ((∅ : BTreeMap ElementId (Option ElementRecord)).insert 1 (some ⟨1, ∅⟩)) id
      simp only [layered, Std.ExtTreeMap.getElem?_insert, Std.ExtTreeMap.getElem?_empty]
      split <;> rfl
    unfold LayeredState.shown
    rw [contents]
    rfl
  exact @runAll_alike castagnoli _ _ _ [Program.seen, Program.seen] left right alike

end Db

end Oxgraph
