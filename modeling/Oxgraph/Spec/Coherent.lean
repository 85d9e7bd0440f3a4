import Oxgraph.Spec.Change

/-! What a store holds, what its indexes must say about it, and the invariant of a view. -/

namespace Oxgraph

/-- The records and properties of a store, however they are layered. -/
structure Contents where
  element : ElementId → Option ElementRecord
  relation : RelationId → Option RelationRecord
  incidence : IncidenceId → Option IncidenceRecord
  property : PropertySubject → PropertyKeyId → Option PropertyValue

namespace Contents

variable (contents : Contents)

/-- The element carries the label. -/
def HasLabel (label : LabelId) (id : ElementId) : Prop :=
  ∃ record, contents.element id = some record ∧ label ∈ record.labels

/-- The relation is of the type. -/
def HasType (relationType : RelationTypeId) (id : RelationId) : Prop :=
  ∃ record, contents.relation id = some record ∧ record.relationType = some relationType

/-- The subject carries the value under the key. -/
def HasValue (key : EqualityKey) (subject : PropertySubject) : Prop :=
  contents.property subject key.1 = some key.2

/-- The incidence is attached to the element. -/
def AtElement (element : ElementId) (id : IncidenceId) : Prop :=
  ∃ record, contents.incidence id = some record ∧ record.element = element

/-- The incidence belongs to the relation. -/
def InRelation (relation : RelationId) (id : IncidenceId) : Prop :=
  ∃ record, contents.incidence id = some record ∧ record.relation = relation

/-- Every record sits under its own id. -/
structure WellKeyed (contents : Contents) : Prop where
  element : ∀ {id record}, contents.element id = some record → record.id = id
  relation : ∀ {id record}, contents.relation id = some record → record.id = id
  incidence : ∀ {id record}, contents.incidence id = some record → record.id = id

/-- The contents without any property of a subject. -/
def maskSubject (subject : PropertySubject) : Contents :=
  { contents with
    property := fun probe key => if subject = probe then none else contents.property probe key }

/-- The contents with one subject's slot under a key replaced. -/
def setSlot (subject : PropertySubject) (key : PropertyKeyId)
    (slot : Option PropertyValue) : Contents :=
  { contents with
    property := fun probe other =>
      if subject = probe ∧ key = other then slot else contents.property probe other }

/-- The contents without some incidences and their properties. -/
def maskIncidences (ids : List IncidenceId) : Contents :=
  { contents with
    incidence := fun id => if id ∈ ids then none else contents.incidence id
    property := fun subject key =>
      if subject ∈ ids.map PropertySubject.incidence then none
      else contents.property subject key }

/-- Whether a property subject is present. -/
def Has : PropertySubject → Prop
  | .element id => (contents.element id).isSome
  | .relation id => (contents.relation id).isSome
  | .incidence id => (contents.incidence id).isSome

end Contents

/-- What a mutation does to the contents of a store. -/
def Change.effect (change : Change) (contents : Contents) : Contents :=
  match change with
  | .createElement id =>
    { contents with element := override contents.element id (some ⟨id, ∅⟩) }
  | .createRelation id =>
    { contents with relation := override contents.relation id (some ⟨id, none, ∅⟩) }
  | .createIncidence record =>
    { contents with incidence := override contents.incidence record.id (some record) }
  | .tombstoneElement id =>
    { contents.maskSubject (.element id) with element := override contents.element id none }
  | .tombstoneRelation id =>
    { contents.maskSubject (.relation id) with relation := override contents.relation id none }
  | .tombstoneIncidence id =>
    { contents.maskSubject (.incidence id) with incidence := override contents.incidence id none }
  | .addElementLabel element label =>
    { contents with
      element := override contents.element element
        ((contents.element element).map fun record =>
          { record with labels := record.labels.insert label }) }
  | .addRelationLabel relation label =>
    { contents with
      relation := override contents.relation relation
        ((contents.relation relation).map fun record =>
          { record with labels := record.labels.insert label }) }
  | .setRelationType relation relationType =>
    { contents with
      relation := override contents.relation relation
        ((contents.relation relation).map fun record =>
          { record with relationType := some relationType }) }
  | .setProperty subject key value => contents.setSlot subject key (some value)
  | .removeProperty subject key => contents.setSlot subject key none
  | .register _ => contents

/-- What the records of one base generation hold. -/
def BaseRecords.contents (base : BaseRecords) : Contents :=
  ⟨base.element, base.relation, base.incidence, base.property⟩

/-- What a merged view shows. -/
def LayeredState.contents (view : LayeredState) : Contents :=
  ⟨view.element, view.relation, view.incidence, view.property⟩

/-- A base index posts exactly what the records under it carry. -/
structure BaseIndex.Represents (index : BaseIndex) (contents : Contents) : Prop where
  label : ∀ label id, id ∈ (index.labelPosting label).getD [] ↔ contents.HasLabel label id
  relationType : ∀ relationType id,
    id ∈ (index.relationTypePosting relationType).getD [] ↔ contents.HasType relationType id
  elementIncidence : ∀ element id,
    id ∈ (index.elementIncidencePosting element).getD [] ↔ contents.AtElement element id
  relationIncidence : ∀ relation id,
    id ∈ (index.relationIncidencePosting relation).getD [] ↔ contents.InRelation relation id
  equality : ∀ key value subject,
    subject ∈ (index.equalitySubjects key value).getD [] ↔ contents.HasValue (key, value) subject
  range : ∀ key min max probe subject,
    (∃ subjects, (probe, subjects) ∈ index.rangePostings key min max ∧ subject ∈ subjects) ↔
      probe.1 = key ∧ compare probe.2 min ≠ .lt ∧ compare probe.2 max ≠ .gt ∧
        contents.HasValue probe subject
  key : ∀ key value subject,
    (∃ subjects, (value, subjects) ∈ index.keyPostings key ∧ subject ∈ subjects) ↔
      contents.HasValue (key, value) subject

/-- The five posting deltas of an overlay track the change from a base's contents to the current. -/
structure OverlayIndex.Tracks (index : OverlayIndex) (base now : Contents) : Prop where
  label : index.label.Tracks base.HasLabel now.HasLabel
  relationType : index.relationType.Tracks base.HasType now.HasType
  equality : index.equality.Tracks base.HasValue now.HasValue
  elementIncidence : index.elementIncidence.Tracks base.AtElement now.AtElement
  relationIncidence : index.relationIncidence.Tracks base.InRelation now.InRelation

/-- The overlay index of a view tracks what the view shows over its base. -/
def LayeredState.Indexed (view : LayeredState) : Prop :=
  view.overlay.index.Tracks view.base.contents view.contents

end Oxgraph

-- The invariant of a view, and its referential integrity.

namespace Oxgraph

/-- A catalog family lists every entry under its own id, and maps its names to their ids. -/
structure NameTable.WellFormed {Entry : Type} [CatalogEntry Entry] (table : NameTable Entry) :
    Prop where
  keyed : ∀ {id entry}, table.entries[id]? = some entry → CatalogEntry.id entry = id
  named : ∀ {name id}, table.names[name]? = some id ↔
    ∃ entry, table.entries[id]? = some entry ∧ CatalogEntry.name entry = name

/-- Every family of the catalog is well formed. -/
structure Catalog.WellFormed (catalog : Catalog) : Prop where
  roles : catalog.roles.WellFormed
  labels : catalog.labels.WellFormed
  relationTypes : catalog.relationTypes.WellFormed
  propertyKeys : catalog.propertyKeys.WellFormed
  projections : catalog.projections.WellFormed
  indexes : catalog.indexes.WellFormed

/-- The catalog registers an id of a family; the record families register nothing. -/
def Catalog.Registers (catalog : Catalog) (family : IdFamily) (id : UInt64) : Prop :=
  match family with
  | .element | .relation | .incidence => False
  | .role => id ∈ catalog.roles.entries
  | .label => id ∈ catalog.labels.entries
  | .relationType => id ∈ catalog.relationTypes.entries
  | .propertyKey => id ∈ catalog.propertyKeys.entries
  | .projection => id ∈ catalog.projections.entries
  | .index => id ∈ catalog.indexes.entries

/-- An id of a family is a key of a record map, tombstones included, or of a catalog map. -/
def LayeredState.Holds (view : LayeredState) (family : IdFamily) (id : UInt64) : Prop :=
  match family with
  | .element => id ∈ view.base.elements ∨ id ∈ view.overlay.elements
  | .relation => id ∈ view.base.relations ∨ id ∈ view.overlay.relations
  | .incidence => id ∈ view.base.incidences ∨ id ∈ view.overlay.incidences
  | family => view.catalog.Registers family id

/-- Every property has a present subject. -/
def Contents.Anchored (contents : Contents) : Prop :=
  ∀ {subject key value}, contents.property subject key = some value → contents.Has subject

/-- The invariant every mutation keeps. -/
structure LayeredState.Coherent (view : LayeredState) : Prop where
  -- Every id in use is below its family's watermark.
  bounded : ∀ {family id}, view.Holds family id → id < view.nextIds.get family
  -- Every record sits under its own id, in the base and in the merged view.
  baseKeyed : view.base.contents.WellKeyed
  keyed : view.contents.WellKeyed
  catalog : view.catalog.WellFormed
  anchored : view.contents.Anchored
  -- The incremental index is in step with the contents.
  indexed : view.Indexed

/-- The id the mutation masks, with its family. -/
def Change.masks : Change → Option (IdFamily × UInt64)
  | .tombstoneElement id => some (.element, id)
  | .tombstoneRelation id => some (.relation, id)
  | .tombstoneIncidence id => some (.incidence, id)
  | _ => none

/-- What a mutation relies on: a known id to mask, or a visible subject to set a property on. -/
structure Change.Known (change : Change) (view : LayeredState) : Prop where
  masks : ∀ {family id}, change.masks = some (family, id) → id < view.nextIds.get family
  sets : ∀ {subject key value}, change = .setProperty subject key value →
    view.contents.Has subject

-- Referential integrity.

/-- Everything the contents refer to is present, or registered in the catalog. -/
structure Contents.Integrity (contents : Contents) (catalog : Catalog) : Prop where
  incidence : ∀ {id record}, contents.incidence id = some record →
    (contents.relation record.relation).isSome ∧ (contents.element record.element).isSome ∧
      (catalog.role record.role).isSome
  property : ∀ {subject key value}, contents.property subject key = some value →
    contents.Has subject ∧ ∃ definition, catalog.propertyKey key = some definition ∧
      definition.family = subject.family ∧ definition.valueType = value.valueType
  elementLabel : ∀ {id record label}, contents.element id = some record →
    label ∈ record.labels → (catalog.label label).isSome
  relationLabel : ∀ {id record label}, contents.relation id = some record →
    label ∈ record.labels → (catalog.label label).isSome
  relationType : ∀ {id record relationType}, contents.relation id = some record →
    record.relationType = some relationType → (catalog.relationType relationType).isSome

/-- One catalog family has every entry and every name of another. -/
structure NameTable.Grows {Entry : Type} (after before : NameTable Entry) : Prop where
  entries : ∀ {id : UInt64} {entry},
    before.entries[id]? = some entry → after.entries[id]? = some entry
  names : ∀ {name : String} {id}, before.names[name]? = some id → after.names[name]? = some id

/-- One catalog has every entry and every name of another, family by family. -/
structure Catalog.Grows (after before : Catalog) : Prop where
  roles : after.roles.Grows before.roles
  labels : after.labels.Grows before.labels
  relationTypes : after.relationTypes.Grows before.relationTypes
  propertyKeys : after.propertyKeys.Grows before.propertyKeys
  projections : after.projections.Grows before.projections
  indexes : after.indexes.Grows before.indexes

/-- Every definition in the catalog refers to what the catalog registers. -/
structure Catalog.Closed (catalog : Catalog) : Prop where
  projections : ∀ {id entry},
    catalog.projection id = some entry → entry.definition.Registered catalog
  indexes : ∀ {id entry}, catalog.index id = some entry → entry.definition.Registered catalog

/-- The invariant of every view a store reaches. -/
structure LayeredState.Sound (view : LayeredState) : Prop where
  coherent : view.Coherent
  -- The base index posts what the base records carry.
  represents : view.base.index.Represents view.base.contents
  integrity : view.contents.Integrity view.catalog
  -- Allocators start at `1`, so `0` never names a catalog entry.
  started : ∀ family, 0 < view.nextIds.get family
  numbered : ∀ {family id}, view.catalog.Registers family id → 0 < id

end Oxgraph
