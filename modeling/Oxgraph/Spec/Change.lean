import Oxgraph.Db.Database.Writer

/-! The mutations of the canonical data, as values: what each does and how the log records it. -/

namespace Oxgraph

/-- A catalog registration under an explicit id. -/
inductive Registration where
  | role (id : RoleId) (name : String)
  | label (id : LabelId) (name : String)
  | relationType (id : RelationTypeId) (name : String)
  | propertyKey (definition : PropertyKeyDefinition)
  | projection (id : ProjectionId) (definition : ProjectionDefinition)
  | index (id : IndexId) (name : String) (definition : IndexDefinition)

/-- One mutation of the canonical data, with every id explicit. -/
inductive Change where
  | createElement (id : ElementId)
  | createRelation (id : RelationId)
  | createIncidence (record : IncidenceRecord)
  | tombstoneElement (id : ElementId)
  | tombstoneRelation (id : RelationId)
  | tombstoneIncidence (id : IncidenceId)
  | addElementLabel (element : ElementId) (label : LabelId)
  | addRelationLabel (relation : RelationId) (label : LabelId)
  | setRelationType (relation : RelationId) (relationType : RelationTypeId)
  | setProperty (subject : PropertySubject) (key : PropertyKeyId) (value : PropertyValue)
  | removeProperty (subject : PropertySubject) (key : PropertyKeyId)
  | register (entry : Registration)

namespace Registration

/-- The registered id, with its family. -/
def handle : Registration → IdFamily × UInt64
  | .role id _ => (.role, id)
  | .label id _ => (.label, id)
  | .relationType id _ => (.relationType, id)
  | .propertyKey definition => (.propertyKey, definition.id)
  | .projection id _ => (.projection, id)
  | .index id _ _ => (.index, id)

/-- The registered name. -/
def name : Registration → String
  | .role _ name | .label _ name | .relationType _ name | .index _ name _ => name
  | .propertyKey definition => definition.name
  | .projection _ definition => definition.name

/-- The kind and flags of the op that records the registration. -/
def kindFlags : Registration → UInt32 × UInt32
  | .role _ _ => (opCatalogRegisterRole, 0)
  | .label _ _ => (opCatalogRegisterLabel, 0)
  | .relationType _ _ => (opCatalogRegisterRelationType, 0)
  | .propertyKey definition =>
    (opCatalogRegisterPropertyKey,
      packFlags (propertyFamilyTag definition.family) (propertyTypeTag definition.valueType))
  | .projection _ definition => (opCatalogRegisterProjection, (encodeProjectionBody definition).1)
  | .index _ _ definition => (opCatalogRegisterIndex, (encodeIndexBody definition).1)

/-- The definition body the op refers to, when the family has one. -/
def body : Registration → Option (List UInt64)
  | .projection _ definition => some (encodeProjectionBody definition).2
  | .index _ _ definition => some (encodeIndexBody definition).2
  | _ => none

/-- Inserts the entry into a catalog. -/
def insert : Registration → Catalog → Except CatalogError Catalog
  | .role id name, catalog => catalog.insertRole id name
  | .label id name, catalog => catalog.insertLabel id name
  | .relationType id name, catalog => catalog.insertRelationType id name
  | .propertyKey definition, catalog => catalog.insertPropertyKey definition
  | .projection id definition, catalog => catalog.insertProjection id definition
  | .index id name definition, catalog => catalog.insertIndex id name definition

/-- The log once the name and the body have been interned, with their payload words. -/
def intern (entry : Registration) (log : MutationLog) : List UInt64 × MutationLog :=
  let (nameWords, log) := log.intern (utf8Bytes entry.name)
  match entry.body with
  | none => ([nameWords.1, nameWords.2], log)
  | some words =>
    let (bodyWords, log) := log.internWords words
    ([nameWords.1, nameWords.2, bodyWords.1, bodyWords.2], log)

end Registration

namespace Change

/-- The id the mutation creates or registers, with its family. -/
def creates : Change → Option (IdFamily × UInt64)
  | .createElement id => some (.element, id)
  | .createRelation id => some (.relation, id)
  | .createIncidence record => some (.incidence, record.id)
  | .register entry => some entry.handle
  | _ => none

/-- What the mutation does to the data. -/
def apply (change : Change) (base : BaseRecords) (overlay : Overlay) : Except DbError Overlay :=
  match change with
  | .createElement id => .ok (overlay.putElement id)
  | .createRelation id => .ok (overlay.putRelation id)
  | .createIncidence record => .ok (overlay.putIncidence record)
  | .tombstoneElement id => .ok (overlay.tombstoneElementInner base id)
  | .tombstoneRelation id => .ok (overlay.tombstoneRelationInner base id)
  | .tombstoneIncidence id => .ok (overlay.tombstoneIncidenceInner base id)
  | .addElementLabel element label => .ok (overlay.addElementLabelInner base element label)
  | .addRelationLabel relation label => .ok (overlay.addRelationLabelInner base relation label)
  | .setRelationType relation relationType =>
    .ok (overlay.setRelationTypeInner base relation relationType)
  | .setProperty subject key value => .ok (overlay.setPropertyInner base subject key value)
  | .removeProperty subject key => .ok (overlay.removePropertyInner base subject key)
  | .register entry => overlay.registerEntry entry.insert

/-- How the log records the mutation. -/
def record (change : Change) (log : MutationLog) : MutationLog :=
  match change with
  | .createElement id => log.push opCreateElement 0 [id]
  | .createRelation id => log.push opCreateRelation 0 [id]
  | .createIncidence record =>
    log.push opCreateIncidence 0 [record.id, record.relation, record.element, record.role]
  | .tombstoneElement id => log.push opTombstoneElement 0 [id]
  | .tombstoneRelation id => log.push opTombstoneRelation 0 [id]
  | .tombstoneIncidence id => log.push opTombstoneIncidence 0 [id]
  | .addElementLabel element label => log.push opAddElementLabel 0 [element, label]
  | .addRelationLabel relation label => log.push opAddRelationLabel 0 [relation, label]
  | .setRelationType relation relationType =>
    log.push opSetRelationType 0 [relation, relationType]
  | .setProperty subject key value =>
    let (words, log) := WriteOverlay.internValue log value
    log.push opSetProperty (packFlags (encodeSubject subject).1 (propertyTypeTag value.valueType))
      [(encodeSubject subject).2, key, words.1, words.2.1, words.2.2]
  | .removeProperty subject key =>
    log.push opRemoveProperty (packFlags (encodeSubject subject).1 0)
      [(encodeSubject subject).2, key]
  | .register entry =>
    let (words, log) := entry.intern log
    log.push entry.kindFlags.1 entry.kindFlags.2 (entry.handle.2 :: words)

end Change

/-- Whether a property subject is visible. -/
def LayeredState.contains (view : LayeredState) : PropertySubject → Bool
  | .element id => view.containsElement id
  | .relation id => view.containsRelation id
  | .incidence id => view.containsIncidence id

/-- Everything a projection definition refers to is registered. -/
def ProjectionDefinition.Registered (catalog : Catalog) : ProjectionDefinition → Prop
  | .graph definition =>
    (catalog.role definition.sourceRole).isSome ∧ (catalog.role definition.targetRole).isSome ∧
      ∀ id ∈ definition.relationTypes, (catalog.relationType id).isSome
  | .hypergraph definition =>
    (∀ id ∈ definition.sourceRoles, (catalog.role id).isSome) ∧
      (∀ id ∈ definition.targetRoles, (catalog.role id).isSome) ∧
      ∀ id ∈ definition.relationTypes, (catalog.relationType id).isSome

/-- Everything an index definition refers to is registered. -/
def IndexDefinition.Registered (catalog : Catalog) : IndexDefinition → Prop
  | .label id => (catalog.label id).isSome
  | .relationType id => (catalog.relationType id).isSome
  | .propertyEquality key | .propertyRange key => (catalog.propertyKey key).isSome
  | .compositeEquality keys => ∀ key ∈ keys, (catalog.propertyKey key).isSome
  | .projection id => (catalog.projection id).isSome

/-- Everything a registration refers to is registered already. -/
def Registration.Closed (catalog : Catalog) : Registration → Prop
  | .projection _ definition => definition.Registered catalog
  | .index _ _ definition => definition.Registered catalog
  | _ => True

/-- What a mutator has checked of the merged view before it makes a change. -/
def Change.Allowed (change : Change) (view : LayeredState) : Prop :=
  match change with
  | .createElement _ | .createRelation _ => True
  | .register entry => entry.Closed view.catalog
  | .createIncidence record =>
    view.containsRelation record.relation ∧ view.containsElement record.element ∧
      (view.catalog.role record.role).isSome
  -- An element or a relation is only tombstoned together with its incidences.
  | .tombstoneElement _ | .tombstoneRelation _ => False
  | .tombstoneIncidence id => view.containsIncidence id
  | .addElementLabel element label =>
    view.containsElement element ∧ (view.catalog.label label).isSome
  | .addRelationLabel relation label =>
    view.containsRelation relation ∧ (view.catalog.label label).isSome
  | .setRelationType relation relationType =>
    view.containsRelation relation ∧ (view.catalog.relationType relationType).isSome
  | .setProperty subject key value =>
    view.contains subject ∧ ∃ definition, view.catalog.propertyKey key = some definition ∧
      definition.family = subject.family ∧ definition.valueType = value.valueType
  | .removeProperty subject key =>
    view.contains subject ∧ (view.catalog.propertyKey key).isSome

/-- The steps a writer's delta takes over a base, each applying and recording one allowed change. -/
inductive DeltaStep (base : BaseRecords) (allowed : Change → LayeredState → Prop) :
    WriteOverlay → WriteOverlay → Prop
  -- A create or a registration draws the id it uses from its family's allocator.
  | create {writer : WriteOverlay} {overlay : Overlay} (change : Change) {family : IdFamily}
      {next : UInt64} (guard : allowed change ⟨base, writer.toOverlay⟩)
      (creates : change.creates = some (family, writer.next.get family))
      (fits : checkedNext (writer.next.get family) = some next)
      (applied : change.apply base { writer.toOverlay with next := writer.next.set family next } =
        .ok overlay) :
      DeltaStep base allowed writer { overlay with log := change.record writer.log }
  -- Every other mutation leaves the allocators alone.
  | mutate {writer : WriteOverlay} {overlay : Overlay} (change : Change)
      (guard : allowed change ⟨base, writer.toOverlay⟩) (creates : change.creates = none)
      (applied : change.apply base writer.toOverlay = .ok overlay) :
      DeltaStep base allowed writer { overlay with log := change.record writer.log }
  -- A registration of a taken name burns the id it drew and leaves what it interned.
  | burn {writer : WriteOverlay} (family : IdFamily) {next : UInt64}
      (fits : checkedNext (writer.next.get family) = some next) (interned : Bytes) :
      DeltaStep base allowed writer
        { writer with
          next := writer.next.set family next
          log := { writer.log with blob := writer.log.blob ++ interned } }

/-- The steps a writer's mutators take: single changes, and tombstones with their cascades. -/
inductive GuardedStep (base : BaseRecords) : WriteOverlay → WriteOverlay → Prop
  | delta {writer after : WriteOverlay} (step : DeltaStep base Change.Allowed writer after) :
      GuardedStep base writer after
  | tombstoneElement {writer : WriteOverlay} (id : ElementId)
      (visible : (LayeredState.mk base writer.toOverlay).containsElement id) :
      GuardedStep base writer (Writer.tombstoneIncidences base
        (((LayeredState.mk base writer.toOverlay).elementIncidences id).map IncidenceRecord.id)
        (writer.tombstoneElement base id))
  | tombstoneRelation {writer : WriteOverlay} (id : RelationId)
      (visible : (LayeredState.mk base writer.toOverlay).containsRelation id) :
      GuardedStep base writer (Writer.tombstoneIncidences base
        (((LayeredState.mk base writer.toOverlay).relationIncidences id).map IncidenceRecord.id)
        (writer.tombstoneRelation base id))

/-- A writer steps by a guarded step of its delta. -/
def Writer.Step (before after : Writer) : Prop :=
  ∃ delta, GuardedStep before.base before.delta delta ∧ after = { before with delta }

end Oxgraph
