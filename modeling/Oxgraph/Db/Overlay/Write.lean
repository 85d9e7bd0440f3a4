import Oxgraph.Db.Defs
import Oxgraph.Db.Overlay.Frozen
import Oxgraph.Db.Wire
import Oxgraph.Lib.Mutation

/-! The mutation log and the delta that a write transaction accumulates, and its replay. -/

namespace Oxgraph

/-- An ordered, replayable record of every mutation a writer applied. -/
structure MutationLog where
  -- Mutation ops in application order.
  ops : List MutationOp
  -- Interned names, texts, and definition words referenced by `(offset, len)` payload words.
  blob : Bytes
  deriving DecidableEq

namespace MutationLog

/-- The log of a writer that has changed nothing. -/
def empty : MutationLog := ⟨[], []⟩

/-- Whether no op has been recorded. -/
def isEmpty (log : MutationLog) : Bool := log.ops.isEmpty

/-- Interns bytes into the blob, returning their `(offset, len)` payload words. -/
def intern (log : MutationLog) (value : Bytes) : (UInt64 × UInt64) × MutationLog :=
  ((.ofNat log.blob.length, .ofNat value.length), { log with blob := log.blob ++ value })

/-- Interns a word run into the blob as little-endian bytes. -/
def internWords (log : MutationLog) (words : List UInt64) : (UInt64 × UInt64) × MutationLog :=
  log.intern (arrayBytes words)

/-- One op with the given kind, flags, and leading payload words; the remaining words are zero. -/
def opOf (opKind flags : UInt32) (words : List UInt64) : MutationOp :=
  { opKind, flags, payload := Vector.ofFn fun slot => words.getD slot 0 }

/-- Records one op with the given kind, flags, and leading payload words. -/
def push (log : MutationLog) (opKind flags : UInt32) (words : List UInt64) : MutationLog :=
  { log with ops := log.ops ++ [opOf opKind flags words] }

/-- Appends the nine-value next-id watermark as the final op of a dirty frame. -/
def pushWatermark (log : MutationLog) (next : NextIds) : MutationLog :=
  log.push opNextIdWatermark 0
    [next.element, next.relation, next.incidence, next.role, next.label, next.relationType,
      next.propertyKey, next.projection, next.index]

end MutationLog

/-- Reads an `(offset, len)` UTF-8 slice from a replay frame blob. -/
def blobStr (blob : Bytes) (offset len : UInt64) (lsn : UInt64) : Except DbError String :=
  match checkedAdd offset.toNat len.toNat with
  | none => .error (.logCorrupt lsn "blob slice overflow")
  | some stop =>
    match sliceOf blob offset.toNat stop with
    | none => .error (.logCorrupt lsn "blob slice out of bounds")
    | some bytes =>
      match fromUtf8 bytes with
      | none => .error (.logCorrupt lsn "blob slice is not UTF-8")
      | some string => .ok string

/-- Decodes the `(offset, len)` byte run of a definition body into its words. -/
def decodeDefWords (blob : Bytes) (offset len : UInt64) (lsn : UInt64) :
    Except DbError (List UInt64) :=
  match checkedAdd offset.toNat len.toNat with
  | none => .error (.logCorrupt lsn "def slice overflow")
  | some stop =>
    match sliceOf blob offset.toNat stop with
    | none => .error (.logCorrupt lsn "def slice out of bounds")
    | some bytes =>
      match refFromBytes UInt64 bytes with
      | none => .error (.logCorrupt lsn "def slice is not whole u64 words")
      | some words => .ok words

end Oxgraph

-- The mutable delta, and its replay.

namespace Oxgraph

/-- The mutable delta of one write transaction: the overlay it builds, and the log it records. -/
structure WriteOverlay extends Overlay where
  -- Ordered, replayable log of every mutation this writer applied.
  log : MutationLog

namespace Overlay

-- The reads a mutator makes of what was visible before it.

variable (overlay : Overlay) (base : BaseRecords) (subject : PropertySubject)

/-- The visible value of a subject's key before a pending property mutation. -/
def visibleProperty
    (key : PropertyKeyId) : Option PropertyValue :=
  match nestedGet overlay.properties subject key with
  | some slot => slot
  | none => base.property subject key

/-- Whether the visible value of a subject's key already equals a value. -/
def visiblePropertyIs
    (key : PropertyKeyId) (value : PropertyValue) : Bool :=
  match nestedGet overlay.properties subject key with
  | some slot => slot = some value
  | none => base.property subject key = some value

/-- The visible labels of an element before a pending mutation; a tombstone has none. -/
def visibleElementLabels (element : ElementId) :
    LabelSet :=
  match overlay.elements[element]? with
  | some (some record) => record.labels
  | some none => ∅
  | none => ((base.element element).map ElementRecord.labels).getD ∅

/-- The visible type of a relation before a pending mutation; a tombstone has none. -/
def visibleRelationType (relation : RelationId) :
    Option RelationTypeId :=
  match overlay.relations[relation]? with
  | some (some record) => record.relationType
  | some none => none
  | none => (base.relation relation).bind RelationRecord.relationType

/-- The visible incidence of an id before a pending mutation. -/
def visibleIncidence (id : IncidenceId) :
    Option IncidenceRecord :=
  match overlay.incidences[id]? with
  | some (some record) => some record
  | some none => none
  | none => base.incidence id

/-- Every visible property of a subject before a pending tombstone. -/
def visibleSubjectProperties :
    BTreeMap PropertyKeyId PropertyValue :=
  let visible := base.properties.getD subject ∅
  match overlay.properties[subject]? with
  | none => visible
  -- A set overrides the base value; a removal masks it.
  | some keys => applyDelta visible keys.toList

/-- Edits a record in a delta, first copying it up from the base; says whether one was edited. -/
def editRecord {Record : Type} (delta : Delta Record) (base : Option Record) (id : UInt64)
    (edit : Record → Record) : Delta Record × Bool :=
  match delta[id]? with
  | some (some record) => (delta.insert id (some (edit record)), true)
  -- A tombstoned record is left tombstoned.
  | some none => (delta, false)
  | none =>
    match base with
    | some record => (delta.insert id (some (edit record)), true)
    | none => (delta, false)

-- The data effect of each mutation, shared by the live mutators and by replay.

/-- Adds an element without labels. -/
def putElement (id : ElementId) : Overlay :=
  { overlay with elements := overlay.elements.insert id (some ⟨id, ∅⟩) }

/-- Adds a relation without a type or labels. -/
def putRelation (id : RelationId) : Overlay :=
  { overlay with relations := overlay.relations.insert id (some ⟨id, none, ∅⟩) }

/-- Adds an incidence, to its record map and to both reverse-adjacency postings. -/
def putIncidence (record : IncidenceRecord) : Overlay :=
  { overlay with
    incidences := overlay.incidences.insert record.id (some record)
    index := overlay.index.onCreateIncidence record.id record.relation record.element }

/-- The property delta once every property of a subject has been masked. -/
def maskProperties (properties : BTreeMap PropertySubject SubjectDelta) (base : BaseRecords)
    (subject : PropertySubject) : BTreeMap PropertySubject SubjectDelta :=
  -- The accumulated delta is dropped, then a tombstone recorded for each base property.
  let dropped := properties.erase subject
  match base.properties[subject]? with
  | none => dropped
  | some keys =>
    let entry := keys.toList.foldl (fun entry key => entry.insert key.1 none)
      (dropped.getD subject ∅)
    dropped.insert subject entry

/-- Masks every property of a subject. -/
def tombstoneSubjectProperties : Overlay :=
  { overlay with properties := maskProperties overlay.properties base subject }

/-- Masks an element and its properties, withdrawing every posting it carried. -/
def tombstoneElementInner (id : ElementId) : Overlay :=
  let subject := PropertySubject.element id
  let labels := overlay.visibleElementLabels base id
  let properties := overlay.visibleSubjectProperties base subject
  let withdrawn :=
    { overlay with
      index := overlay.index.onTombstoneElement id labels properties
      elements := overlay.elements.insert id none }
  withdrawn.tombstoneSubjectProperties base subject

/-- Masks a relation and its properties, withdrawing every posting it carried. -/
def tombstoneRelationInner (id : RelationId) : Overlay :=
  let subject := PropertySubject.relation id
  let relationType := overlay.visibleRelationType base id
  let properties := overlay.visibleSubjectProperties base subject
  let withdrawn :=
    { overlay with
      index := overlay.index.onTombstoneRelation id relationType properties
      relations := overlay.relations.insert id none }
  withdrawn.tombstoneSubjectProperties base subject

/-- Masks an incidence and its properties, withdrawing every posting a visible one carried. -/
def tombstoneIncidenceInner (id : IncidenceId) :
    Overlay :=
  let subject := PropertySubject.incidence id
  let properties := overlay.visibleSubjectProperties base subject
  let index :=
    match overlay.visibleIncidence base id with
    | some record =>
      overlay.index.onTombstoneIncidence id record.relation record.element properties
    | none => overlay.index
  let withdrawn := { overlay with index, incidences := overlay.incidences.insert id none }
  withdrawn.tombstoneSubjectProperties base subject

/-- Adds a label to a visible element, in its record and in the label index. -/
def addElementLabelInner (element : ElementId)
    (label : LabelId) : Overlay :=
  let (elements, labelled) := editRecord overlay.elements (base.element element) element
    fun record => { record with labels := record.labels.insert label }
  let index := if labelled then overlay.index.onAddElementLabel element label else overlay.index
  { overlay with elements, index }

/-- Adds a label to a visible relation; no posting is kept for it. -/
def addRelationLabelInner (relation : RelationId)
    (label : LabelId) : Overlay :=
  let (relations, _) := editRecord overlay.relations (base.relation relation) relation
    fun record => { record with labels := record.labels.insert label }
  { overlay with relations }

/-- Sets the type of a visible relation, in its record and in the relation-type index. -/
def setRelationTypeInner (relation : RelationId)
    (relationType : RelationTypeId) : Overlay :=
  let previous := overlay.visibleRelationType base relation
  let (relations, typed) := editRecord overlay.relations (base.relation relation) relation
    fun record => { record with relationType := some relationType }
  let index :=
    if typed then overlay.index.onSetRelationType relation previous relationType
    else overlay.index
  { overlay with relations, index }

/-- Sets a property, in the property delta and in the equality index. -/
def setPropertyInner
    (key : PropertyKeyId) (value : PropertyValue) : Overlay :=
  let previous := overlay.visibleProperty base subject key
  { overlay with
    index := overlay.index.onSetProperty subject key previous value
    properties := nestedInsert overlay.properties subject key (some value) }

/-- Removes a property, in the property delta and in the equality index. -/
def removePropertyInner
    (key : PropertyKeyId) : Overlay :=
  let previous := overlay.visibleProperty base subject key
  { overlay with
    index := overlay.index.onRemoveProperty subject key previous
    properties := nestedInsert overlay.properties subject key none }

/-- Replaces the catalog with the outcome of a registration. -/
def registerEntry (insert : Catalog → Except CatalogError Catalog) :
    Except DbError Overlay :=
  match insert overlay.catalog with
  | .error error => .error (.catalog error)
  | .ok catalog => .ok { overlay with catalog }

/-- A registration that succeeds changes the catalog only. -/
theorem registerEntry_eq_ok {overlay after : Overlay}
    {insert : Catalog → Except CatalogError Catalog} :
    overlay.registerEntry insert = .ok after ↔
      ∃ catalog, insert overlay.catalog = .ok catalog ∧ after = { overlay with catalog } := by
  unfold registerEntry
  cases insert overlay.catalog with
  | error error => exact ⟨fun never => (nomatch never), fun ⟨_, never, _⟩ => (nomatch never)⟩
  | ok catalog =>
    constructor
    · intro same
      exact ⟨catalog, rfl, (Except.ok.inj same).symm⟩
    · rintro ⟨_, ⟨⟩, rfl⟩
      rfl

-- Replay, which takes explicit ids from the op payload and never logs.

/-- Reads one payload word of an op. -/
def word (op : MutationOp) (index : Nat) : UInt64 := op.payload[index]?.getD 0

/-- Applies a create, tombstone, label, or type op. -/
def applyTopologyOp (op : MutationOp) : Overlay :=
  let word := word op
  if op.opKind = opCreateElement then overlay.putElement (word 0)
  else if op.opKind = opCreateRelation then overlay.putRelation (word 0)
  else if op.opKind = opCreateIncidence then
    overlay.putIncidence ⟨word 0, word 1, word 2, word 3⟩
  else if op.opKind = opTombstoneElement then overlay.tombstoneElementInner base (word 0)
  else if op.opKind = opTombstoneRelation then overlay.tombstoneRelationInner base (word 0)
  else if op.opKind = opTombstoneIncidence then overlay.tombstoneIncidenceInner base (word 0)
  else if op.opKind = opAddElementLabel then
    overlay.addElementLabelInner base (word 0) (word 1)
  else if op.opKind = opAddRelationLabel then
    overlay.addRelationLabelInner base (word 0) (word 1)
  -- Setting a relation's type is the only topology kind left.
  else overlay.setRelationTypeInner base (word 0) (word 1)

/-- Decodes the catalog entry an op registers, whose name has been read, and inserts it. -/
def insertCatalogOp (op : MutationOp) (blob : Bytes) (lsn : UInt64) (name : String) :
    Except DbError (Catalog → Except CatalogError Catalog) :=
  let word := word op
  if op.opKind = opCatalogRegisterRole then .ok fun catalog => catalog.insertRole (word 0) name
  else if op.opKind = opCatalogRegisterLabel then
    .ok fun catalog => catalog.insertLabel (word 0) name
  else if op.opKind = opCatalogRegisterRelationType then
    .ok fun catalog => catalog.insertRelationType (word 0) name
  else if op.opKind = opCatalogRegisterPropertyKey then
    let (familyTag, valueTag) := unpackFlags op.flags
    match propertyFamilyFromTag familyTag with
    | none => .error (.logCorrupt lsn "property-key family tag")
    | some family =>
      match propertyTypeFromTag valueTag with
      | none => .error (.logCorrupt lsn "property-key value tag")
      | some valueType =>
        .ok fun catalog => catalog.insertPropertyKey ⟨word 0, name, family, valueType⟩
  else if op.opKind = opCatalogRegisterProjection then
    match decodeDefWords blob (word 3) (word 4) lsn with
    | .error error => .error error
    | .ok words =>
      match decodeProjectionBody op.flags name words with
      | .error reason => .error (.logCorrupt lsn reason)
      | .ok definition => .ok fun catalog => catalog.insertProjection (word 0) definition
  -- Registering an index is the only catalog kind left.
  else
    match decodeDefWords blob (word 3) (word 4) lsn with
    | .error error => .error error
    | .ok words =>
      match decodeIndexBody op.flags words with
      | .error reason => .error (.logCorrupt lsn reason)
      | .ok definition => .ok fun catalog => catalog.insertIndex (word 0) name definition

/-- Applies a catalog registration op. -/
def applyCatalogOp (op : MutationOp) (blob : Bytes) (lsn : UInt64) :
    Except DbError Overlay :=
  match blobStr blob (word op 1) (word op 2) lsn with
  | .error error => .error error
  | .ok name =>
    match insertCatalogOp op blob lsn name with
    | .error error => .error error
    | .ok insert => overlay.registerEntry insert

/-- Applies a property set op. -/
def applySetProperty (op : MutationOp) (blob : Bytes)
    (lsn : UInt64) : Except DbError Overlay :=
  let word := word op
  let (subjectKind, valueTag) := unpackFlags op.flags
  match decodeSubject subjectKind (word 0) with
  | none => .error (.logCorrupt lsn "set-property subject kind")
  | some subject =>
    match propertyTypeFromTag valueTag with
    | none => .error (.logCorrupt lsn "set-property value tag")
    | some .boolean =>
      .ok (overlay.setPropertyInner base subject (word 1) (.boolean (word 2 ≠ 0)))
    | some .integer =>
      .ok (overlay.setPropertyInner base subject (word 1) (.integer (word 2).toInt64))
    | some .text =>
      match blobStr blob (word 3) (word 4) lsn with
      | .error error => .error error
      | .ok string => .ok (overlay.setPropertyInner base subject (word 1) (.text string))

/-- Applies a property removal op. -/
def applyRemoveProperty (op : MutationOp)
    (lsn : UInt64) : Except DbError Overlay :=
  match decodeSubject (unpackFlags op.flags).1 (word op 0) with
  | none => .error (.logCorrupt lsn "remove-property subject kind")
  | some subject => .ok (overlay.removePropertyInner base subject (word op 1))

/-- Reads the nine allocators of a watermark op. -/
def watermark (op : MutationOp) : NextIds :=
  let word := word op
  ⟨word 0, word 1, word 2, word 3, word 4, word 5, word 6, word 7, word 8⟩

/-- Applies one decoded replay op against a base, reconstructing the mutation it recorded. -/
def applyReplayOp (op : MutationOp) (blob : Bytes)
    (lsn : UInt64) : Except DbError Overlay :=
  if op.opKind ∈ [opCreateElement, opCreateRelation, opCreateIncidence, opTombstoneElement,
      opTombstoneRelation, opTombstoneIncidence, opAddElementLabel, opAddRelationLabel,
      opSetRelationType] then
    .ok (overlay.applyTopologyOp base op)
  else if op.opKind = opSetProperty then overlay.applySetProperty base op blob lsn
  else if op.opKind = opRemoveProperty then overlay.applyRemoveProperty base op lsn
  else if op.opKind ∈ [opCatalogRegisterRole, opCatalogRegisterLabel,
      opCatalogRegisterRelationType, opCatalogRegisterPropertyKey, opCatalogRegisterProjection,
      opCatalogRegisterIndex] then
    overlay.applyCatalogOp op blob lsn
  else if op.opKind = opNextIdWatermark then .ok { overlay with next := watermark op }
  else .error (.logCorrupt lsn "unknown mutation op kind")

/-- Applies a frame's ops in order. -/
def applyOps (ops : List MutationOp) (blob : Bytes)
    (lsn : UInt64) : Except DbError Overlay :=
  ops.foldlM (fun overlay op => overlay.applyReplayOp base op blob lsn) overlay

/-- Overwrites the watermark, as recovery does with the one it recovered. -/
def setNextIds (next : NextIds) : Overlay := { overlay with next }

end Overlay

namespace WriteOverlay

/-- Seeds a fresh writer delta from the parent's published overlay, with an empty log. -/
def fromOverlay (parent : Overlay) : WriteOverlay := { parent with log := .empty }

variable (writer : WriteOverlay)

/-- Whether this writer recorded any mutation. -/
def isEmpty : Bool := writer.log.isEmpty

/-- The frame this writer commits: its log with the watermark appended as the final op. -/
def takeFrame : MutationLog := writer.log.pushWatermark writer.next

/-- Freezes this delta into the overlay a commit publishes. -/
def freeze : Overlay := writer.toOverlay

/-- Records one op with the given kind, flags, and leading payload words. -/
def push (opKind flags : UInt32) (words : List UInt64) : WriteOverlay :=
  { writer with log := writer.log.push opKind flags words }

/-- Applies one mutation to the data and records its op. -/
def apply (change : Overlay → Overlay) (opKind flags : UInt32)
    (words : List UInt64) : WriteOverlay :=
  { change writer.toOverlay with log := writer.log.push opKind flags words }

/-- Draws a family's next id from the watermark. -/
def allocate (family : IdFamily) : Mutation DbError WriteOverlay UInt64 := fun writer =>
  let id := writer.next.get family
  match checkedNext id with
  | none => (.error (.idOverflow family), writer)
  | some next => (.ok id, { writer with next := writer.next.set family next })

/-- A draw takes the next id of its family, or finds the family exhausted and changes nothing. -/
theorem allocate_cases {family : IdFamily} {writer after : WriteOverlay}
    {result : Except DbError UInt64} (drawn : allocate family writer = (result, after)) :
    (result = .error (.idOverflow family) ∧ after = writer) ∨
      (result = .ok (writer.next.get family) ∧
        ∃ next, checkedNext (writer.next.get family) = some next ∧
          after = { writer with next := writer.next.set family next }) := by
  unfold allocate at drawn
  cases fits : checkedNext (writer.next.get family) with
  | none =>
    simp only [fits] at drawn
    cases drawn
    exact .inl ⟨rfl, rfl⟩
  | some next =>
    simp only [fits] at drawn
    cases drawn
    exact .inr ⟨rfl, next, rfl, rfl⟩

/-- Interns bytes into the log's blob. -/
def intern (value : Bytes) : Mutation DbError WriteOverlay (UInt64 × UInt64) := fun writer =>
  let (words, log) := writer.log.intern value
  (.ok words, { writer with log })

/-- Records a fresh element. -/
def createElement : Mutation DbError WriteOverlay ElementId := do
  let id ← allocate .element
  .modify fun writer => writer.apply (·.putElement id) opCreateElement 0 [id]
  return id

/-- Records a fresh relation. -/
def createRelation : Mutation DbError WriteOverlay RelationId := do
  let id ← allocate .relation
  .modify fun writer => writer.apply (·.putRelation id) opCreateRelation 0 [id]
  return id

/-- Records a fresh incidence. -/
def createIncidence (relation : RelationId) (element : ElementId) (role : RoleId) :
    Mutation DbError WriteOverlay IncidenceId := do
  let id ← allocate .incidence
  .modify fun writer => writer.apply (·.putIncidence ⟨id, relation, element, role⟩)
    opCreateIncidence 0 [id, relation, element, role]
  return id

variable (base : BaseRecords)

/-- Tombstones an element. -/
def tombstoneElement (id : ElementId) :
    WriteOverlay :=
  writer.apply (·.tombstoneElementInner base id) opTombstoneElement 0 [id]

/-- Tombstones a relation. -/
def tombstoneRelation (id : RelationId) :
    WriteOverlay :=
  writer.apply (·.tombstoneRelationInner base id) opTombstoneRelation 0 [id]

/-- Tombstones an incidence. -/
def tombstoneIncidence (id : IncidenceId) :
    WriteOverlay :=
  writer.apply (·.tombstoneIncidenceInner base id) opTombstoneIncidence 0 [id]

/-- Adds a label to an element. -/
def addElementLabel (element : ElementId)
    (label : LabelId) : WriteOverlay :=
  writer.apply (·.addElementLabelInner base element label) opAddElementLabel 0 [element, label]

/-- Adds a label to a relation. -/
def addRelationLabel (relation : RelationId)
    (label : LabelId) : WriteOverlay :=
  writer.apply (·.addRelationLabelInner base relation label) opAddRelationLabel 0
    [relation, label]

/-- Sets a relation's type. -/
def setRelationType (relation : RelationId)
    (relationType : RelationTypeId) : WriteOverlay :=
  writer.apply (·.setRelationTypeInner base relation relationType) opSetRelationType 0
    [relation, relationType]

/-- Interns a value's text, returning its scalar word, its text words, and the grown log. -/
def internValue (log : MutationLog) : PropertyValue → (UInt64 × UInt64 × UInt64) × MutationLog
  | .boolean flag => ((if flag then 1 else 0, 0, 0), log)
  | .integer number => ((number.toUInt64, 0, 0), log)
  | .text string =>
    let ((offset, len), log) := log.intern (utf8Bytes string)
    ((0, offset, len), log)

/-- Sets a property; re-asserting the visible value records nothing. -/
def setProperty (subject : PropertySubject)
    (key : PropertyKeyId) (value : PropertyValue) : WriteOverlay :=
  if writer.visiblePropertyIs base subject key value then writer
  else
    let (subjectKind, subjectId) := encodeSubject subject
    let valueTag := propertyTypeTag value.valueType
    let ((scalar, textOff, textLen), log) := internValue writer.log value
    { writer with log }.apply (·.setPropertyInner base subject key value) opSetProperty
      (packFlags subjectKind valueTag) [subjectId, key, scalar, textOff, textLen]

/-- Removes a property. -/
def removeProperty (subject : PropertySubject)
    (key : PropertyKeyId) : WriteOverlay :=
  let (subjectKind, subjectId) := encodeSubject subject
  writer.apply (·.removePropertyInner base subject key) opRemoveProperty
    (packFlags subjectKind 0) [subjectId, key]

/-- Interns a name, and a definition body when there is one, returning their payload words. -/
def internEntry (name : String) (body : Option (List UInt64)) :
    Mutation DbError WriteOverlay (List UInt64) := do
  let (nameOff, nameLen) ← intern (utf8Bytes name)
  match body with
  | none => return [nameOff, nameLen]
  | some words =>
    let (defOff, defLen) ← intern (arrayBytes words)
    return [nameOff, nameLen, defOff, defLen]

/--
Registers a catalog entry under the next id of its family.

A taken name leaves the id drawn and the name and body interned.
-/
def register (family : IdFamily) (opKind flags : UInt32) (name : String)
    (body : Option (List UInt64)) (insert : UInt64 → Catalog → Except CatalogError Catalog) :
    Mutation DbError WriteOverlay UInt64 := do
  let id ← allocate family
  let words ← internEntry name body
  .attempt fun writer =>
    (writer.toOverlay.registerEntry (insert id)).map fun overlay =>
      { writer with toOverlay := overlay }
  .modify (·.push opKind flags (id :: words))
  return id

/-- Registers a role. -/
def registerRole (name : String) : Mutation DbError WriteOverlay RoleId :=
  register .role opCatalogRegisterRole 0 name none fun id catalog => catalog.insertRole id name

/-- Registers a label. -/
def registerLabel (name : String) : Mutation DbError WriteOverlay LabelId :=
  register .label opCatalogRegisterLabel 0 name none fun id catalog => catalog.insertLabel id name

/-- Registers a relation type. -/
def registerRelationType (name : String) : Mutation DbError WriteOverlay RelationTypeId :=
  register .relationType opCatalogRegisterRelationType 0 name none fun id catalog =>
    catalog.insertRelationType id name

/-- Registers a typed property key. -/
def registerPropertyKey (name : String) (family : PropertyFamily) (valueType : PropertyType) :
    Mutation DbError WriteOverlay PropertyKeyId :=
  register .propertyKey opCatalogRegisterPropertyKey
    (packFlags (propertyFamilyTag family) (propertyTypeTag valueType)) name none
    fun id catalog => catalog.insertPropertyKey ⟨id, name, family, valueType⟩

/-- Registers a projection definition. -/
def registerProjection (definition : ProjectionDefinition) :
    Mutation DbError WriteOverlay ProjectionId :=
  let (kind, words) := encodeProjectionBody definition
  register .projection opCatalogRegisterProjection kind definition.name (some words)
    fun id catalog => catalog.insertProjection id definition

/-- Registers an index definition. -/
def registerIndex (name : String) (definition : IndexDefinition) :
    Mutation DbError WriteOverlay IndexId :=
  let (kind, words) := encodeIndexBody definition
  register .index opCatalogRegisterIndex kind name (some words)
    fun id catalog => catalog.insertIndex id name definition

end WriteOverlay

end Oxgraph
