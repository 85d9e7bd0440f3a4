import Oxgraph.Db.Overlay.Merge
import Oxgraph.Db.Overlay.Write

/-! The single writer transaction: its guarded mutators and its composite operations. -/

namespace Oxgraph

/-- A binary graph-projection declaration over a set of relation types. -/
structure GraphProjectionSpec where
  name : String
  relationTypes : List String
  sourceRole : String
  targetRole : String

/-- A directed hypergraph-projection declaration over a set of relation types. -/
structure HypergraphProjectionSpec where
  name : String
  relationTypes : List String
  sourceRoles : List String
  targetRoles : List String

/-- A declarative catalog schema, applied once to obtain a handle bag. -/
structure Schema where
  roles : List String
  labels : List String
  relationTypes : List String
  -- Declared property keys: name, family, value type.
  keys : List (String × PropertyFamily × PropertyType)
  -- Declared equality indexes: index name, indexed key name.
  equalityIndexes : List (String × String)
  graphProjections : List GraphProjectionSpec
  hypergraphProjections : List HypergraphProjectionSpec

/-- The ids an applied schema resolved its names to. -/
structure Bound where
  roles : BTreeMap String RoleId
  labels : BTreeMap String LabelId
  relationTypes : BTreeMap String RelationTypeId
  keys : BTreeMap String (PropertyKeyId × PropertyType)
  equalityIndexes : BTreeMap String (IndexId × PropertyType)
  projections : BTreeMap String ProjectionId

namespace Bound

/-- A handle bag that resolved nothing yet. -/
def empty : Bound := ⟨∅, ∅, ∅, ∅, ∅, ∅⟩

/-- Resolves a name among the handles of one kind. -/
def resolve {Id : Type} (handles : BTreeMap String Id) (kind name : String) : Except DbError Id :=
  match handles[name]? with
  | some id => .ok id
  | none => .error (.catalog (.unknownName kind name))

/-- Resolves a role handle. -/
def role (bound : Bound) (name : String) : Except DbError RoleId :=
  resolve bound.roles "role" name

/-- Resolves a relation-type handle. -/
def relationType (bound : Bound) (name : String) : Except DbError RelationTypeId :=
  resolve bound.relationTypes "relation type" name

/-- Resolves a property key with its value type. -/
def key (bound : Bound) (name : String) : Except DbError (PropertyKeyId × PropertyType) :=
  resolve bound.keys "property key" name

end Bound

/-- Single writer transaction: a private delta over the parent snapshot it started from. -/
structure Writer where
  -- Parent snapshot the writer layers over.
  parent : Snapshot
  -- Private mutable delta this writer accumulates.
  delta : WriteOverlay
  -- Writer transaction id, durable once a dirty commit writes its frame.
  transactionId : TransactionId

namespace Writer

/-- The base records under the writer. -/
def base (writer : Writer) : BaseRecords := writer.parent.baseRecords

/-- The merged read view this writer sees. -/
def merged (writer : Writer) : LayeredState := ⟨writer.base, writer.delta.toOverlay⟩

/-- Applies a change of the delta over the parent's base. -/
def change (mutator : WriteOverlay → BaseRecords → WriteOverlay) : Mutation DbError Writer Unit :=
  .modify fun writer => { writer with delta := mutator writer.delta writer.base }

/-- Runs a fallible change of the delta. -/
def onDelta {T : Type} (mutator : Mutation DbError WriteOverlay T) : Mutation DbError Writer T :=
  .onPart Writer.delta (fun writer delta => { writer with delta }) mutator

-- The checks a mutator makes of the merged view.

/-- Requires an element to be visible. -/
def requireElement (id : ElementId) : Mutation DbError Writer Unit :=
  .require (·.merged.containsElement id) (.unknown .element id)

/-- Requires a relation to be visible. -/
def requireRelation (id : RelationId) : Mutation DbError Writer Unit :=
  .require (·.merged.containsRelation id) (.unknown .relation id)

/-- Requires an incidence to be visible. -/
def requireIncidence (id : IncidenceId) : Mutation DbError Writer Unit :=
  .require (·.merged.containsIncidence id) (.unknown .incidence id)

/-- Requires a role to exist in the merged catalog. -/
def requireRole (id : RoleId) : Mutation DbError Writer Unit :=
  .require (fun writer => (writer.delta.catalog.role id).isSome) (.unknown .role id)

/-- Requires a label to exist in the merged catalog. -/
def requireLabel (id : LabelId) : Mutation DbError Writer Unit :=
  .require (fun writer => (writer.delta.catalog.label id).isSome) (.unknown .label id)

/-- Requires a relation type to exist in the merged catalog. -/
def requireRelationType (id : RelationTypeId) : Mutation DbError Writer Unit :=
  .require (fun writer => (writer.delta.catalog.relationType id).isSome)
    (.unknown .relationType id)

/-- Requires a property key to exist in the merged catalog. -/
def requirePropertyKey (id : PropertyKeyId) : Mutation DbError Writer Unit :=
  .require (fun writer => (writer.delta.catalog.propertyKey id).isSome) (.unknown .propertyKey id)

/-- Requires a property subject to be visible. -/
def requireSubject : PropertySubject → Mutation DbError Writer Unit
  | .element id => requireElement id
  | .relation id => requireRelation id
  | .incidence id => requireIncidence id

/-- Requires a projection to exist in the merged catalog. -/
def requireProjection (id : ProjectionId) : Mutation DbError Writer Unit :=
  .require (fun writer => (writer.delta.catalog.projection id).isSome) (.unknown .projection id)

/-- Validates one projection definition against the merged catalog. -/
def validateProjectionDefinition : ProjectionDefinition → Mutation DbError Writer Unit
  | .graph graph => do
    requireRole graph.sourceRole
    requireRole graph.targetRole
    graph.relationTypes.toList.forM requireRelationType
  | .hypergraph hyper => do
    hyper.sourceRoles.toList.forM requireRole
    hyper.targetRoles.toList.forM requireRole
    hyper.relationTypes.toList.forM requireRelationType

/-- Validates one index definition against the merged catalog. -/
def validateIndexDefinition : IndexDefinition → Mutation DbError Writer Unit
  | .label label => requireLabel label
  | .relationType relationType => requireRelationType relationType
  | .propertyEquality key | .propertyRange key => requirePropertyKey key
  | .compositeEquality keys =>
    if keys.isEmpty then
      .fail (.unsupported "composite equality index requires at least one key")
    else keys.forM requirePropertyKey
  | .projection projection => requireProjection projection

-- The public mutators.

/-- Registers a structural incidence role. -/
def registerRole (name : String) : Mutation DbError Writer RoleId :=
  onDelta (WriteOverlay.registerRole name)

/-- Registers an element or relation label. -/
def registerLabel (name : String) : Mutation DbError Writer LabelId :=
  onDelta (WriteOverlay.registerLabel name)

/-- Registers a relation type. -/
def registerRelationType (name : String) : Mutation DbError Writer RelationTypeId :=
  onDelta (WriteOverlay.registerRelationType name)

/-- Registers a typed property key. -/
def registerPropertyKey (name : String) (family : PropertyFamily) (valueType : PropertyType) :
    Mutation DbError Writer PropertyKeyId :=
  onDelta (WriteOverlay.registerPropertyKey name family valueType)

/-- Defines a physical projection. -/
def defineProjection (definition : ProjectionDefinition) : Mutation DbError Writer ProjectionId :=
  do
    validateProjectionDefinition definition
    onDelta (WriteOverlay.registerProjection definition)

/-- Defines an index. -/
def defineIndex (name : String) (definition : IndexDefinition) : Mutation DbError Writer IndexId :=
  do
    validateIndexDefinition definition
    onDelta (WriteOverlay.registerIndex name definition)

/-- Creates a canonical element. -/
def createElement : Mutation DbError Writer ElementId := onDelta WriteOverlay.createElement

/-- Creates a canonical relation. -/
def createRelation : Mutation DbError Writer RelationId := onDelta WriteOverlay.createRelation

/-- Creates a canonical incidence between visible records, in a registered role. -/
def createIncidence (relation : RelationId) (element : ElementId) (role : RoleId) :
    Mutation DbError Writer IncidenceId := do
  requireRelation relation
  requireElement element
  requireRole role
  onDelta (WriteOverlay.createIncidence relation element role)

/-- Tombstones a list of incidences in order. -/
def tombstoneIncidences (base : BaseRecords) (incidences : List IncidenceId)
    (delta : WriteOverlay) : WriteOverlay :=
  incidences.foldl (fun delta incidence => delta.tombstoneIncidence base incidence) delta

/-- Tombstones a visible element and every incidence the reverse-adjacency index finds on it. -/
def tombstoneElement (id : ElementId) : Mutation DbError Writer Unit := do
  requireElement id
  let writer ← .read
  let incidences := (writer.merged.elementIncidences id).map IncidenceRecord.id
  change fun delta base => tombstoneIncidences base incidences (delta.tombstoneElement base id)

/-- Tombstones a visible relation and every incidence the reverse-adjacency index finds in it. -/
def tombstoneRelation (id : RelationId) : Mutation DbError Writer Unit := do
  requireRelation id
  let writer ← .read
  let incidences := (writer.merged.relationIncidences id).map IncidenceRecord.id
  change fun delta base => tombstoneIncidences base incidences (delta.tombstoneRelation base id)

/-- Tombstones a visible incidence. -/
def tombstoneIncidence (id : IncidenceId) : Mutation DbError Writer Unit := do
  requireIncidence id
  change fun delta base => delta.tombstoneIncidence base id

/-- Adds a registered label to a visible element. -/
def addElementLabel (element : ElementId) (label : LabelId) : Mutation DbError Writer Unit := do
  requireElement element
  requireLabel label
  change fun delta base => delta.addElementLabel base element label

/-- Adds a registered label to a visible relation. -/
def addRelationLabel (relation : RelationId) (label : LabelId) : Mutation DbError Writer Unit := do
  requireRelation relation
  requireLabel label
  change fun delta base => delta.addRelationLabel base relation label

/-- Sets the type of a visible relation to a registered one. -/
def setRelationType (relation : RelationId) (relationType : RelationTypeId) :
    Mutation DbError Writer Unit := do
  requireRelation relation
  requireRelationType relationType
  change fun delta base => delta.setRelationType base relation relationType

/-- The definition of a registered property key. -/
def propertyKeyDefinition (key : PropertyKeyId) : Mutation DbError Writer PropertyKeyDefinition :=
  do
    let writer ← .read
    match writer.merged.catalog.propertyKey key with
    | none => .fail (.unknown .propertyKey key)
    | some definition => return definition

/-- Sets a property of a visible subject, of the key's family and value type. -/
def setProperty (subject : PropertySubject) (key : PropertyKeyId) (value : PropertyValue) :
    Mutation DbError Writer Unit := do
  requireSubject subject
  let definition ← propertyKeyDefinition key
  if definition.family ≠ subject.family then
    .fail (.query (.wrongPropertyFamily definition.family subject.family))
  else if definition.valueType ≠ value.valueType then
    .fail (.query (.propertyTypeMismatch definition.valueType value.valueType))
  else change fun delta base => delta.setProperty base subject key value

/-- Removes a property of a visible subject under a registered key. -/
def removeProperty (subject : PropertySubject) (key : PropertyKeyId) :
    Mutation DbError Writer Unit := do
  requireSubject subject
  requirePropertyKey key
  change fun delta base => delta.removeProperty base subject key

/-- Resolves the property key an equality index covers. -/
def equalityIndexKey (index : IndexId) : Mutation DbError Writer PropertyKeyId := do
  let writer ← .read
  match writer.merged.catalog.index index with
  | none => .fail (.unknown .index index)
  | some entry =>
    match entry.definition with
    | .propertyEquality key => return key
    | _ => .fail (.unsupported "reconcile requires a property-equality index")

/-- Adds a label to an element or relation subject. -/
def addLabel (subject : PropertySubject) (label : LabelId) : Mutation DbError Writer Unit :=
  match subject with
  | .element id => addElementLabel id label
  | .relation id => addRelationLabel id label
  | .incidence _ => .fail (.unsupported "incidences do not carry labels")

/-- Tombstones any visible subject, cascading over the incidences of an element or a relation. -/
def tombstone : PropertySubject → Mutation DbError Writer Unit
  | .element id => tombstoneElement id
  | .relation id => tombstoneRelation id
  | .incidence id => tombstoneIncidence id

/-- The element whose value under an equality index equals a value, minted when there is none. -/
def upsertElement (index : IndexId) (value : PropertyValue) : Mutation DbError Writer ElementId :=
  do
    let key ← equalityIndexKey index
    let writer ← .read
    let existing := (writer.merged.propertyEqual key value).findSome? fun subject =>
      match subject with
      | .element id => some id
      | _ => none
    match existing with
    | some id => return id
    | none =>
      let element ← createElement
      setProperty (.element element) key value
      return element

/--
The relation whose value under an equality index equals a value.

A miss mints the relation, with its type, its identity property, and one incidence per endpoint.
-/
def upsertRelation (index : IndexId) (value : PropertyValue) (relationType : RelationTypeId)
    (endpoints : List (ElementId × RoleId)) : Mutation DbError Writer RelationId := do
  let key ← equalityIndexKey index
  let writer ← .read
  let existing := (writer.merged.propertyEqual key value).findSome? fun subject =>
    match subject with
    | .relation id => some id
    | _ => none
  match existing with
  | some id => return id
  | none =>
    let relation ← createRelation
    setRelationType relation relationType
    setProperty (.relation relation) key value
    endpoints.forM fun endpoint => do
      let _ ← createIncidence relation endpoint.1 endpoint.2
    return relation

/-- Tombstones every subject an equality index carries whose value is not kept. -/
def retain (index : IndexId) (keep : List PropertyValue) : Mutation DbError Writer Unit := do
  let key ← equalityIndexKey index
  let writer ← .read
  let stale := ((writer.merged.propertyKeySubjects key).filter fun entry =>
    ¬ (collectSet keep).contains entry.2).map Prod.fst
  stale.forM tombstone

-- Declarative schemas.

/-- Takes the id a name already has, or registers the name. -/
def getOr {Id : Type} (lookup : Catalog → Option Id) (make : Mutation DbError Writer Id) :
    Mutation DbError Writer Id := do
  let writer ← .read
  match lookup writer.merged.catalog with
  | some id => return id
  | none => make

/-- Registers a property key, or takes the id of an existing one of the same shape. -/
def registerKeyOrGet (name : String) (family : PropertyFamily) (valueType : PropertyType) :
    Mutation DbError Writer PropertyKeyId := do
  let writer ← .read
  match writer.merged.catalog.propertyKeyId name with
  | none => registerPropertyKey name family valueType
  | some existing =>
    match writer.merged.catalog.propertyKey existing with
    | some definition =>
      if definition.family = family ∧ definition.valueType = valueType then return existing
      else conflict
    | none => conflict
where
  conflict : Mutation DbError Writer PropertyKeyId :=
    .fail (.catalog (.schemaConflict name
      "property key family/value type differs from the existing catalog entry"))

/-- Resolves a list of names into the set of their ids. -/
def resolveNames (resolve : String → Except DbError UInt64) (names : List String) :
    Except DbError (BTreeSet UInt64) :=
  names.foldlM (fun ids name => (resolve name).map ids.insert) ∅

/-- Defines a graph projection from a spec, resolving its names through a handle bag. -/
def defineGraphProjection (spec : GraphProjectionSpec) (bound : Bound) :
    Mutation DbError Writer ProjectionId := do
  let relationTypes ← .lift (resolveNames bound.relationType spec.relationTypes)
  let sourceRole ← .lift (bound.role spec.sourceRole)
  let targetRole ← .lift (bound.role spec.targetRole)
  defineProjection (.graph { name := spec.name, relationTypes, sourceRole, targetRole })

/-- Defines a hypergraph projection from a spec, resolving its names through a handle bag. -/
def defineHypergraphProjection (spec : HypergraphProjectionSpec) (bound : Bound) :
    Mutation DbError Writer ProjectionId := do
  let relationTypes ← .lift (resolveNames bound.relationType spec.relationTypes)
  let sourceRoles ← .lift (resolveNames bound.role spec.sourceRoles)
  let targetRoles ← .lift (resolveNames bound.role spec.targetRoles)
  defineProjection (.hypergraph { name := spec.name, relationTypes, sourceRoles, targetRoles })

-- The seven rounds of applying a schema, each adding to the handles resolved so far.

/-- Binds one declared role. -/
def bindRole (bound : Bound) (name : String) : Mutation DbError Writer Bound := do
  let id ← getOr (·.roleId name) (registerRole name)
  return { bound with roles := bound.roles.insert name id }

/-- Binds one declared label. -/
def bindLabel (bound : Bound) (name : String) : Mutation DbError Writer Bound := do
  let id ← getOr (·.labelId name) (registerLabel name)
  return { bound with labels := bound.labels.insert name id }

/-- Binds one declared relation type. -/
def bindRelationType (bound : Bound) (name : String) : Mutation DbError Writer Bound := do
  let id ← getOr (·.relationTypeId name) (registerRelationType name)
  return { bound with relationTypes := bound.relationTypes.insert name id }

/-- Binds one declared property key. -/
def bindKey (bound : Bound) (key : String × PropertyFamily × PropertyType) :
    Mutation DbError Writer Bound := do
  let id ← registerKeyOrGet key.1 key.2.1 key.2.2
  return { bound with keys := bound.keys.insert key.1 (id, key.2.2) }

/-- Binds one declared equality index. -/
def bindEqualityIndex (bound : Bound) (declared : String × String) :
    Mutation DbError Writer Bound := do
  let (key, valueType) ← .lift (bound.key declared.2)
  let id ← getOr (·.indexId declared.1) (defineIndex declared.1 (.propertyEquality key))
  return { bound with equalityIndexes := bound.equalityIndexes.insert declared.1 (id, valueType) }

/-- Binds one declared graph projection. -/
def bindGraphProjection (bound : Bound) (spec : GraphProjectionSpec) :
    Mutation DbError Writer Bound := do
  let id ← getOr (·.projectionId spec.name) (defineGraphProjection spec bound)
  return { bound with projections := bound.projections.insert spec.name id }

/-- Binds one declared hypergraph projection. -/
def bindHypergraphProjection (bound : Bound) (spec : HypergraphProjectionSpec) :
    Mutation DbError Writer Bound := do
  let id ← getOr (·.projectionId spec.name) (defineHypergraphProjection spec bound)
  return { bound with projections := bound.projections.insert spec.name id }

/-- Applies a declarative schema, registering or reusing every declared item. -/
def applySchema (schema : Schema) : Mutation DbError Writer Bound := do
  let bound ← schema.roles.foldlM bindRole .empty
  let bound ← schema.labels.foldlM bindLabel bound
  let bound ← schema.relationTypes.foldlM bindRelationType bound
  let bound ← schema.keys.foldlM bindKey bound
  let bound ← schema.equalityIndexes.foldlM bindEqualityIndex bound
  let bound ← schema.graphProjections.foldlM bindGraphProjection bound
  schema.hypergraphProjections.foldlM bindHypergraphProjection bound

end Writer

/-- One call of a public mutator of the writer. -/
inductive WriterOp where
  | registerRole (name : String)
  | registerLabel (name : String)
  | registerRelationType (name : String)
  | registerPropertyKey (name : String) (family : PropertyFamily) (valueType : PropertyType)
  | defineProjection (definition : ProjectionDefinition)
  | defineIndex (name : String) (definition : IndexDefinition)
  | applySchema (schema : Schema)
  | createElement
  | createRelation
  | createIncidence (relation : RelationId) (element : ElementId) (role : RoleId)
  | setRelationType (relation : RelationId) (relationType : RelationTypeId)
  | upsertElement (index : IndexId) (value : PropertyValue)
  | upsertRelation (index : IndexId) (value : PropertyValue) (relationType : RelationTypeId)
    (endpoints : List (ElementId × RoleId))
  | retain (index : IndexId) (keep : List PropertyValue)
  | set (subject : PropertySubject) (key : PropertyKeyId) (value : PropertyValue)
  | unset (subject : PropertySubject) (key : PropertyKeyId)
  | addLabel (subject : PropertySubject) (label : LabelId)
  | tombstone (subject : PropertySubject)

namespace WriterOp

/-- What a call returns. -/
def Returns : WriterOp → Type
  | .registerRole _ => RoleId
  | .registerLabel _ => LabelId
  | .registerRelationType _ => RelationTypeId
  | .registerPropertyKey .. => PropertyKeyId
  | .defineProjection _ => ProjectionId
  | .defineIndex .. => IndexId
  | .applySchema _ => Bound
  | .createElement | .upsertElement .. => ElementId
  | .createRelation | .upsertRelation .. => RelationId
  | .createIncidence .. => IncidenceId
  | _ => Unit

/-- Makes one call. -/
def call : (op : WriterOp) → Mutation DbError Writer op.Returns
  | .registerRole name => Writer.registerRole name
  | .registerLabel name => Writer.registerLabel name
  | .registerRelationType name => Writer.registerRelationType name
  | .registerPropertyKey name family valueType => Writer.registerPropertyKey name family valueType
  | .defineProjection definition => Writer.defineProjection definition
  | .defineIndex name definition => Writer.defineIndex name definition
  | .applySchema schema => Writer.applySchema schema
  | .createElement => Writer.createElement
  | .createRelation => Writer.createRelation
  | .createIncidence relation element role => Writer.createIncidence relation element role
  | .setRelationType relation relationType => Writer.setRelationType relation relationType
  | .upsertElement index value => Writer.upsertElement index value
  | .upsertRelation index value relationType endpoints =>
    Writer.upsertRelation index value relationType endpoints
  | .retain index keep => Writer.retain index keep
  | .set subject key value => Writer.setProperty subject key value
  | .unset subject key => Writer.removeProperty subject key
  | .addLabel subject label => Writer.addLabel subject label
  | .tombstone subject => Writer.tombstone subject

/-- Makes one call and drops its result. -/
def run (op : WriterOp) : Mutation DbError Writer Unit := do
  let _ ← op.call

/-- Runs calls in order; a caller may go on after one that failed. -/
def runAll (ops : List WriterOp) (writer : Writer) : Writer :=
  ops.foldl (fun writer op => (op.run writer).2) writer

end WriterOp

end Oxgraph
