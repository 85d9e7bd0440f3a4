import Oxgraph.Db.Database.Writer

/-! What a failed call of the writer leaves behind. -/

namespace Oxgraph

/-- A family of the catalog has an entry of the name. -/
def Catalog.Taken (catalog : Catalog) (name : String) : IdFamily → Prop
  | .element | .relation | .incidence => False
  | .role => (catalog.roleId name).isSome
  | .label => (catalog.labelId name).isSome
  | .relationType => (catalog.relationTypeId name).isSome
  | .propertyKey => (catalog.propertyKeyId name).isSome
  | .projection => (catalog.projectionId name).isSome
  | .index => (catalog.indexId name).isSome

/-- The next id of a family is drawn, and a name with what follows it interned; nothing else. -/
def Writer.Burnt (family : IdFamily) (name : String) (after before : Writer) : Prop :=
  ∃ next body, checkedNext (before.delta.next.get family) = some next ∧
    after = { before with
      delta := { before.delta with
        next := before.delta.next.set family next
        log := { before.delta.log with
          blob := before.delta.log.blob ++ (utf8Bytes name ++ body) } } }

/-- A registration that fails changes nothing, unless its name is taken, which burns an id. -/
def Writer.Unregistered (family : IdFamily) (name : String) (after before : Writer) : Prop :=
  after = before ∨ before.merged.catalog.Taken name family ∧ after.Burnt family name before

namespace WriterOp

/-- A call made of one change, or of changes that cannot fail once they begin. -/
def Single : WriterOp → Prop
  | .applySchema _ | .upsertElement _ _ | .upsertRelation _ _ _ _ => False
  | _ => True

/-- The name that a call registers, and the family whose id it is to have. -/
def registers : WriterOp → Option (IdFamily × String)
  | .registerRole name => some (.role, name)
  | .registerLabel name => some (.label, name)
  | .registerRelationType name => some (.relationType, name)
  | .registerPropertyKey name _ _ => some (.propertyKey, name)
  | .defineProjection definition => some (.projection, definition.name)
  | .defineIndex name _ => some (.index, name)
  | _ => none

/-- A run of calls stops at the first that fails, past those that succeeded. -/
def Stops (calls : List WriterOp) (writer : Writer) (error : DbError) (after : Writer) : Prop :=
  ∃ done next rest, calls = done ++ next :: rest ∧
    done.forM run writer = (.ok (), after) ∧ next.run after = (.error error, after)

/-- The calls that mint an element under an identity value. -/
def mintElement (id : ElementId) (key : PropertyKeyId) (value : PropertyValue) : List WriterOp :=
  [.createElement, .set (.element id) key value]

/-- The calls that mint a relation under an identity value. -/
def mintRelation (id : RelationId) (key : PropertyKeyId) (value : PropertyValue)
    (relationType : RelationTypeId) (endpoints : List (ElementId × RoleId)) : List WriterOp :=
  [.createRelation, .setRelationType id relationType, .set (.relation id) key value] ++
    endpoints.map fun endpoint => .createIncidence id endpoint.1 endpoint.2

end WriterOp

/-- One item that a schema declares. -/
inductive Declaration where
  | role (name : String)
  | label (name : String)
  | relationType (name : String)
  | key (declared : String × PropertyFamily × PropertyType)
  | equalityIndex (declared : String × String)
  | graphProjection (spec : GraphProjectionSpec)
  | hypergraphProjection (spec : HypergraphProjectionSpec)

/-- Binds one declared item. -/
def Declaration.bind (bound : Bound) : Declaration → Mutation DbError Writer Bound
  | .role name => Writer.bindRole bound name
  | .label name => Writer.bindLabel bound name
  | .relationType name => Writer.bindRelationType bound name
  | .key declared => Writer.bindKey bound declared
  | .equalityIndex declared => Writer.bindEqualityIndex bound declared
  | .graphProjection spec => Writer.bindGraphProjection bound spec
  | .hypergraphProjection spec => Writer.bindHypergraphProjection bound spec

/-- What a schema declares, in the order in which it is applied. -/
def Schema.declarations (schema : Schema) : List Declaration :=
  schema.roles.map .role ++ schema.labels.map .label ++
    schema.relationTypes.map .relationType ++ schema.keys.map .key ++
    schema.equalityIndexes.map .equalityIndex ++ schema.graphProjections.map .graphProjection ++
    schema.hypergraphProjections.map .hypergraphProjection

end Oxgraph
