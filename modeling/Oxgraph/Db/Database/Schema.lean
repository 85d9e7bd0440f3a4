import Oxgraph.Db.Database.Writer
import Oxgraph.Layout.Arrays
import Oxgraph.Lib.Token

/-! Schemas: binding one without writing, the declaration methods, and the content fingerprint. -/

namespace Oxgraph

namespace Catalog

/-- The id a name has, or the error that names its kind. -/
def known (kind name : String) (found : Option UInt64) : Except DbError UInt64 :=
  match found with
  | some id => .ok id
  | none => .error (.catalog (.unknownName kind name))

-- The seven rounds of binding a schema, each adding to the handles resolved so far.

/-- Resolves one declared role. -/
def bindRole (catalog : Catalog) (bound : Bound) (name : String) : Except DbError Bound := do
  let id ← known "role" name (catalog.roleId name)
  return { bound with roles := bound.roles.insert name id }

/-- Resolves one declared label. -/
def bindLabel (catalog : Catalog) (bound : Bound) (name : String) : Except DbError Bound := do
  let id ← known "label" name (catalog.labelId name)
  return { bound with labels := bound.labels.insert name id }

/-- Resolves one declared relation type. -/
def bindRelationType (catalog : Catalog) (bound : Bound) (name : String) :
    Except DbError Bound := do
  let id ← known "relation type" name (catalog.relationTypeId name)
  return { bound with relationTypes := bound.relationTypes.insert name id }

/-- Resolves one declared property key, taking the declared value type as it is. -/
def bindKey (catalog : Catalog) (bound : Bound) (key : String × PropertyFamily × PropertyType) :
    Except DbError Bound := do
  let id ← known "property key" key.1 (catalog.propertyKeyId key.1)
  return { bound with keys := bound.keys.insert key.1 (id, key.2.2) }

/-- Resolves one declared equality index, taking the value type of its declared key. -/
def bindEqualityIndex (catalog : Catalog) (bound : Bound) (declared : String × String) :
    Except DbError Bound := do
  let (_, valueType) ← bound.key declared.2
  let id ← known "index" declared.1 (catalog.indexId declared.1)
  return { bound with equalityIndexes := bound.equalityIndexes.insert declared.1 (id, valueType) }

/-- Resolves one declared graph projection. -/
def bindGraphProjection (catalog : Catalog) (bound : Bound) (spec : GraphProjectionSpec) :
    Except DbError Bound := do
  let id ← known "projection" spec.name (catalog.projectionId spec.name)
  return { bound with projections := bound.projections.insert spec.name id }

/-- Resolves one declared hypergraph projection. -/
def bindHypergraphProjection (catalog : Catalog) (bound : Bound)
    (spec : HypergraphProjectionSpec) : Except DbError Bound := do
  let id ← known "projection" spec.name (catalog.projectionId spec.name)
  return { bound with projections := bound.projections.insert spec.name id }

end Catalog

/-- Resolves an already applied schema against the catalog of the current snapshot. -/
def Snapshot.bind (current : Snapshot) (schema : Schema) : Except DbError Bound := do
  let catalog := current.view.catalog
  let bound ← schema.roles.foldlM catalog.bindRole .empty
  let bound ← schema.labels.foldlM catalog.bindLabel bound
  let bound ← schema.relationTypes.foldlM catalog.bindRelationType bound
  let bound ← schema.keys.foldlM catalog.bindKey bound
  let bound ← schema.equalityIndexes.foldlM catalog.bindEqualityIndex bound
  let bound ← schema.graphProjections.foldlM catalog.bindGraphProjection bound
  schema.hypergraphProjections.foldlM catalog.bindHypergraphProjection bound

end Oxgraph

-- Declaring, and the fingerprint of what is declared.

namespace Oxgraph

/-- The calls that a fingerprint makes on a streaming hasher. -/
structure DefaultHasher (H : Type) where
  new : H
  writeUsize : H → Nat → H
  writeStr : H → String → H
  finish : H → UInt64

/-- Joins names into one order-independent, injective token. -/
def joinSorted (names : List String) : String := Layout.encodeCompositeKey (ascending names)

namespace Schema

/-- Starts an empty schema. -/
def new : Schema := ⟨[], [], [], [], [], [], []⟩

variable (schema : Schema)

/-- Declares an incidence role. -/
def role (name : String) : Schema :=
  { schema with roles := schema.roles ++ [name] }

/-- Declares an element or relation label. -/
def label (name : String) : Schema :=
  { schema with labels := schema.labels ++ [name] }

/-- Declares a relation type. -/
def relationType (name : String) : Schema :=
  { schema with relationTypes := schema.relationTypes ++ [name] }

/-- Declares a typed property key in a family. -/
def key (valueType : PropertyType) (name : String) (family : PropertyFamily) :
    Schema :=
  { schema with keys := schema.keys ++ [(name, family, valueType)] }

/-- Declares an equality index over a property key. -/
def equalityIndex (name key : String) : Schema :=
  { schema with equalityIndexes := schema.equalityIndexes ++ [(name, key)] }

/-- Declares a binary graph projection over relation types. -/
def graphProjection (name : String) (relationTypes : List String)
    (sourceRole targetRole : String) : Schema :=
  { schema with
    graphProjections :=
      schema.graphProjections ++ [⟨name, relationTypes, sourceRole, targetRole⟩] }

/-- Declares a directed hypergraph projection over relation types. -/
def hypergraphProjection (name : String)
    (relationTypes sourceRoles targetRoles : List String) : Schema :=
  { schema with
    hypergraphProjections :=
      schema.hypergraphProjections ++ [⟨name, relationTypes, sourceRoles, targetRoles⟩] }

/-- The tokens of the declared items, kind by kind. -/
def tokens : List String :=
  schema.roles.map (fun role => Layout.encodeCompositeKey ["role", role]) ++
    schema.labels.map (fun label => Layout.encodeCompositeKey ["label", label]) ++
    schema.relationTypes.map
      (fun relationType => Layout.encodeCompositeKey ["rtype", relationType]) ++
    schema.keys.map (fun (name, family, valueType) =>
      Layout.encodeCompositeKey ["key", name, family.debug, valueType.debug]) ++
    schema.equalityIndexes.map
      (fun (name, key) => Layout.encodeCompositeKey ["eqidx", name, key]) ++
    schema.graphProjections.map (fun projection =>
      Layout.encodeCompositeKey ["gproj", projection.name, projection.sourceRole,
        projection.targetRole, joinSorted projection.relationTypes]) ++
    schema.hypergraphProjections.map (fun projection =>
      Layout.encodeCompositeKey ["hproj", projection.name, joinSorted projection.relationTypes,
        joinSorted projection.sourceRoles, joinSorted projection.targetRoles])

/-- The sorted items that a fingerprint hashes. -/
def fingerprintItems : List String := ascending schema.tokens

/-- Returns a content fingerprint of the declared schema shape. -/
def fingerprint {H : Type} (hasher : DefaultHasher H) (schema : Schema) : UInt64 :=
  let items := schema.fingerprintItems
  let state := hasher.writeUsize hasher.new items.length
  hasher.finish (items.foldl hasher.writeStr state)

end Schema

end Oxgraph
