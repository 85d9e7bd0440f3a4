import Mathlib.Data.Multiset.MapFold
import Oxgraph.Db.Database.Schema
import Oxgraph.Spec.Coherent
import Oxgraph.Spec.Failure

/-! What a schema declares, what a catalog holds under its names, and when the two agree. -/

namespace Oxgraph

namespace NameTable

variable {Entry : Type}

/-- The entry registered under a name. -/
def named (table : NameTable Entry) (name : String) : Option Entry :=
  table.names[name]?.bind fun id => table.entries[id]?

end NameTable

namespace Catalog

/-- The set of the ids that listed names have, when each has one. -/
def resolveAll (lookup : String → Option UInt64) (names : List String) : Option (BTreeSet UInt64) :=
  (names.mapM lookup).map collectSet

/-- The definition an equality-index declaration stands for: its name, over its key. -/
def equalityOf (catalog : Catalog) (declared : String × String) : Option IndexDefinition :=
  (catalog.propertyKeyId declared.2).map .propertyEquality

/-- The definition a graph-projection declaration stands for. -/
def graphOf (catalog : Catalog) (spec : GraphProjectionSpec) : Option ProjectionDefinition := do
  let relationTypes ← resolveAll catalog.relationTypeId spec.relationTypes
  let sourceRole ← catalog.roleId spec.sourceRole
  let targetRole ← catalog.roleId spec.targetRole
  return .graph { name := spec.name, relationTypes, sourceRole, targetRole }

/-- The definition a hypergraph-projection declaration stands for. -/
def hypergraphOf (catalog : Catalog) (spec : HypergraphProjectionSpec) :
    Option ProjectionDefinition := do
  let relationTypes ← resolveAll catalog.relationTypeId spec.relationTypes
  let sourceRoles ← resolveAll catalog.roleId spec.sourceRoles
  let targetRoles ← resolveAll catalog.roleId spec.targetRoles
  return .hypergraph { name := spec.name, relationTypes, sourceRoles, targetRoles }

/-- The index definition under a name. -/
def indexNamed (catalog : Catalog) (name : String) : Option IndexDefinition :=
  (catalog.indexes.named name).map IndexEntry.definition

/-- The projection definition under a name. -/
def projectionNamed (catalog : Catalog) (name : String) : Option ProjectionDefinition :=
  (catalog.projections.named name).map ProjectionEntry.definition

end Catalog

/-- Two lists declare the same names. -/
def SameNames (left right : List String) : Prop := ∀ name, name ∈ left ↔ name ∈ right

/-- Every handle resolves to a catalog entry of the declared name and shape. -/
structure Bound.Matches (bound : Bound) (catalog : Catalog) (schema : Schema) : Prop where
  roles : ∀ name ∈ schema.roles, ∃ id,
    bound.roles[name]? = some id ∧ catalog.role id = some ⟨id, name⟩
  labels : ∀ name ∈ schema.labels, ∃ id,
    bound.labels[name]? = some id ∧ catalog.label id = some ⟨id, name⟩
  relationTypes : ∀ name ∈ schema.relationTypes, ∃ id,
    bound.relationTypes[name]? = some id ∧ catalog.relationType id = some ⟨id, name⟩
  keys : ∀ key ∈ schema.keys, ∃ id, bound.keys[key.1]? = some (id, key.2.2) ∧
    catalog.propertyKey id = some ⟨id, key.1, key.2.1, key.2.2⟩
  -- An equality handle carries the value type of the key its index covers.
  equalityIndexes : ∀ declared ∈ schema.equalityIndexes, ∃ id key valueType,
    bound.equalityIndexes[declared.1]? = some (id, valueType) ∧
      bound.keys[declared.2]? = some (key, valueType) ∧
      catalog.index id = some ⟨id, declared.1, .propertyEquality key⟩
  graphProjections : ∀ spec ∈ schema.graphProjections, ∃ id definition,
    bound.projections[spec.name]? = some id ∧
      catalog.projection id = some ⟨id, definition⟩ ∧ catalog.graphOf spec = some definition
  hypergraphProjections : ∀ spec ∈ schema.hypergraphProjections, ∃ id definition,
    bound.projections[spec.name]? = some id ∧
      catalog.projection id = some ⟨id, definition⟩ ∧ catalog.hypergraphOf spec = some definition

namespace Schema

/-- Each property key the catalog has under a declared name is of the declared shape. -/
def KeysAgree (schema : Schema) (catalog : Catalog) : Prop :=
  ∀ key ∈ schema.keys, ∀ definition, catalog.propertyKeys.named key.1 = some definition →
    definition.family = key.2.1 ∧ definition.valueType = key.2.2

/--
No declared index or projection conflicts with the catalog or with another declaration.

What the catalog already has under a declared name is what the declaration stands for, and two
declarations of one name declare the same.
-/
structure Compatible (schema : Schema) (catalog : Catalog) : Prop where
  index : ∀ declared ∈ schema.equalityIndexes, ∀ definition,
    catalog.indexNamed declared.1 = some definition →
      catalog.equalityOf declared = some definition
  graph : ∀ spec ∈ schema.graphProjections, ∀ definition,
    catalog.projectionNamed spec.name = some definition →
      catalog.graphOf spec = some definition
  hypergraph : ∀ spec ∈ schema.hypergraphProjections, ∀ definition,
    catalog.projectionNamed spec.name = some definition →
      catalog.hypergraphOf spec = some definition
  indexOnce : ∀ left ∈ schema.equalityIndexes, ∀ right ∈ schema.equalityIndexes,
    left.1 = right.1 → left.2 = right.2
  graphOnce : ∀ left ∈ schema.graphProjections, ∀ right ∈ schema.graphProjections,
    left.name = right.name → left.sourceRole = right.sourceRole ∧
      left.targetRole = right.targetRole ∧ SameNames left.relationTypes right.relationTypes
  hypergraphOnce : ∀ left ∈ schema.hypergraphProjections,
    ∀ right ∈ schema.hypergraphProjections, left.name = right.name →
      SameNames left.sourceRoles right.sourceRoles ∧
        SameNames left.targetRoles right.targetRoles ∧
        SameNames left.relationTypes right.relationTypes
  apart : ∀ graph ∈ schema.graphProjections, ∀ hyper ∈ schema.hypergraphProjections,
    graph.name ≠ hyper.name

end Schema

end Oxgraph

-- What a schema declares, without the order in which it was declared.

namespace Oxgraph

/-- What a graph projection declares: its name, its two roles and its relation types. -/
def GraphProjectionSpec.shape (spec : GraphProjectionSpec) :
    String × String × String × Multiset String :=
  (spec.name, spec.sourceRole, spec.targetRole, spec.relationTypes)

/-- What a hypergraph projection declares: its name, its relation types and its roles. -/
def HypergraphProjectionSpec.shape (spec : HypergraphProjectionSpec) :
    String × Multiset String × Multiset String × Multiset String :=
  (spec.name, spec.relationTypes, spec.sourceRoles, spec.targetRoles)

namespace Schema

/-- Declares one item by the method of its kind. -/
def declare (schema : Schema) : Declaration → Schema
  | .role name => schema.role name
  | .label name => schema.label name
  | .relationType name => schema.relationType name
  | .key (name, family, valueType) => schema.key valueType name family
  | .equalityIndex (name, key) => schema.equalityIndex name key
  | .graphProjection spec =>
    schema.graphProjection spec.name spec.relationTypes spec.sourceRole spec.targetRole
  | .hypergraphProjection spec =>
    schema.hypergraphProjection spec.name spec.relationTypes spec.sourceRoles spec.targetRoles

/-- The schema that declares items one after another. -/
def declared (items : List Declaration) : Schema := items.foldl declare .new

/-- Two schemas declare the same multiset of items of each kind. -/
structure SameShape (left right : Schema) : Prop where
  roles : (left.roles : Multiset String) = right.roles
  labels : (left.labels : Multiset String) = right.labels
  relationTypes : (left.relationTypes : Multiset String) = right.relationTypes
  keys : (left.keys : Multiset (String × PropertyFamily × PropertyType)) = right.keys
  equalityIndexes : (left.equalityIndexes : Multiset (String × String)) = right.equalityIndexes
  graphProjections :
    Multiset.map GraphProjectionSpec.shape left.graphProjections =
      Multiset.map GraphProjectionSpec.shape right.graphProjections
  hypergraphProjections :
    Multiset.map HypergraphProjectionSpec.shape left.hypergraphProjections =
      Multiset.map HypergraphProjectionSpec.shape right.hypergraphProjections

end Schema

end Oxgraph
