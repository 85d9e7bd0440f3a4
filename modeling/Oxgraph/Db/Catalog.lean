import Oxgraph.Db.State

/-! Catalog metadata for names, projections, property keys, and indexes. -/

namespace Oxgraph

/-- Catalog entry that carries only an id and a name: a role, a label, or a relation type. -/
structure NamedDefinition where
  -- Stable identifier.
  id : UInt64
  -- Human-readable unique name.
  name : String
  deriving DecidableEq, Repr

-- Catalog entry for one structural incidence role.
abbrev RoleDefinition := NamedDefinition
-- Catalog entry for one element or relation label.
abbrev LabelDefinition := NamedDefinition
-- Catalog entry for one relation type.
abbrev RelationTypeDefinition := NamedDefinition

/-- Catalog entry for one typed property key. -/
structure PropertyKeyDefinition where
  -- Stable property key identifier.
  id : PropertyKeyId
  -- Human-readable unique key name.
  name : String
  -- Subject family this key can be attached to.
  family : PropertyFamily
  -- Required scalar value type.
  valueType : PropertyType
  deriving DecidableEq, Repr

/-- Graph projection definition: binary relations as directed edges. -/
structure GraphProjectionDefinition where
  -- Unique projection name.
  name : String
  -- Relation types visible as binary graph edges.
  relationTypes : BTreeSet RelationTypeId
  -- Role identifying the source endpoint.
  sourceRole : RoleId
  -- Role identifying the target endpoint.
  targetRole : RoleId

/-- Hypergraph projection definition: many-participant directed relations. -/
structure HypergraphProjectionDefinition where
  -- Unique projection name.
  name : String
  -- Relation types visible as hyperedges.
  relationTypes : BTreeSet RelationTypeId
  -- Roles treated as source-side participants.
  sourceRoles : BTreeSet RoleId
  -- Roles treated as target-side participants.
  targetRoles : BTreeSet RoleId

/-- Physical projection definition stored in the catalog. -/
inductive ProjectionDefinition where
  | graph (definition : GraphProjectionDefinition)
  | hypergraph (definition : HypergraphProjectionDefinition)

/-- Returns the unique projection name. -/
def ProjectionDefinition.name : ProjectionDefinition → String
  | .graph definition => definition.name
  | .hypergraph definition => definition.name

/-- Index definition stored in the catalog. -/
inductive IndexDefinition where
  -- Element label membership index.
  | label (label : LabelId)
  -- Relation type membership index.
  | relationType (relationType : RelationTypeId)
  -- Equality index over one property key.
  | propertyEquality (key : PropertyKeyId)
  -- Range index over one ordered property key.
  | propertyRange (key : PropertyKeyId)
  -- Composite equality index over ordered property keys.
  | compositeEquality (keys : List PropertyKeyId)
  -- Projection-materialization index metadata.
  | projection (projection : ProjectionId)
  deriving DecidableEq, Repr

/-- Catalog entry for one index. -/
structure IndexEntry where
  -- Stable index identifier.
  id : IndexId
  -- Human-readable unique index name.
  name : String
  -- Logical index definition.
  definition : IndexDefinition
  deriving DecidableEq, Repr

/-- Catalog entry for one projection. -/
structure ProjectionEntry where
  -- Stable projection identifier.
  id : ProjectionId
  -- Physical projection definition.
  definition : ProjectionDefinition

/-- A catalog entry knows its own id and its own unique name. -/
class CatalogEntry (Entry : Type) where
  id : Entry → UInt64
  name : Entry → String

instance : CatalogEntry NamedDefinition := ⟨NamedDefinition.id, NamedDefinition.name⟩
instance : CatalogEntry PropertyKeyDefinition :=
  ⟨PropertyKeyDefinition.id, PropertyKeyDefinition.name⟩
instance : CatalogEntry ProjectionEntry :=
  ⟨ProjectionEntry.id, fun entry => entry.definition.name⟩
instance : CatalogEntry IndexEntry := ⟨IndexEntry.id, IndexEntry.name⟩

/-- One catalog family: its entries by stable id, and their ids by unique name. -/
structure NameTable (Entry : Type) where
  entries : BTreeMap UInt64 Entry
  names : BTreeMap String UInt64

namespace NameTable

variable {Entry : Type}

/-- A family with no entries. -/
def empty : NameTable Entry := ⟨∅, ∅⟩

/-- Inserts one unique name into a catalog name map. -/
def insertNamed (names : BTreeMap String UInt64) (name : String) (id : UInt64) :
    Except CatalogError (BTreeMap String UInt64) :=
  if name ∈ names then .error .duplicateName else .ok (names.insert name id)

/-- Registers one entry under its id and its name; a taken name leaves the family unchanged. -/
def insert [CatalogEntry Entry] (table : NameTable Entry) (entry : Entry) :
    Except CatalogError (NameTable Entry) :=
  match insertNamed table.names (CatalogEntry.name entry) (CatalogEntry.id entry) with
  | .error error => .error error
  | .ok names => .ok { entries := table.entries.insert (CatalogEntry.id entry) entry, names }

/-- A successful registration had a fresh name, and adds exactly its entry and its name. -/
theorem insert_eq_ok [CatalogEntry Entry] {table after : NameTable Entry} {entry : Entry} :
    table.insert entry = .ok after ↔
      CatalogEntry.name entry ∉ table.names ∧
      after = { entries := table.entries.insert (CatalogEntry.id entry) entry
                names := table.names.insert (CatalogEntry.name entry) (CatalogEntry.id entry) } := by
  unfold insert insertNamed
  by_cases taken : CatalogEntry.name entry ∈ table.names
  · simp [taken]
  · simp [taken, eq_comm]

/-- The entries in ascending id order. -/
def values (table : NameTable Entry) : List Entry := table.entries.toList.map Prod.snd

end NameTable

/-- Db catalog for names, schemas, projections, and indexes. -/
structure Catalog where
  roles : NameTable RoleDefinition
  labels : NameTable LabelDefinition
  relationTypes : NameTable RelationTypeDefinition
  propertyKeys : NameTable PropertyKeyDefinition
  projections : NameTable ProjectionEntry
  indexes : NameTable IndexEntry

namespace Catalog

/-- Creates an empty catalog. -/
def empty : Catalog := ⟨.empty, .empty, .empty, .empty, .empty, .empty⟩

-- By-id lookups of the six families.
variable (catalog : Catalog)

def role (id : RoleId) : Option RoleDefinition := catalog.roles.entries[id]?
def label (id : LabelId) : Option LabelDefinition :=
  catalog.labels.entries[id]?
def relationType (id : RelationTypeId) : Option RelationTypeDefinition :=
  catalog.relationTypes.entries[id]?
def propertyKey (id : PropertyKeyId) : Option PropertyKeyDefinition :=
  catalog.propertyKeys.entries[id]?
def projection (id : ProjectionId) : Option ProjectionEntry :=
  catalog.projections.entries[id]?
def index (id : IndexId) : Option IndexEntry := catalog.indexes.entries[id]?

-- By-name lookups of the six families.
def roleId (name : String) : Option RoleId := catalog.roles.names[name]?
def labelId (name : String) : Option LabelId := catalog.labels.names[name]?
def relationTypeId (name : String) : Option RelationTypeId :=
  catalog.relationTypes.names[name]?
def propertyKeyId (name : String) : Option PropertyKeyId :=
  catalog.propertyKeys.names[name]?
def projectionId (name : String) : Option ProjectionId :=
  catalog.projections.names[name]?
def indexId (name : String) : Option IndexId := catalog.indexes.names[name]?

/-- Registers a structural role. -/
def insertRole (id : RoleId) (name : String) : Except CatalogError Catalog :=
  (catalog.roles.insert ⟨id, name⟩).map fun roles => { catalog with roles }

/-- Registers a label. -/
def insertLabel (id : LabelId) (name : String) :
    Except CatalogError Catalog :=
  (catalog.labels.insert ⟨id, name⟩).map fun labels => { catalog with labels }

/-- Registers a relation type. -/
def insertRelationType (id : RelationTypeId) (name : String) :
    Except CatalogError Catalog :=
  (catalog.relationTypes.insert ⟨id, name⟩).map fun relationTypes =>
    { catalog with relationTypes }

/-- Registers a typed property key. -/
def insertPropertyKey (definition : PropertyKeyDefinition) :
    Except CatalogError Catalog :=
  (catalog.propertyKeys.insert definition).map fun propertyKeys => { catalog with propertyKeys }

/-- Registers a projection definition. -/
def insertProjection (id : ProjectionId) (definition : ProjectionDefinition) :
    Except CatalogError Catalog :=
  (catalog.projections.insert ⟨id, definition⟩).map fun projections =>
    { catalog with projections }

/-- Registers an index definition. -/
def insertIndex (id : IndexId) (name : String) (definition : IndexDefinition) :
    Except CatalogError Catalog :=
  (catalog.indexes.insert ⟨id, name, definition⟩).map fun indexes => { catalog with indexes }

end Catalog

end Oxgraph
