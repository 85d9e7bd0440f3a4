import Oxgraph.Db.Database.Schema
import Oxgraph.Proofs.Db.Catalog
import Oxgraph.Proofs.Db.Database.Closed

/-! Applying and binding a schema: the handles, and the names claimed for them. -/

namespace Oxgraph

open Mutation (bind_ok lift_ok)

namespace Writer

variable {writer after : Writer} {bound next : Bound}

-- One registration.

/-- A registration of the writer that succeeds inserts its entry under the family's next id. -/
theorem onDelta_register_ok {family : IdFamily} {opKind flags : UInt32} {name : String}
    {body : Option (List UInt64)} {insert : UInt64 → Catalog → Except CatalogError Catalog}
    {id : UInt64} (registered : onDelta
      (WriteOverlay.register family opKind flags name body insert) writer = (.ok id, after)) :
    id = writer.merged.nextIds.get family ∧
      insert id writer.merged.catalog = .ok after.merged.catalog := by
  obtain ⟨delta, done, rfl⟩ := Mutation.onPart_ok registered
  obtain ⟨drawn, inserted, _⟩ := WriteOverlay.register_ok done
  exact ⟨drawn, inserted⟩

/-- The next id of a family is not registered yet. -/
theorem unused (sound : writer.merged.Sound) (family : IdFamily) :
    ¬ writer.merged.catalog.Registers family (writer.merged.nextIds.get family) :=
  fun registers => UInt64.lt_irrefl _
    (sound.coherent.bounded (LayeredState.holds_of_registers registers))

/-- Taking or registering a name either finds it bound, or finds it free and registers it. -/
theorem getOr_ok {Id : Type} {lookup : Catalog → Option Id} {make : Mutation DbError Writer Id}
    {id : Id} (done : getOr lookup make writer = (.ok id, after)) :
    (lookup writer.merged.catalog = some id ∧ after = writer) ∨
      (lookup writer.merged.catalog = none ∧ make writer = (.ok id, after)) := by
  unfold getOr at done
  rw [Mutation.bind_apply, Mutation.read] at done
  cases found : lookup writer.merged.catalog with
  | some bound =>
    simp only [found] at done
    cases done
    exact .inl ⟨rfl, rfl⟩
  | none =>
    simp only [found] at done
    exact .inr ⟨rfl, done⟩

/-- Binding a property key adds a handle for a key of the declared shape. -/
theorem bindKey_ok (sound : writer.merged.Sound) {key : String × PropertyFamily × PropertyType}
    (done : bindKey bound key writer = (.ok next, after)) :
    ∃ id, next = { bound with keys := bound.keys.insert key.1 (id, key.2.2) } ∧
      after.merged.catalog.propertyKeyId key.1 = some id ∧
      after.merged.catalog.propertyKey id = some ⟨id, key.1, key.2.1, key.2.2⟩ ∧
      after.merged.catalog =
        { writer.merged.catalog with propertyKeys := after.merged.catalog.propertyKeys } := by
  obtain ⟨id, middle, got, returned⟩ := bind_ok.mp done
  cases returned
  refine ⟨id, rfl, ?_⟩
  unfold registerKeyOrGet at got
  rw [Mutation.bind_apply, Mutation.read] at got
  cases found : writer.merged.catalog.propertyKeyId key.1 with
  | none =>
    simp only [found] at got
    obtain ⟨whole, named, entered, _⟩ :=
      NameTable.stored Catalog.propertyKeys (onDelta_register_ok got).2 fun _ => rfl
    exact ⟨named, entered, whole⟩
  | some existing =>
    simp only [found] at got
    -- The check compared the shape of the key that is there.
    obtain ⟨definition, present, own, called, _⟩ :=
      sound.coherent.catalog.propertyKeys.entry_of_name found
    have read : writer.merged.catalog.propertyKey existing = some definition := present
    simp only [read] at got
    split at got
    · rename_i agrees
      cases got
      obtain ⟨family, valueType⟩ := agrees
      refine ⟨found, read.trans (congrArg some ?_), rfl⟩
      cases definition
      cases own
      cases called
      cases family
      cases valueType
      rfl
    · cases got

/-- A handle resolves exactly when it is bound. -/
theorem resolve_ok {Id : Type} {handles : BTreeMap String Id} {kind name : String} {id : Id} :
    Bound.resolve handles kind name = .ok id ↔ handles[name]? = some id := by
  unfold Bound.resolve
  cases handles[name]? <;> simp

/-- Defining an index that succeeds registers it under the next id. -/
theorem defineIndex_ok {name : String} {definition : IndexDefinition} {id : IndexId}
    (defined : defineIndex name definition writer = (.ok id, after)) :
    id = writer.merged.nextIds.index ∧
      writer.merged.catalog.insertIndex id name definition = .ok after.merged.catalog := by
  obtain ⟨_, middle, validated, registered⟩ := bind_ok.mp defined
  obtain ⟨_, rfl⟩ := validateIndexDefinition_ok validated
  exact onDelta_register_ok registered

/-- Defining a projection that succeeds registers it under the next id. -/
theorem defineProjection_ok {definition : ProjectionDefinition} {id : ProjectionId}
    (defined : defineProjection definition writer = (.ok id, after)) :
    id = writer.merged.nextIds.projection ∧
      writer.merged.catalog.insertProjection id definition = .ok after.merged.catalog := by
  obtain ⟨_, middle, validated, registered⟩ := bind_ok.mp defined
  obtain ⟨_, rfl⟩ := validateProjectionDefinition_ok validated
  exact onDelta_register_ok registered

/-- A projection round takes the projection its name has, or claims the name for a new one. -/
theorem getOr_projection_ok (sound : writer.merged.Sound) {name : String} {id : ProjectionId}
    {make : Mutation DbError Writer ProjectionId} {wants : Option ProjectionDefinition}
    (makes : ∀ {id after}, make writer = (.ok id, after) → ∃ definition,
      wants = some definition ∧ definition.name = name ∧
        id = writer.merged.nextIds.projection ∧
        writer.merged.catalog.insertProjection id definition = .ok after.merged.catalog)
    (got : getOr (·.projectionId name) make writer = (.ok id, after)) :
    after.merged.catalog.projectionId name = some id ∧
      after.merged.catalog =
        { writer.merged.catalog with projections := after.merged.catalog.projections } ∧
      after.merged.catalog.projectionNamed =
        claim writer.merged.catalog.projectionNamed name wants := by
  rcases getOr_ok got with ⟨found, rfl⟩ | ⟨_, made⟩
  · -- A bound name keeps what it has, whatever the declaration wants.
    exact ⟨found, rfl, sound.coherent.catalog.projections.claim_bound _ found _⟩
  · obtain ⟨definition, rfl, rfl, drawn, registered⟩ := makes made
    obtain ⟨whole, named, _, inserted⟩ :=
      NameTable.stored Catalog.projections registered fun _ => rfl
    have fresh : ¬ writer.merged.catalog.Registers .projection id :=
      drawn ▸ unused sound .projection
    have claims :=
      sound.coherent.catalog.projections.claim_insert ProjectionEntry.definition fresh inserted
    exact ⟨named, whole, claims⟩

/-- One writer is reached from another: its view is sound, and its catalog only grew. -/
structure Advances (before after : Writer) : Prop where
  sound : after.merged.Sound
  grows : after.merged.catalog.Grows before.merged.catalog
  closed : before.merged.catalog.Closed → after.merged.catalog.Closed

theorem Advances.refl (sound : writer.merged.Sound) : writer.Advances writer :=
  ⟨sound, .refl _, fun closed => closed⟩

theorem Advances.trans {first second third : Writer} (before : first.Advances second)
    (after : second.Advances third) : first.Advances third :=
  ⟨after.sound, before.grows.trans after.grows, fun closed => after.closed (before.closed closed)⟩

/-- A guarded mutator advances the writer, whatever it returns. -/
theorem Guarded.advances {T : Type} {mutator : Mutation DbError Writer T}
    {result : Except DbError T} (guarded : Guarded mutator) (sound : writer.merged.Sound)
    (done : mutator writer = (result, after)) : writer.Advances after := by
  have steps := guarded writer
  unfold Mutation.Steps at steps
  rw [done] at steps
  obtain ⟨grows, closed⟩ := Step.grows steps sound
  exact ⟨Step.sound steps sound, grows, closed⟩

/-- Binding an equality index takes the index its name has, or claims the name for a new one. -/
theorem bindEqualityIndex_ok (sound : writer.merged.Sound) {declared : String × String}
    (done : bindEqualityIndex bound declared writer = (.ok next, after)) :
    ∃ key valueType id, bound.keys[declared.2]? = some (key, valueType) ∧
      next = { bound with
        equalityIndexes := bound.equalityIndexes.insert declared.1 (id, valueType) } ∧
      after.merged.catalog.indexId declared.1 = some id ∧
      after.merged.catalog =
        { writer.merged.catalog with indexes := after.merged.catalog.indexes } ∧
      after.merged.catalog.indexNamed =
        claim writer.merged.catalog.indexNamed declared.1 (some (.propertyEquality key)) := by
  obtain ⟨⟨key, valueType⟩, first, lifted, rest⟩ := bind_ok.mp done
  obtain ⟨resolved, rfl⟩ := lift_ok.mp lifted
  obtain ⟨id, middle, got, returned⟩ := bind_ok.mp rest
  cases returned
  refine ⟨key, valueType, id, resolve_ok.mp resolved, rfl, ?_⟩
  rcases getOr_ok got with ⟨found, rfl⟩ | ⟨_, made⟩
  · exact ⟨found, rfl, sound.coherent.catalog.indexes.claim_bound _ found _⟩
  · obtain ⟨drawn, registered⟩ := defineIndex_ok made
    obtain ⟨whole, named, _, inserted⟩ :=
      NameTable.stored Catalog.indexes registered fun _ => rfl
    have fresh : ¬ first.merged.catalog.Registers .index id := drawn ▸ unused sound .index
    -- The id is the next one, so no entry stood under it before.
    have claims := sound.coherent.catalog.indexes.claim_insert IndexEntry.definition fresh inserted
    exact ⟨named, whole, claims⟩

/-- What an index name reads of a catalog. -/
theorem indexNamed_congr {left right : Catalog} (indexes : left.indexes = right.indexes) :
    left.indexNamed = right.indexNamed := by
  funext name
  unfold Catalog.indexNamed
  rw [indexes]

/-- What a projection name reads of a catalog. -/
theorem projectionNamed_congr {left right : Catalog}
    (projections : left.projections = right.projections) :
    left.projectionNamed = right.projectionNamed := by
  funext name
  unfold Catalog.projectionNamed
  rw [projections]

/-- Handles are bound for exactly the listed names, and each fits its name. -/
structure Handles {H : Type} (handles : BTreeMap String H) (names : List String)
    (fits : String → H → Prop) : Prop where
  bound : ∀ name ∈ names, ∃ handle, handles[name]? = some handle
  fits : ∀ {name handle}, handles[name]? = some handle → name ∈ names ∧ fits name handle

section Handles

variable {H : Type} {handles : BTreeMap String H} {names : List String} {fits : String → H → Prop}

/-- No handles are bound for no names. -/
theorem handles_empty : Handles (∅ : BTreeMap String H) [] fits :=
  ⟨fun _ member => (nomatch member), fun found => by simp at found⟩

/-- Binding one handle more. -/
theorem Handles.insert (bound : Handles handles names fits) {name : String} {handle : H}
    (own : fits name handle) : Handles (handles.insert name handle) (names ++ [name]) fits := by
  constructor
  · intro probe member
    rw [get_insert]
    split
    · exact ⟨handle, rfl⟩
    · rename_i apart
      rcases List.mem_append.mp member with before | same
      · exact bound.bound probe before
      · exact absurd (List.mem_singleton.mp same).symm apart
  · intro probe found read
    rw [get_insert] at read
    split at read
    · rename_i same
      cases read
      cases same
      exact ⟨by simp, own⟩
    · obtain ⟨member, fitted⟩ := bound.fits read
      exact ⟨List.mem_append_left _ member, fitted⟩

/-- Handles that fit one way fit every wider way. -/
theorem Handles.mono {wide : String → H → Prop} (bound : Handles handles names fits)
    (wider : ∀ {name handle}, fits name handle → wide name handle) : Handles handles names wide :=
  ⟨bound.bound, fun read => ⟨(bound.fits read).1, wider (bound.fits read).2⟩⟩

end Handles

end Writer

/-- A handle bag binds what a schema declares, each handle to the id the catalog has. -/
structure Bound.Resolves (bound : Bound) (catalog : Catalog) (schema : Schema) : Prop where
  roles : Writer.Handles bound.roles schema.roles fun name id => catalog.roleId name = some id
  labels : Writer.Handles bound.labels schema.labels fun name id => catalog.labelId name = some id
  relationTypes : Writer.Handles bound.relationTypes schema.relationTypes fun name id =>
    catalog.relationTypeId name = some id
  keys : Writer.Handles bound.keys (schema.keys.map fun key => key.1) fun name handle =>
    catalog.propertyKeyId name = some handle.1 ∧ ∃ family, (name, family, handle.2) ∈ schema.keys
  equalityIndexes : Writer.Handles bound.equalityIndexes
    (schema.equalityIndexes.map fun declared => declared.1) fun name handle =>
      catalog.indexId name = some handle.1 ∧ ∃ keyName key,
        (name, keyName) ∈ schema.equalityIndexes ∧ bound.keys[keyName]? = some (key, handle.2)
  projections : Writer.Handles bound.projections
    (schema.graphProjections.map GraphProjectionSpec.name ++
      schema.hypergraphProjections.map HypergraphProjectionSpec.name) fun name id =>
        catalog.projectionId name = some id

/-- The index names a schema claims, with what it wants each for. -/
def Schema.indexClaims (schema : Schema) (catalog : Catalog) :
    List (String × Option IndexDefinition) :=
  schema.equalityIndexes.map fun declared => (declared.1, catalog.equalityOf declared)

/-- The projection names a schema claims, with what it wants each for. -/
def Schema.projectionClaims (schema : Schema) (catalog : Catalog) :
    List (String × Option ProjectionDefinition) :=
  (schema.graphProjections.map fun spec => (spec.name, catalog.graphOf spec)) ++
    schema.hypergraphProjections.map fun spec => (spec.name, catalog.hypergraphOf spec)

-- What one round adds to the handles, whether the schema is applied or only bound.

namespace Bound.Resolves

variable {bound : Bound} {catalog after : Catalog} {schema : Schema} {roles labels types : List String}
  {keys : List (String × PropertyFamily × PropertyType)} {declared : List (String × String)}
  {graphs : List GraphProjectionSpec} {hypers : List HypergraphProjectionSpec}
  {name : String} {id : UInt64}

/-- The empty bag resolves the empty schema. -/
theorem empty : Bound.empty.Resolves catalog .new :=
  ⟨Writer.handles_empty, Writer.handles_empty, Writer.handles_empty, Writer.handles_empty,
    Writer.handles_empty, Writer.handles_empty⟩

/-- Handles stay what they are while the catalog grows. -/
theorem grows (resolves : bound.Resolves catalog schema) (grows : after.Grows catalog) :
    bound.Resolves after schema where
  roles := resolves.roles.mono fun found => grows.roles.names found
  labels := resolves.labels.mono fun found => grows.labels.names found
  relationTypes := resolves.relationTypes.mono fun found => grows.relationTypes.names found
  keys := resolves.keys.mono fun found => ⟨grows.propertyKeys.names found.1, found.2⟩
  equalityIndexes := resolves.equalityIndexes.mono fun found =>
    ⟨grows.indexes.names found.1, found.2⟩
  projections := resolves.projections.mono fun found => grows.projections.names found

/-- A role more. -/
theorem role (resolves : bound.Resolves catalog schema) (named : catalog.roleId name = some id) :
    { bound with roles := bound.roles.insert name id }.Resolves catalog (schema.role name) :=
  { resolves with roles := resolves.roles.insert named }

/-- A label more. -/
theorem label (resolves : bound.Resolves catalog schema) (named : catalog.labelId name = some id) :
    { bound with labels := bound.labels.insert name id }.Resolves catalog (schema.label name) :=
  { resolves with labels := resolves.labels.insert named }

/-- A relation type more. -/
theorem relationType (resolves : bound.Resolves catalog schema)
    (named : catalog.relationTypeId name = some id) :
    { bound with relationTypes := bound.relationTypes.insert name id }.Resolves catalog
      (schema.relationType name) :=
  { resolves with relationTypes := resolves.relationTypes.insert named }

/-- A property key more, before any index over one. -/
theorem key (resolves : bound.Resolves catalog ⟨roles, labels, types, keys, [], graphs, hypers⟩)
    {key : String × PropertyFamily × PropertyType}
    (named : catalog.propertyKeyId key.1 = some id) :
    { bound with keys := bound.keys.insert key.1 (id, key.2.2) }.Resolves catalog
      ⟨roles, labels, types, keys ++ [key], [], graphs, hypers⟩ := by
  refine { resolves with keys := ?_, equalityIndexes := ?_ }
  · rw [List.map_append]
    have wider := resolves.keys.mono fun {name handle} found =>
      (⟨found.1, found.2.imp fun _ member => List.mem_append_left _ member⟩ :
        catalog.propertyKeyId name = some handle.1 ∧
          ∃ family, (name, family, handle.2) ∈ keys ++ [key])
    exact wider.insert ⟨named, key.2.1, by simp⟩
  · exact ⟨resolves.equalityIndexes.bound, fun read => nomatch (resolves.equalityIndexes.fits read).1⟩

/-- An equality index more, of the type of its key. -/
theorem equalityIndex
    (resolves : bound.Resolves catalog ⟨roles, labels, types, keys, declared, graphs, hypers⟩)
    {one : String × String} {key : PropertyKeyId} {valueType : PropertyType}
    (keyed : bound.keys[one.2]? = some (key, valueType))
    (named : catalog.indexId one.1 = some id) :
    { bound with
      equalityIndexes := bound.equalityIndexes.insert one.1 (id, valueType) }.Resolves catalog
      ⟨roles, labels, types, keys, declared ++ [one], graphs, hypers⟩ := by
  refine { resolves with equalityIndexes := ?_ }
  rw [List.map_append]
  have wider := resolves.equalityIndexes.mono fun {name handle} ⟨found, keyName, key, member, keyed⟩ =>
    (⟨found, keyName, key, List.mem_append_left _ member, keyed⟩ :
      catalog.indexId name = some handle.1 ∧ ∃ keyName key,
        (name, keyName) ∈ declared ++ [one] ∧ bound.keys[keyName]? = some (key, handle.2))
  exact wider.insert ⟨named, one.2, key, by simp, keyed⟩

/-- A graph projection more, before any hypergraph projection. -/
theorem graph (resolves : bound.Resolves catalog ⟨roles, labels, types, keys, declared, graphs, []⟩)
    {spec : GraphProjectionSpec} (named : catalog.projectionId spec.name = some id) :
    { bound with projections := bound.projections.insert spec.name id }.Resolves catalog
      ⟨roles, labels, types, keys, declared, graphs ++ [spec], []⟩ := by
  refine { resolves with projections := ?_ }
  have wider := resolves.projections.insert named
  simpa using wider

/-- A hypergraph projection more. -/
theorem hypergraph
    (resolves : bound.Resolves catalog ⟨roles, labels, types, keys, declared, graphs, hypers⟩)
    {spec : HypergraphProjectionSpec} (named : catalog.projectionId spec.name = some id) :
    { bound with projections := bound.projections.insert spec.name id }.Resolves catalog
      ⟨roles, labels, types, keys, declared, graphs, hypers ++ [spec]⟩ := by
  refine { resolves with projections := ?_ }
  have wider := resolves.projections.insert named
  simpa using wider

end Bound.Resolves

namespace Writer

variable {writer after : Writer} {bound : Bound}

/-- A graph projection is defined as its spec means, once the handles resolve. -/
theorem defineGraphProjection_ok {schema : Schema} {spec : GraphProjectionSpec}
    (resolves : bound.Resolves writer.merged.catalog schema) {id : ProjectionId}
    (made : defineGraphProjection spec bound writer = (.ok id, after)) :
    ∃ definition, writer.merged.catalog.graphOf spec = some definition ∧
      definition.name = spec.name ∧ id = writer.merged.nextIds.projection ∧
        writer.merged.catalog.insertProjection id definition = .ok after.merged.catalog := by
  obtain ⟨relationTypes, first, typesLifted, afterTypes⟩ := bind_ok.mp made
  obtain ⟨types, rfl⟩ := lift_ok.mp typesLifted
  obtain ⟨sourceRole, second, sourceLifted, afterSource⟩ := bind_ok.mp afterTypes
  obtain ⟨source, rfl⟩ := lift_ok.mp sourceLifted
  obtain ⟨targetRole, third, targetLifted, defined⟩ := bind_ok.mp afterSource
  obtain ⟨target, rfl⟩ := lift_ok.mp targetLifted
  refine ⟨_, ?_, rfl, defineProjection_ok defined⟩
  -- What the handles resolve is what the catalog resolves.
  unfold Catalog.graphOf
  rw [resolveNames_ok (fun found => (resolves.relationTypes.fits (resolve_ok.mp found)).2) types,
    (resolves.roles.fits (resolve_ok.mp source)).2, (resolves.roles.fits (resolve_ok.mp target)).2]
  rfl

/-- A hypergraph projection is defined as its spec means, once the handles resolve. -/
theorem defineHypergraphProjection_ok {schema : Schema} {spec : HypergraphProjectionSpec}
    (resolves : bound.Resolves writer.merged.catalog schema) {id : ProjectionId}
    (made : defineHypergraphProjection spec bound writer = (.ok id, after)) :
    ∃ definition, writer.merged.catalog.hypergraphOf spec = some definition ∧
      definition.name = spec.name ∧ id = writer.merged.nextIds.projection ∧
        writer.merged.catalog.insertProjection id definition = .ok after.merged.catalog := by
  obtain ⟨relationTypes, first, typesLifted, afterTypes⟩ := bind_ok.mp made
  obtain ⟨types, rfl⟩ := lift_ok.mp typesLifted
  obtain ⟨sourceRoles, second, sourcesLifted, afterSources⟩ := bind_ok.mp afterTypes
  obtain ⟨sources, rfl⟩ := lift_ok.mp sourcesLifted
  obtain ⟨targetRoles, third, targetsLifted, defined⟩ := bind_ok.mp afterSources
  obtain ⟨targets, rfl⟩ := lift_ok.mp targetsLifted
  refine ⟨_, ?_, rfl, defineProjection_ok defined⟩
  have roles {name : String} {id : RoleId} (found : bound.role name = .ok id) :=
    (resolves.roles.fits (resolve_ok.mp found)).2
  unfold Catalog.hypergraphOf
  rw [resolveNames_ok (fun found => (resolves.relationTypes.fits (resolve_ok.mp found)).2) types,
    resolveNames_ok roles sources, resolveNames_ok roles targets]
  rfl

/--
A writer and its handles once the start of a schema is applied.

The names claimed for indexes and projections are claimed in order, each for what the declarations
mean in the catalog reached.
-/
structure Applied (start writer : Writer) (bound : Bound) (schema : Schema) : Prop where
  advances : start.Advances writer
  resolves : bound.Resolves writer.merged.catalog schema
  shaped : ∀ key ∈ schema.keys, ∃ id, writer.merged.catalog.propertyKeyId key.1 = some id ∧
    writer.merged.catalog.propertyKey id = some ⟨id, key.1, key.2.1, key.2.2⟩
  indexes : writer.merged.catalog.indexNamed =
    claimAll start.merged.catalog.indexNamed (schema.indexClaims writer.merged.catalog)
  projections : writer.merged.catalog.projectionNamed =
    claimAll start.merged.catalog.projectionNamed (schema.projectionClaims writer.merged.catalog)

namespace Applied

variable {start writer after : Writer} {bound next : Bound} {roles labels types : List String}
  {keys : List (String × PropertyFamily × PropertyType)} {declared : List (String × String)}
  {graphs : List GraphProjectionSpec} {hypers : List HypergraphProjectionSpec} {name : String}

/-- A round before those of the property keys declares no key and claims no name. -/
theorem onward {roles' labels' types' : List String}
    (applied : start.Applied writer bound ⟨roles, labels, types, [], [], [], []⟩)
    (here : writer.Advances after)
    (resolves : next.Resolves after.merged.catalog ⟨roles', labels', types', [], [], [], []⟩)
    (indexes : after.merged.catalog.indexes = writer.merged.catalog.indexes)
    (projections : after.merged.catalog.projections = writer.merged.catalog.projections) :
    start.Applied after next ⟨roles', labels', types', [], [], [], []⟩ where
  advances := applied.advances.trans here
  resolves := resolves
  shaped := fun _ member => nomatch member
  indexes := (indexNamed_congr indexes).trans applied.indexes
  projections := (projectionNamed_congr projections).trans applied.projections

/-- Binding a role. -/
theorem role (applied : start.Applied writer bound ⟨roles, [], [], [], [], [], []⟩)
    (ran : bindRole bound name writer = (.ok next, after)) :
    start.Applied after next ⟨roles ++ [name], [], [], [], [], [], []⟩ := by
  have here := (bindRole_guarded bound name).advances applied.advances.sound ran
  have grown := applied.resolves.grows here.grows
  obtain ⟨id, middle, got, returned⟩ := bind_ok.mp ran
  cases returned
  rcases getOr_ok got with ⟨found, rfl⟩ | ⟨_, made⟩
  · exact applied.onward here (grown.role found) rfl rfl
  · obtain ⟨whole, named, _⟩ :=
      NameTable.stored Catalog.roles (onDelta_register_ok made).2 fun _ => rfl
    exact applied.onward here (grown.role named) (by rw [whole]) (by rw [whole])

/-- Binding a label. -/
theorem label (applied : start.Applied writer bound ⟨roles, labels, [], [], [], [], []⟩)
    (ran : bindLabel bound name writer = (.ok next, after)) :
    start.Applied after next ⟨roles, labels ++ [name], [], [], [], [], []⟩ := by
  have here := (bindLabel_guarded bound name).advances applied.advances.sound ran
  have grown := applied.resolves.grows here.grows
  obtain ⟨id, middle, got, returned⟩ := bind_ok.mp ran
  cases returned
  rcases getOr_ok got with ⟨found, rfl⟩ | ⟨_, made⟩
  · exact applied.onward here (grown.label found) rfl rfl
  · obtain ⟨whole, named, _⟩ :=
      NameTable.stored Catalog.labels (onDelta_register_ok made).2 fun _ => rfl
    exact applied.onward here (grown.label named) (by rw [whole]) (by rw [whole])

/-- Binding a relation type. -/
theorem relationType (applied : start.Applied writer bound ⟨roles, labels, types, [], [], [], []⟩)
    (ran : bindRelationType bound name writer = (.ok next, after)) :
    start.Applied after next ⟨roles, labels, types ++ [name], [], [], [], []⟩ := by
  have here := (bindRelationType_guarded bound name).advances applied.advances.sound ran
  have grown := applied.resolves.grows here.grows
  obtain ⟨id, middle, got, returned⟩ := bind_ok.mp ran
  cases returned
  rcases getOr_ok got with ⟨found, rfl⟩ | ⟨_, made⟩
  · exact applied.onward here (grown.relationType found) rfl rfl
  · obtain ⟨whole, named, _⟩ :=
      NameTable.stored Catalog.relationTypes (onDelta_register_ok made).2 fun _ => rfl
    exact applied.onward here (grown.relationType named) (by rw [whole]) (by rw [whole])

/-- Binding a property key, which has the declared shape from then on. -/
theorem key (applied : start.Applied writer bound ⟨roles, labels, types, keys, [], [], []⟩)
    {key : String × PropertyFamily × PropertyType}
    (ran : bindKey bound key writer = (.ok next, after)) :
    start.Applied after next ⟨roles, labels, types, keys ++ [key], [], [], []⟩ := by
  have here := (bindKey_guarded bound key).advances applied.advances.sound ran
  obtain ⟨id, rfl, named, read, whole⟩ := bindKey_ok applied.advances.sound ran
  refine ⟨applied.advances.trans here, (applied.resolves.grows here.grows).key named, ?_, ?_, ?_⟩
  · intro other member
    rcases List.mem_append.mp member with old | new
    · obtain ⟨id, named, read⟩ := applied.shaped other old
      have grows := here.grows.propertyKeys
      exact ⟨id, grows.names named, grows.entries read⟩
    · cases List.mem_singleton.mp new
      exact ⟨id, named, read⟩
  · rw [whole]
    exact applied.indexes
  · rw [whole]
    exact applied.projections

/-- Binding an equality index, which takes its name's index or claims the name for a new one. -/
theorem equalityIndex
    (applied : start.Applied writer bound ⟨roles, labels, types, keys, declared, [], []⟩)
    {one : String × String} (ran : bindEqualityIndex bound one writer = (.ok next, after)) :
    start.Applied after next ⟨roles, labels, types, keys, declared ++ [one], [], []⟩ := by
  have here := (bindEqualityIndex_guarded bound one).advances applied.advances.sound ran
  obtain ⟨key, valueType, id, keyed, rfl, named, whole, claims⟩ :=
    bindEqualityIndex_ok applied.advances.sound ran
  have grown := applied.resolves.grows here.grows
  -- Its key was bound before, so the declaration means an index over that key.
  have means : after.merged.catalog.equalityOf one = some (.propertyEquality key) := by
    unfold Catalog.equalityOf
    rw [(grown.keys.fits keyed).2.1]
    rfl
  refine ⟨applied.advances.trans here, grown.equalityIndex keyed named, ?_, ?_, ?_⟩
  · rw [whole]
    exact applied.shaped
  · rw [claims, applied.indexes]
    unfold Schema.indexClaims
    rw [List.map_append, claimAll_append, List.map_singleton, means, whole]
    rfl
  · rw [whole]
    exact applied.projections

/-- Binding a graph projection, which takes its name's projection or claims the name. -/
theorem graph (applied : start.Applied writer bound ⟨roles, labels, types, keys, declared, graphs, []⟩)
    {spec : GraphProjectionSpec} (ran : bindGraphProjection bound spec writer = (.ok next, after)) :
    start.Applied after next ⟨roles, labels, types, keys, declared, graphs ++ [spec], []⟩ := by
  have here := (bindGraphProjection_guarded bound spec).advances applied.advances.sound ran
  obtain ⟨id, middle, got, returned⟩ := bind_ok.mp ran
  cases returned
  obtain ⟨named, whole, claims⟩ := getOr_projection_ok applied.advances.sound
    (defineGraphProjection_ok applied.resolves) got
  refine ⟨applied.advances.trans here, (applied.resolves.grows here.grows).graph named, ?_, ?_, ?_⟩
  · rw [whole]
    exact applied.shaped
  · rw [whole]
    exact applied.indexes
  · -- Roles and relation types are those the declaration was read in.
    have same : after.merged.catalog.graphOf = writer.merged.catalog.graphOf := by
      rw [whole]
      rfl
    rw [claims, applied.projections]
    simp only [Schema.projectionClaims, same, List.map_append, List.map_nil, List.append_nil,
      claimAll_append]
    rfl

/-- Binding a hypergraph projection, which takes its name's projection or claims the name. -/
theorem hypergraph
    (applied : start.Applied writer bound ⟨roles, labels, types, keys, declared, graphs, hypers⟩)
    {spec : HypergraphProjectionSpec}
    (ran : bindHypergraphProjection bound spec writer = (.ok next, after)) :
    start.Applied after next ⟨roles, labels, types, keys, declared, graphs, hypers ++ [spec]⟩ := by
  have here := (bindHypergraphProjection_guarded bound spec).advances applied.advances.sound ran
  obtain ⟨id, middle, got, returned⟩ := bind_ok.mp ran
  cases returned
  obtain ⟨named, whole, claims⟩ := getOr_projection_ok applied.advances.sound
    (defineHypergraphProjection_ok applied.resolves) got
  refine ⟨applied.advances.trans here, (applied.resolves.grows here.grows).hypergraph named,
    ?_, ?_, ?_⟩
  · rw [whole]
    exact applied.shaped
  · rw [whole]
    exact applied.indexes
  · have same : after.merged.catalog.graphOf = writer.merged.catalog.graphOf ∧
        after.merged.catalog.hypergraphOf = writer.merged.catalog.hypergraphOf := by
      rw [whole]
      exact ⟨rfl, rfl⟩
    rw [claims, applied.projections]
    simp only [Schema.projectionClaims, same.1, same.2, List.map_append, claimAll_append]
    rfl

end Applied

/-- Applying a schema binds what it declares, claiming index and projection names in order. -/
theorem applySchema_ok (sound : writer.merged.Sound) {schema : Schema}
    (applied : applySchema schema writer = (.ok bound, after)) :
    writer.Applied after bound schema := by
  obtain ⟨withRoles, first, rolesDone, applied1⟩ := bind_ok.mp applied
  obtain ⟨withLabels, second, labelsDone, applied2⟩ := bind_ok.mp applied1
  obtain ⟨withTypes, third, typesDone, applied3⟩ := bind_ok.mp applied2
  obtain ⟨withKeys, fourth, keysDone, applied4⟩ := bind_ok.mp applied3
  obtain ⟨withIndexes, fifth, indexesDone, applied5⟩ := bind_ok.mp applied4
  obtain ⟨withGraphs, sixth, graphsDone, hypersDone⟩ := bind_ok.mp applied5
  clear applied1 applied2 applied3 applied4 applied5
  -- What is applied grows by one declaration each round, list after list.
  have nothing : writer.Applied writer .empty .new :=
    ⟨.refl sound, .empty, fun _ member => (nomatch member), rfl, rfl⟩
  have roles := Mutation.foldlM_ok
    (fun done bound reached => writer.Applied reached bound ⟨done, [], [], [], [], [], []⟩)
    (fun _ before ran => before.role ran) nothing rolesDone
  have labels := Mutation.foldlM_ok
    (fun done bound reached =>
      writer.Applied reached bound ⟨schema.roles, done, [], [], [], [], []⟩)
    (fun _ before ran => before.label ran) roles labelsDone
  have types := Mutation.foldlM_ok
    (fun done bound reached =>
      writer.Applied reached bound ⟨schema.roles, schema.labels, done, [], [], [], []⟩)
    (fun _ before ran => before.relationType ran) labels typesDone
  have keys := Mutation.foldlM_ok
    (fun done bound reached => writer.Applied reached bound
      ⟨schema.roles, schema.labels, schema.relationTypes, done, [], [], []⟩)
    (fun _ before ran => before.key ran) types keysDone
  have indexes := Mutation.foldlM_ok
    (fun done bound reached => writer.Applied reached bound
      ⟨schema.roles, schema.labels, schema.relationTypes, schema.keys, done, [], []⟩)
    (fun _ before ran => before.equalityIndex ran) keys indexesDone
  have graphs := Mutation.foldlM_ok
    (fun done bound reached => writer.Applied reached bound
      { schema with graphProjections := done, hypergraphProjections := [] })
    (fun _ before ran => before.graph ran) indexes graphsDone
  exact Mutation.foldlM_ok
    (fun done bound reached => writer.Applied reached bound
      { schema with hypergraphProjections := done })
    (fun _ before ran => before.hypergraph ran) graphs hypersDone

end Writer

-- Binding an already applied schema.

/-- A known name has the id that is returned. -/
theorem known_ok {kind name : String} {found : Option UInt64} {id : UInt64} :
    Catalog.known kind name found = .ok id ↔ found = some id := by
  unfold Catalog.known
  cases found <;> simp

/-- Binding a schema binds what it declares to the ids of the catalog. -/
theorem Snapshot.bind_ok {current : Snapshot} {schema : Schema} {bound : Bound}
    (resolved : current.bind schema = .ok bound) :
    bound.Resolves current.view.catalog schema := by
  obtain ⟨withRoles, rolesDone, resolved1⟩ := bind_eq_ok.mp resolved
  obtain ⟨withLabels, labelsDone, resolved2⟩ := bind_eq_ok.mp resolved1
  obtain ⟨withTypes, typesDone, resolved3⟩ := bind_eq_ok.mp resolved2
  obtain ⟨withKeys, keysDone, resolved4⟩ := bind_eq_ok.mp resolved3
  obtain ⟨withIndexes, indexesDone, resolved5⟩ := bind_eq_ok.mp resolved4
  obtain ⟨withGraphs, graphsDone, hypersDone⟩ := bind_eq_ok.mp resolved5
  clear resolved1 resolved2 resolved3 resolved4 resolved5
  -- Each round adds the handle of one declaration, for the id its name is known by.
  have roles := foldlM_ok
    (fun done bound => bound.Resolves current.view.catalog ⟨done, [], [], [], [], [], []⟩)
    (fun _ before ran => by
      obtain ⟨id, found, same⟩ := bind_eq_ok.mp ran
      cases same
      exact before.role (known_ok.mp found))
    .empty rolesDone
  have labels := foldlM_ok
    (fun done bound => bound.Resolves current.view.catalog ⟨schema.roles, done, [], [], [], [], []⟩)
    (fun _ before ran => by
      obtain ⟨id, found, same⟩ := bind_eq_ok.mp ran
      cases same
      exact before.label (known_ok.mp found))
    roles labelsDone
  have types := foldlM_ok
    (fun done bound => bound.Resolves current.view.catalog
      ⟨schema.roles, schema.labels, done, [], [], [], []⟩)
    (fun _ before ran => by
      obtain ⟨id, found, same⟩ := bind_eq_ok.mp ran
      cases same
      exact before.relationType (known_ok.mp found))
    labels typesDone
  have keys := foldlM_ok
    (fun done bound => bound.Resolves current.view.catalog
      ⟨schema.roles, schema.labels, schema.relationTypes, done, [], [], []⟩)
    (fun _ before ran => by
      obtain ⟨id, found, same⟩ := bind_eq_ok.mp ran
      cases same
      exact before.key (known_ok.mp found))
    types keysDone
  have indexes := foldlM_ok
    (fun done bound => bound.Resolves current.view.catalog
      ⟨schema.roles, schema.labels, schema.relationTypes, schema.keys, done, [], []⟩)
    (fun _ before ran => by
      obtain ⟨⟨key, valueType⟩, keyed, rest⟩ := bind_eq_ok.mp ran
      obtain ⟨id, found, same⟩ := bind_eq_ok.mp rest
      cases same
      exact before.equalityIndex (Writer.resolve_ok.mp keyed) (known_ok.mp found))
    keys indexesDone
  have graphs := foldlM_ok
    (fun done bound => bound.Resolves current.view.catalog
      { schema with graphProjections := done, hypergraphProjections := [] })
    (fun _ before ran => by
      obtain ⟨id, found, same⟩ := bind_eq_ok.mp ran
      cases same
      exact before.graph (known_ok.mp found))
    indexes graphsDone
  exact foldlM_ok
    (fun done bound => bound.Resolves current.view.catalog
      { schema with hypergraphProjections := done })
    (fun _ before ran => by
      obtain ⟨id, found, same⟩ := bind_eq_ok.mp ran
      cases same
      exact before.hypergraph (known_ok.mp found))
    graphs hypersDone

end Oxgraph
