import Oxgraph.Proofs.Db.Database.Reconcile
import Oxgraph.Proofs.Db.Database.Schema

/-! When the handles of an applied or a bound schema match the catalog. -/

namespace Oxgraph

open List (mem_map)

/-- Names that resolve to a set of ids already registered resolved to it before. -/
theorem resolveAll_back {Entry : Type} [CatalogEntry Entry] {before after : NameTable Entry}
    (grows : after.Grows before) (wellFormed : before.WellFormed) (wider : after.WellFormed)
    {names : List String} {ids : BTreeSet UInt64}
    (registered : ∀ id ∈ ids, (before.entries[id]?).isSome)
    (resolved : Catalog.resolveAll (after.names[·]?) names = some ids) :
    Catalog.resolveAll (before.names[·]?) names = some ids := by
  obtain ⟨all, members⟩ := resolveAll_eq_some.mp resolved
  have back {name : String} (member : name ∈ names) {id : UInt64}
      (found : after.names[name]? = some id) : before.names[name]? = some id :=
    grows.name_of_entry wellFormed wider found (Std.ExtTreeMap.mem_iff_isSome_getElem?.mpr
      (registered id ((members id).mpr ⟨name, member, found⟩)))
  refine resolveAll_eq_some.mpr ⟨fun name member => ?_, fun id => ?_⟩
  · obtain ⟨id, found⟩ := Option.isSome_iff_exists.mp (all name member)
    rw [back member found]
    rfl
  · rw [members]
    constructor
    · intro ⟨name, member, found⟩
      exact ⟨name, member, back member found⟩
    · intro ⟨name, member, found⟩
      exact ⟨name, member, grows.names found⟩

namespace Catalog

variable {before after : Catalog}

/-- An index over a registered key is declared by the same declarations after growing. -/
theorem equalityOf_grows (grows : after.Grows before) (wellFormed : before.WellFormed)
    (wider : after.WellFormed) {declared : String × String} {definition : IndexDefinition}
    (registered : definition.Registered before) :
    after.equalityOf declared = some definition ↔ before.equalityOf declared = some definition := by
  constructor
  · intro stands
    obtain ⟨key, found, rfl⟩ := Option.map_eq_some_iff.mp stands
    have had := grows.propertyKeys.name_of_entry wellFormed.propertyKeys wider.propertyKeys found
      (Std.ExtTreeMap.mem_iff_isSome_getElem?.mpr registered)
    exact Option.map_eq_some_iff.mpr ⟨key, had, rfl⟩
  · intro stood
    obtain ⟨key, found, rfl⟩ := Option.map_eq_some_iff.mp stood
    exact Option.map_eq_some_iff.mpr ⟨key, grows.propertyKeys.names found, rfl⟩

variable {definition : ProjectionDefinition}

/-- A graph declaration stands for a definition when its names resolve to its ids. -/
theorem graphOf_eq_some {catalog : Catalog} {spec : GraphProjectionSpec} :
    catalog.graphOf spec = some definition ↔
      ∃ relationTypes sourceRole targetRole,
        resolveAll catalog.relationTypeId spec.relationTypes = some relationTypes ∧
          catalog.roleId spec.sourceRole = some sourceRole ∧
          catalog.roleId spec.targetRole = some targetRole ∧
          definition = .graph { name := spec.name, relationTypes, sourceRole, targetRole } := by
  simp only [graphOf, Option.bind_eq_bind, Option.bind_eq_some_iff, Option.pure_def,
    Option.some.injEq]
  constructor
  · rintro ⟨relationTypes, types, sourceRole, source, targetRole, target, rfl⟩
    exact ⟨relationTypes, sourceRole, targetRole, types, source, target, rfl⟩
  · rintro ⟨relationTypes, sourceRole, targetRole, types, source, target, rfl⟩
    exact ⟨relationTypes, types, sourceRole, source, targetRole, target, rfl⟩

/-- A hypergraph declaration stands for a definition when its names resolve to its ids. -/
theorem hypergraphOf_eq_some {catalog : Catalog} {spec : HypergraphProjectionSpec} :
    catalog.hypergraphOf spec = some definition ↔
      ∃ relationTypes sourceRoles targetRoles,
        resolveAll catalog.relationTypeId spec.relationTypes = some relationTypes ∧
          resolveAll catalog.roleId spec.sourceRoles = some sourceRoles ∧
          resolveAll catalog.roleId spec.targetRoles = some targetRoles ∧
          definition =
            .hypergraph { name := spec.name, relationTypes, sourceRoles, targetRoles } := by
  simp only [hypergraphOf, Option.bind_eq_bind, Option.bind_eq_some_iff, Option.pure_def,
    Option.some.injEq]
  constructor
  · rintro ⟨relationTypes, types, sourceRoles, sources, targetRoles, targets, rfl⟩
    exact ⟨relationTypes, sourceRoles, targetRoles, types, sources, targets, rfl⟩
  · rintro ⟨relationTypes, sourceRoles, targetRoles, types, sources, targets, rfl⟩
    exact ⟨relationTypes, types, sourceRoles, sources, targetRoles, targets, rfl⟩

/-- A graph projection of registered ids is declared by the same declarations after growing. -/
theorem graphOf_grows (grows : after.Grows before) (wellFormed : before.WellFormed)
    (wider : after.WellFormed) {spec : GraphProjectionSpec}
    (registered : definition.Registered before) :
    after.graphOf spec = some definition ↔ before.graphOf spec = some definition := by
  rw [graphOf_eq_some, graphOf_eq_some]
  constructor
  · rintro ⟨relationTypes, sourceRole, targetRole, types, source, target, rfl⟩
    obtain ⟨sourceThere, targetThere, typesThere⟩ := registered
    refine ⟨relationTypes, sourceRole, targetRole, ?_, ?_, ?_, rfl⟩
    · exact resolveAll_back grows.relationTypes wellFormed.relationTypes wider.relationTypes
        typesThere types
    · exact grows.roles.name_of_entry wellFormed.roles wider.roles source
        (Std.ExtTreeMap.mem_iff_isSome_getElem?.mpr sourceThere)
    · exact grows.roles.name_of_entry wellFormed.roles wider.roles target
        (Std.ExtTreeMap.mem_iff_isSome_getElem?.mpr targetThere)
  · rintro ⟨relationTypes, sourceRole, targetRole, types, source, target, rfl⟩
    exact ⟨relationTypes, sourceRole, targetRole,
      resolveAll_mono (fun found => grows.relationTypes.names found) types,
      grows.roles.names source, grows.roles.names target, rfl⟩

/-- A hypergraph projection of registered ids is declared by the same declarations later. -/
theorem hypergraphOf_grows (grows : after.Grows before) (wellFormed : before.WellFormed)
    (wider : after.WellFormed) {spec : HypergraphProjectionSpec}
    (registered : definition.Registered before) :
    after.hypergraphOf spec = some definition ↔ before.hypergraphOf spec = some definition := by
  rw [hypergraphOf_eq_some, hypergraphOf_eq_some]
  constructor
  · rintro ⟨relationTypes, sourceRoles, targetRoles, types, sources, targets, rfl⟩
    obtain ⟨sourcesThere, targetsThere, typesThere⟩ := registered
    refine ⟨relationTypes, sourceRoles, targetRoles, ?_, ?_, ?_, rfl⟩
    · exact resolveAll_back grows.relationTypes wellFormed.relationTypes wider.relationTypes
        typesThere types
    · exact resolveAll_back grows.roles wellFormed.roles wider.roles sourcesThere sources
    · exact resolveAll_back grows.roles wellFormed.roles wider.roles targetsThere targets
  · rintro ⟨relationTypes, sourceRoles, targetRoles, types, sources, targets, rfl⟩
    exact ⟨relationTypes, sourceRoles, targetRoles,
      resolveAll_mono (fun found => grows.relationTypes.names found) types,
      resolveAll_mono (fun found => grows.roles.names found) sources,
      resolveAll_mono (fun found => grows.roles.names found) targets, rfl⟩

variable {catalog : Catalog}

/-- Declarations that stand for one index are over one key. -/
theorem WellFormed.equalityOf_unique (wellFormed : catalog.WellFormed) {left right : String × String}
    {definition : IndexDefinition} (first : catalog.equalityOf left = some definition)
    (second : catalog.equalityOf right = some definition) : left.2 = right.2 := by
  obtain ⟨key, leftKey, rfl⟩ := Option.map_eq_some_iff.mp first
  obtain ⟨_, rightKey, shared⟩ := Option.map_eq_some_iff.mp second
  cases shared
  exact wellFormed.propertyKeys.name_unique leftKey rightKey

/-- Declarations that stand for one graph projection name the same roles and relation types. -/
theorem WellFormed.graphOf_unique (wellFormed : catalog.WellFormed)
    {left right : GraphProjectionSpec} (first : catalog.graphOf left = some definition)
    (second : catalog.graphOf right = some definition) :
    left.sourceRole = right.sourceRole ∧ left.targetRole = right.targetRole ∧
      SameNames left.relationTypes right.relationTypes := by
  obtain ⟨types, source, target, leftTypes, leftSource, leftTarget, rfl⟩ := graphOf_eq_some.mp first
  obtain ⟨_, _, _, rightTypes, rightSource, rightTarget, shared⟩ := graphOf_eq_some.mp second
  simp only [ProjectionDefinition.graph.injEq, GraphProjectionDefinition.mk.injEq] at shared
  obtain ⟨_, rfl, rfl, rfl⟩ := shared
  exact ⟨wellFormed.roles.name_unique leftSource rightSource,
    wellFormed.roles.name_unique leftTarget rightTarget,
    sameNames_of_resolveAll wellFormed.relationTypes.name_unique leftTypes rightTypes⟩

/-- Declarations that stand for one hypergraph projection name the same roles and types. -/
theorem WellFormed.hypergraphOf_unique (wellFormed : catalog.WellFormed)
    {left right : HypergraphProjectionSpec} (first : catalog.hypergraphOf left = some definition)
    (second : catalog.hypergraphOf right = some definition) :
    SameNames left.sourceRoles right.sourceRoles ∧ SameNames left.targetRoles right.targetRoles ∧
      SameNames left.relationTypes right.relationTypes := by
  obtain ⟨types, sources, targets, leftTypes, leftSources, leftTargets, rfl⟩ :=
    hypergraphOf_eq_some.mp first
  obtain ⟨_, _, _, rightTypes, rightSources, rightTargets, shared⟩ := hypergraphOf_eq_some.mp second
  simp only [ProjectionDefinition.hypergraph.injEq,
    HypergraphProjectionDefinition.mk.injEq] at shared
  obtain ⟨_, rfl, rfl, rfl⟩ := shared
  exact ⟨sameNames_of_resolveAll wellFormed.roles.name_unique leftSources rightSources,
    sameNames_of_resolveAll wellFormed.roles.name_unique leftTargets rightTargets,
    sameNames_of_resolveAll wellFormed.relationTypes.name_unique leftTypes rightTypes⟩

/-- No definition is both of a graph and of a hypergraph. -/
theorem graphOf_ne_hypergraphOf {graph : GraphProjectionSpec} {hyper : HypergraphProjectionSpec}
    (first : catalog.graphOf graph = some definition)
    (second : catalog.hypergraphOf hyper = some definition) : False := by
  obtain ⟨_, _, _, _, _, _, rfl⟩ := graphOf_eq_some.mp first
  obtain ⟨_, _, _, _, _, _, mixed⟩ := hypergraphOf_eq_some.mp second
  cases mixed

/-- What a graph declaration stands for is read off its name, its roles and its types. -/
theorem graphOf_congr {left right : GraphProjectionSpec} (name : left.name = right.name)
    (same : left.sourceRole = right.sourceRole ∧ left.targetRole = right.targetRole ∧
      SameNames left.relationTypes right.relationTypes) :
    catalog.graphOf left = catalog.graphOf right := by
  obtain ⟨source, target, types⟩ := same
  unfold graphOf
  rw [name, source, target, resolveAll_congr types]

/-- What a hypergraph declaration stands for is read off its name, its roles and its types. -/
theorem hypergraphOf_congr {left right : HypergraphProjectionSpec} (name : left.name = right.name)
    (same : SameNames left.sourceRoles right.sourceRoles ∧
      SameNames left.targetRoles right.targetRoles ∧
      SameNames left.relationTypes right.relationTypes) :
    catalog.hypergraphOf left = catalog.hypergraphOf right := by
  obtain ⟨sources, targets, types⟩ := same
  unfold hypergraphOf
  rw [name, resolveAll_congr sources, resolveAll_congr targets, resolveAll_congr types]

end Catalog

namespace Bound.Resolves

variable {bound : Bound} {catalog : Catalog} {schema : Schema}

/-- The key handles match exactly when the declared keys are of the shapes in the catalog. -/
theorem keys_iff (resolves : bound.Resolves catalog schema) (wellFormed : catalog.WellFormed) :
    (∀ key ∈ schema.keys, ∃ id, bound.keys[key.1]? = some (id, key.2.2) ∧
      catalog.propertyKey id = some ⟨id, key.1, key.2.1, key.2.2⟩) ↔ schema.KeysAgree catalog := by
  constructor
  · intro handles key member definition named
    obtain ⟨id, bound, read⟩ := handles key member
    obtain ⟨_, known, _⟩ := resolves.keys.fits bound
    obtain ⟨entry, present, _, _, again⟩ := wellFormed.propertyKeys.entry_of_name known
    cases again.symm.trans named
    cases present.symm.trans read
    exact ⟨rfl, rfl⟩
  · intro agree key member
    obtain ⟨⟨id, valueType⟩, bound⟩ :=
      resolves.keys.bound key.1 (mem_map.mpr ⟨key, member, rfl⟩)
    obtain ⟨_, known, family, declared⟩ := resolves.keys.fits bound
    obtain ⟨definition, present, own, called, named⟩ :=
      wellFormed.propertyKeys.entry_of_name known
    -- The handle has the value type of some declaration of the name, hence of the key itself.
    obtain ⟨sameFamily, sameType⟩ := agree key member definition named
    obtain ⟨_, otherType⟩ := agree _ declared definition named
    have typed : valueType = key.2.2 := otherType.symm.trans sameType
    refine ⟨id, typed ▸ bound, present.trans (congrArg some ?_)⟩
    cases definition
    cases own
    cases called
    cases sameFamily
    cases sameType
    rfl

/-- A projection handle leads to what the catalog has under its name. -/
theorem projection_iff (resolves : bound.Resolves catalog schema) (wellFormed : catalog.WellFormed)
    {name : String} (declared : name ∈ schema.graphProjections.map GraphProjectionSpec.name ++
      schema.hypergraphProjections.map HypergraphProjectionSpec.name)
    {wants : Option ProjectionDefinition} :
    (∃ id definition, bound.projections[name]? = some id ∧
      catalog.projection id = some ⟨id, definition⟩ ∧ wants = some definition) ↔
      catalog.projectionNamed name = wants := by
  obtain ⟨id, found⟩ := resolves.projections.bound name declared
  obtain ⟨_, known⟩ := resolves.projections.fits found
  obtain ⟨⟨_, definition⟩, present, rfl, _, named⟩ := wellFormed.projections.entry_of_name known
  have holds : catalog.projectionNamed name = some definition := by
    unfold Catalog.projectionNamed
    rw [named]
    rfl
  constructor
  · rintro ⟨again, other, foundAgain, read, wanted⟩
    cases found.symm.trans foundAgain
    cases present.symm.trans read
    rw [holds, wanted]
  · intro wanted
    exact ⟨_, definition, found, present, wanted.symm.trans holds⟩

/-- The index handles match exactly when the declared indexes are those in the catalog. -/
theorem indexes_iff (resolves : bound.Resolves catalog schema) (wellFormed : catalog.WellFormed) :
    (∀ declared ∈ schema.equalityIndexes, ∃ id key valueType,
      bound.equalityIndexes[declared.1]? = some (id, valueType) ∧
        bound.keys[declared.2]? = some (key, valueType) ∧
        catalog.index id = some ⟨id, declared.1, .propertyEquality key⟩) ↔
      ∀ declared ∈ schema.equalityIndexes,
        catalog.indexNamed declared.1 = catalog.equalityOf declared := by
  constructor
  · intro handles declared member
    obtain ⟨id, key, valueType, bound, keyed, read⟩ := handles declared member
    obtain ⟨_, known, _⟩ := resolves.equalityIndexes.fits bound
    obtain ⟨_, keyKnown, _⟩ := resolves.keys.fits keyed
    obtain ⟨entry, present, _, _, named⟩ := wellFormed.indexes.entry_of_name known
    cases present.symm.trans read
    unfold Catalog.indexNamed Catalog.equalityOf
    rw [named, keyKnown]
    rfl
  · intro stand declared member
    obtain ⟨⟨id, valueType⟩, found⟩ :=
      resolves.equalityIndexes.bound declared.1 (mem_map.mpr ⟨declared, member, rfl⟩)
    obtain ⟨_, known, keyName, key, last, keyed⟩ := resolves.equalityIndexes.fits found
    obtain ⟨_, keyKnown, _⟩ := resolves.keys.fits keyed
    obtain ⟨⟨_, _, definition⟩, present, own, called, named⟩ :=
      wellFormed.indexes.entry_of_name known
    have holds : catalog.indexNamed declared.1 = some definition := by
      unfold Catalog.indexNamed
      rw [named]
      rfl
    -- The declaration the handle comes from is over the same key: one id has one name.
    have lastStands : catalog.equalityOf (declared.1, keyName) = some (.propertyEquality key) :=
      Option.map_eq_some_iff.mpr ⟨key, keyKnown, rfl⟩
    have defined : definition = .propertyEquality key :=
      Option.some.inj (holds.symm.trans ((stand _ last).trans lastStands))
    obtain ⟨covered, coveredKnown, same⟩ :=
      Option.map_eq_some_iff.mp ((stand declared member).symm.trans holds)
    rw [defined] at same
    cases same
    have oneName : keyName = declared.2 :=
      wellFormed.propertyKeys.name_unique keyKnown coveredKnown
    refine ⟨id, key, valueType, found, oneName ▸ keyed, present.trans (congrArg some ?_)⟩
    cases own
    cases called
    rw [defined]

/-- The handles match exactly when each declaration stands for what the catalog has. -/
theorem matches_iff (resolves : bound.Resolves catalog schema) (wellFormed : catalog.WellFormed) :
    bound.Matches catalog schema ↔ schema.KeysAgree catalog ∧
      (∀ item ∈ schema.indexClaims catalog, catalog.indexNamed item.1 = item.2) ∧
      ∀ item ∈ schema.projectionClaims catalog, catalog.projectionNamed item.1 = item.2 := by
  have indexes : (∀ item ∈ schema.indexClaims catalog, catalog.indexNamed item.1 = item.2) ↔
      ∀ declared ∈ schema.equalityIndexes,
        catalog.indexNamed declared.1 = catalog.equalityOf declared := by
    unfold Schema.indexClaims
    rw [List.forall_mem_map]
  have projections :
      (∀ item ∈ schema.projectionClaims catalog, catalog.projectionNamed item.1 = item.2) ↔
        (∀ spec ∈ schema.graphProjections,
          catalog.projectionNamed spec.name = catalog.graphOf spec) ∧
        ∀ spec ∈ schema.hypergraphProjections,
          catalog.projectionNamed spec.name = catalog.hypergraphOf spec := by
    unfold Schema.projectionClaims
    rw [List.forall_mem_append, List.forall_mem_map, List.forall_mem_map]
  rw [← resolves.keys_iff wellFormed, indexes, projections, ← resolves.indexes_iff wellFormed]
  have graph {spec} (member : spec ∈ schema.graphProjections) :
      spec.name ∈ schema.graphProjections.map GraphProjectionSpec.name ++
        schema.hypergraphProjections.map HypergraphProjectionSpec.name :=
    List.mem_append_left _ (mem_map.mpr ⟨spec, member, rfl⟩)
  have hyper {spec} (member : spec ∈ schema.hypergraphProjections) :
      spec.name ∈ schema.graphProjections.map GraphProjectionSpec.name ++
        schema.hypergraphProjections.map HypergraphProjectionSpec.name :=
    List.mem_append_right _ (mem_map.mpr ⟨spec, member, rfl⟩)
  constructor
  · intro handles
    exact ⟨handles.keys, handles.equalityIndexes,
      fun spec member => (resolves.projection_iff wellFormed (graph member)).mp
        (handles.graphProjections spec member),
      fun spec member => (resolves.projection_iff wellFormed (hyper member)).mp
        (handles.hypergraphProjections spec member)⟩
  · rintro ⟨keys, equality, graphs, hypers⟩
    refine ⟨?_, ?_, ?_, keys, equality, ?_, ?_⟩
    -- Roles, labels and relation types have no shape beyond their name.
    · intro name member
      obtain ⟨id, found⟩ := resolves.roles.bound name member
      obtain ⟨⟨_, _⟩, present, rfl, rfl, _⟩ :=
        wellFormed.roles.entry_of_name (resolves.roles.fits found).2
      exact ⟨_, found, present⟩
    · intro name member
      obtain ⟨id, found⟩ := resolves.labels.bound name member
      obtain ⟨⟨_, _⟩, present, rfl, rfl, _⟩ :=
        wellFormed.labels.entry_of_name (resolves.labels.fits found).2
      exact ⟨_, found, present⟩
    · intro name member
      obtain ⟨id, found⟩ := resolves.relationTypes.bound name member
      obtain ⟨⟨_, _⟩, present, rfl, rfl, _⟩ :=
        wellFormed.relationTypes.entry_of_name (resolves.relationTypes.fits found).2
      exact ⟨_, found, present⟩
    · exact fun spec member =>
        (resolves.projection_iff wellFormed (graph member)).mpr (graphs spec member)
    · exact fun spec member =>
        (resolves.projection_iff wellFormed (hyper member)).mpr (hypers spec member)

/-- A declared index name has an index. -/
theorem index_claimed (resolves : bound.Resolves catalog schema) (wellFormed : catalog.WellFormed)
    {item : String × Option IndexDefinition} (member : item ∈ schema.indexClaims catalog) :
    (catalog.indexNamed item.1).isSome := by
  obtain ⟨declared, declaredMember, rfl⟩ := mem_map.mp member
  obtain ⟨handle, found⟩ := resolves.equalityIndexes.bound declared.1
    (mem_map.mpr ⟨declared, declaredMember, rfl⟩)
  obtain ⟨_, known, _⟩ := resolves.equalityIndexes.fits found
  obtain ⟨_, _, _, _, named⟩ := wellFormed.indexes.entry_of_name known
  unfold Catalog.indexNamed
  rw [named]
  rfl

/-- A declared projection name has a projection. -/
theorem projection_claimed (resolves : bound.Resolves catalog schema)
    (wellFormed : catalog.WellFormed) {item : String × Option ProjectionDefinition}
    (member : item ∈ schema.projectionClaims catalog) :
    (catalog.projectionNamed item.1).isSome := by
  have declared : item.1 ∈ schema.graphProjections.map GraphProjectionSpec.name ++
      schema.hypergraphProjections.map HypergraphProjectionSpec.name := by
    rcases List.mem_append.mp member with graph | hyper
    · obtain ⟨spec, specMember, rfl⟩ := mem_map.mp graph
      exact List.mem_append_left _ (mem_map.mpr ⟨spec, specMember, rfl⟩)
    · obtain ⟨spec, specMember, rfl⟩ := mem_map.mp hyper
      exact List.mem_append_right _ (mem_map.mpr ⟨spec, specMember, rfl⟩)
  obtain ⟨handle, found⟩ := resolves.projections.bound item.1 declared
  obtain ⟨_, known⟩ := resolves.projections.fits found
  obtain ⟨_, _, _, _, named⟩ := wellFormed.projections.entry_of_name known
  unfold Catalog.projectionNamed
  rw [named]
  rfl

end Bound.Resolves

/-- Definitions found under a name refer to what the catalog registers. -/
theorem Catalog.Closed.named {catalog : Catalog} (closed : catalog.Closed) {name : String} :
    (∀ {definition}, catalog.indexNamed name = some definition →
      definition.Registered catalog) ∧
    ∀ {definition}, catalog.projectionNamed name = some definition →
      definition.Registered catalog := by
  constructor
  · intro definition found
    obtain ⟨entry, named, rfl⟩ := Option.map_eq_some_iff.mp found
    obtain ⟨id, _, present⟩ := Option.bind_eq_some_iff.mp named
    exact closed.indexes present
  · intro definition found
    obtain ⟨entry, named, rfl⟩ := Option.map_eq_some_iff.mp found
    obtain ⟨id, _, present⟩ := Option.bind_eq_some_iff.mp named
    exact closed.projections present

/--
Handles that were claimed in order match exactly when nothing conflicts.

The handles resolve in a catalog that grew from another one by claiming the declared names.
-/
theorem Bound.Resolves.matches_iff_compatible {bound : Bound} {before after : Catalog}
    {schema : Schema} (resolves : bound.Resolves after schema) (closed : before.Closed)
    (grows : after.Grows before) (wellFormed : before.WellFormed) (wider : after.WellFormed)
    (indexes : after.indexNamed = claimAll before.indexNamed (schema.indexClaims after))
    (projections :
      after.projectionNamed = claimAll before.projectionNamed (schema.projectionClaims after)) :
    bound.Matches after schema ↔ schema.KeysAgree after ∧ schema.Compatible before := by
  rw [resolves.matches_iff wider]
  refine and_congr_right fun _ => ?_
  have equality {declared} (member : declared ∈ schema.equalityIndexes) :
      (declared.1, after.equalityOf declared) ∈ schema.indexClaims after :=
    mem_map.mpr ⟨declared, member, rfl⟩
  have graph {spec} (member : spec ∈ schema.graphProjections) :
      (spec.name, after.graphOf spec) ∈ schema.projectionClaims after :=
    List.mem_append_left _ (mem_map.mpr ⟨spec, member, rfl⟩)
  have hyper {spec} (member : spec ∈ schema.hypergraphProjections) :
      (spec.name, after.hypergraphOf spec) ∈ schema.projectionClaims after :=
    List.mem_append_right _ (mem_map.mpr ⟨spec, member, rfl⟩)
  constructor
  · rintro ⟨indexed, projected⟩
    -- Every claim got what it wanted, so it wanted something.
    have wanted {item} (member : item ∈ schema.indexClaims after) : ∃ definition,
        item.2 = some definition :=
      Option.isSome_iff_exists.mp (indexed item member ▸ resolves.index_claimed wider member)
    have wantedProjection {item} (member : item ∈ schema.projectionClaims after) : ∃ definition,
        item.2 = some definition :=
      Option.isSome_iff_exists.mp (projected item member ▸ resolves.projection_claimed wider member)
    rw [indexes] at indexed
    rw [projections] at projected
    obtain ⟨takers, once⟩ := claimAll_agrees_iff.mp indexed
    obtain ⟨projectionTakers, projectionOnce⟩ := claimAll_agrees_iff.mp projected
    constructor
    case index =>
      intro declared member definition had
      exact (Catalog.equalityOf_grows grows wellFormed wider (closed.named.1 had)).mp
        (takers _ (equality member) _ had)
    case graph =>
      intro spec member definition had
      exact (Catalog.graphOf_grows grows wellFormed wider (closed.named.2 had)).mp
        (projectionTakers _ (graph member) _ had)
    case hypergraph =>
      intro spec member definition had
      exact (Catalog.hypergraphOf_grows grows wellFormed wider (closed.named.2 had)).mp
        (projectionTakers _ (hyper member) _ had)
    case indexOnce =>
      intro left leftMember right rightMember same
      obtain ⟨definition, stands⟩ := wanted (equality leftMember)
      have shared := once _ (equality leftMember) _ (equality rightMember) same
      exact wider.equalityOf_unique stands (shared.symm.trans stands)
    case graphOnce =>
      intro left leftMember right rightMember same
      obtain ⟨definition, stands⟩ := wantedProjection (graph leftMember)
      have shared := projectionOnce _ (graph leftMember) _ (graph rightMember) same
      exact wider.graphOf_unique stands (shared.symm.trans stands)
    case hypergraphOnce =>
      intro left leftMember right rightMember same
      obtain ⟨definition, stands⟩ := wantedProjection (hyper leftMember)
      have shared := projectionOnce _ (hyper leftMember) _ (hyper rightMember) same
      exact wider.hypergraphOf_unique stands (shared.symm.trans stands)
    case apart =>
      intro left leftMember right rightMember same
      obtain ⟨definition, stands⟩ := wantedProjection (graph leftMember)
      have shared := projectionOnce _ (graph leftMember) _ (hyper rightMember) same
      exact Catalog.graphOf_ne_hypergraphOf stands (shared.symm.trans stands)
  · intro compatible
    rw [indexes, projections]
    constructor
    · refine claimAll_agrees_iff.mpr ⟨?_, ?_⟩
      · intro item member taker had
        obtain ⟨declared, declaredMember, rfl⟩ := mem_map.mp member
        exact (Catalog.equalityOf_grows grows wellFormed wider (closed.named.1 had)).mpr
          (compatible.index declared declaredMember taker had)
      · intro left leftMember right rightMember same
        obtain ⟨one, oneMember, rfl⟩ := mem_map.mp leftMember
        obtain ⟨other, otherMember, rfl⟩ := mem_map.mp rightMember
        show after.equalityOf one = after.equalityOf other
        unfold Catalog.equalityOf
        rw [compatible.indexOnce one oneMember other otherMember same]
    · refine claimAll_agrees_iff.mpr ⟨?_, ?_⟩
      · intro item member taker had
        rcases List.mem_append.mp member with graph | hyper
        · obtain ⟨spec, specMember, rfl⟩ := mem_map.mp graph
          exact (Catalog.graphOf_grows grows wellFormed wider (closed.named.2 had)).mpr
            (compatible.graph spec specMember taker had)
        · obtain ⟨spec, specMember, rfl⟩ := mem_map.mp hyper
          exact (Catalog.hypergraphOf_grows grows wellFormed wider (closed.named.2 had)).mpr
            (compatible.hypergraph spec specMember taker had)
      · -- Two claims of one name are of one kind.
        intro left leftMember right rightMember same
        rcases List.mem_append.mp leftMember with leftGraph | leftHyper
        · obtain ⟨one, oneMember, rfl⟩ := mem_map.mp leftGraph
          rcases List.mem_append.mp rightMember with rightGraph | rightHyper
          · obtain ⟨other, otherMember, rfl⟩ := mem_map.mp rightGraph
            exact Catalog.graphOf_congr same
              (compatible.graphOnce one oneMember other otherMember same)
          · obtain ⟨other, otherMember, rfl⟩ := mem_map.mp rightHyper
            exact absurd same (compatible.apart one oneMember other otherMember)
        · obtain ⟨one, oneMember, rfl⟩ := mem_map.mp leftHyper
          rcases List.mem_append.mp rightMember with rightGraph | rightHyper
          · obtain ⟨other, otherMember, rfl⟩ := mem_map.mp rightGraph
            exact absurd same.symm (compatible.apart other otherMember one oneMember)
          · obtain ⟨other, otherMember, rfl⟩ := mem_map.mp rightHyper
            exact Catalog.hypergraphOf_congr same
              (compatible.hypergraphOnce one oneMember other otherMember same)

namespace Writer

variable {writer after : Writer} {current : Snapshot} {schema : Schema} {bound : Bound}

/-- The handles of an applied schema match exactly when the catalog before had no conflict. -/
theorem applySchema_matches_iff (sound : writer.merged.Sound)
    (closed : writer.merged.catalog.Closed)
    (applied : applySchema schema writer = (.ok bound, after)) :
    bound.Matches after.merged.catalog schema ↔ schema.Compatible writer.merged.catalog := by
  obtain ⟨advances, resolves, shaped, indexes, projections⟩ := applySchema_ok sound applied
  have wellFormed := sound.coherent.catalog
  have wider := advances.sound.coherent.catalog
  rw [resolves.matches_iff_compatible closed advances.grows wellFormed wider indexes projections]
  -- The keys were compared as they were bound.
  apply and_iff_right
  intro key member definition named
  obtain ⟨id, known, read⟩ := shaped key member
  obtain ⟨entry, present, _, _, found⟩ := wider.propertyKeys.entry_of_name known
  cases found.symm.trans named
  cases present.symm.trans read
  exact ⟨rfl, rfl⟩

/-- The handles of a bound schema match exactly when the catalog agrees with all it declares. -/
theorem bind_matches_iff (sound : current.view.Sound) (closed : current.view.catalog.Closed)
    (resolved : current.bind schema = .ok bound) :
    bound.Matches current.view.catalog schema ↔
      schema.KeysAgree current.view.catalog ∧ schema.Compatible current.view.catalog := by
  have resolves := Snapshot.bind_ok resolved
  have wellFormed := sound.coherent.catalog
  -- Every name was found, so none was claimed.
  apply resolves.matches_iff_compatible closed (.refl _) wellFormed wellFormed
  · exact (claimAll_settled fun _ member => resolves.index_claimed wellFormed member).symm
  · exact (claimAll_settled fun _ member => resolves.projection_claimed wellFormed member).symm

/--
The handles a schema is given match the catalog exactly when nothing it declares conflicts.

Applying compares the shapes of property keys only, and binding compares no shapes at all.
-/
theorem schema_handles_match (sound : writer.merged.Sound)
    (closed : writer.merged.catalog.Closed) (currentSound : current.view.Sound)
    (currentClosed : current.view.catalog.Closed) (schema : Schema) :
    (∀ bound after, applySchema schema writer = (.ok bound, after) →
      (bound.Matches after.merged.catalog schema ↔ schema.Compatible writer.merged.catalog)) ∧
    ∀ bound, current.bind schema = .ok bound →
      (bound.Matches current.view.catalog schema ↔
        schema.KeysAgree current.view.catalog ∧ schema.Compatible current.view.catalog) :=
  ⟨fun _ _ => applySchema_matches_iff sound closed,
    fun _ => bind_matches_iff currentSound currentClosed⟩

theorem indexedWriter_closed : indexedWriter.merged.catalog.Closed :=
  (@Step.grows _ indexedWriter (WriterOp.runAll_steps _ _) LayeredState.sound_empty).2
    Catalog.closed_empty

/-- A schema that declares the index of the store again, over the same key. -/
def sameIndex : Schema :=
  ⟨[], [], [], [("size", .element, .integer)], [("by_size", "size")], [], []⟩

/-- A schema that declares the index of the store over a key of its own. -/
def otherIndex : Schema :=
  ⟨[], [], [], [("name", .element, .text)], [("by_size", "name")], [], []⟩

/-- Declared over the same key, the index is handed out as what it is. -/
theorem indexedWriter_sameIndex : ∃ bound after,
    applySchema sameIndex indexedWriter = (.ok bound, after) ∧
      bound.Matches after.merged.catalog sameIndex := by
  obtain ⟨applies, _⟩ := @schema_handles_match indexedWriter indexedWriter.parent
    indexedWriter_sound indexedWriter_closed LayeredState.sound_empty Catalog.closed_empty sameIndex
  refine ⟨_, _, rfl, (applies _ _ rfl).mpr ?_⟩
  constructor
  · intro declared member definition named
    cases List.mem_singleton.mp member
    exact named
  · exact fun _ member => (nomatch member)
  · exact fun _ member => (nomatch member)
  · intro left leftMember right rightMember _
    cases List.mem_singleton.mp leftMember
    cases List.mem_singleton.mp rightMember
    rfl
  · exact fun _ member => (nomatch member)
  · exact fun _ member => (nomatch member)
  · exact fun _ member => (nomatch member)

/-- Declared over another key, the index is handed out with that key's value type. -/
theorem indexedWriter_otherIndex : indexedWriter.merged.Sound ∧ ∃ bound after,
    applySchema otherIndex indexedWriter = (.ok bound, after) ∧
      after.merged.catalog.index 1 = some ⟨1, "by_size", .propertyEquality 1⟩ ∧
      after.merged.catalog.propertyKey 1 = some ⟨1, "size", .element, .integer⟩ ∧
      bound.equalityIndexes["by_size"]? = some (1, .text) ∧
      ¬ bound.Matches after.merged.catalog otherIndex := by
  refine ⟨indexedWriter_sound, _, _, rfl, rfl, rfl, rfl, ?_⟩
  intro handles
  obtain ⟨id, key, valueType, found, keyed, read⟩ :=
    handles.equalityIndexes ("by_size", "name") List.mem_cons_self
  -- The declared key is the second one, and the index covers the first.
  cases found
  cases keyed
  cases read

end Writer

end Oxgraph
