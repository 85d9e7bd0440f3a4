import Oxgraph.Proofs.Db.Database.Schema

/-! Applying a schema settles: applied again, it returns the same handles and registers nothing. -/

namespace Oxgraph

namespace Writer

/-- A writer's catalog has grown past another's. -/
def Beyond (later earlier : Writer) : Prop := later.merged.catalog.Grows earlier.merged.catalog

/-- From every writer whose catalog has grown past its own, a mutator returns the same again. -/
abbrev Settles {T : Type} (mutator : Mutation DbError Writer T) : Prop :=
  Mutation.Settles (fun writer : Writer => writer.merged.Sound) Beyond mutator

theorem Beyond.trans {later middle earlier : Writer} (after : later.Beyond middle)
    (before : middle.Beyond earlier) : later.Beyond earlier :=
  Catalog.Grows.trans before after

/-- A guarded mutator keeps its view sound and only lets the catalog grow. -/
theorem Guarded.moves {T : Type} {mutator : Mutation DbError Writer T} (guarded : Guarded mutator) :
    Mutation.Moves (fun writer : Writer => writer.merged.Sound) Beyond mutator := by
  intro start value after sound done
  have advances := guarded.advances sound done
  exact ⟨advances.sound, advances.grows⟩

theorem pure_guarded {T : Type} (value : T) : Guarded (pure value) := fun _ => .pure value

theorem foldlM_guarded {T U : Type} {round : U → T → Mutation DbError Writer U}
    (guarded : ∀ value item, Guarded (round value item)) (items : List T) (initial : U) :
    Guarded (items.foldlM round initial) :=
  fun _ => .foldlM items initial fun item _ value => guarded value item

theorem bind_guarded {T U : Type} {first : Mutation DbError Writer T}
    {next : T → Mutation DbError Writer U} (before : Guarded first)
    (after : ∀ value, Guarded (next value)) : Guarded (first >>= next) :=
  fun writer => .bind (before writer) fun value state _ => after value state

/-- A sequence of guarded mutators settles when its parts do. -/
theorem Settles.bind {T U : Type} {first : Mutation DbError Writer T}
    {next : T → Mutation DbError Writer U} (before : Settles first) (guarded : Guarded first)
    (after : ∀ value, Settles (next value)) (guardedNext : ∀ value, Guarded (next value)) :
    Settles (first >>= next) :=
  Mutation.Settles.bind Beyond.trans before guarded.moves after fun value =>
    (guardedNext value).moves

/-- A fold of guarded rounds settles when its rounds do. -/
theorem Settles.foldlM {T U : Type} {round : U → T → Mutation DbError Writer U}
    (each : ∀ value item, Settles (round value item))
    (guarded : ∀ value item, Guarded (round value item)) (items : List T) (initial : U) :
    Settles (items.foldlM round initial) :=
  @Mutation.Settles.foldlM DbError Writer T U _ Beyond round Beyond.trans each
    (fun value item => (guarded value item).moves)
    (fun items value => (foldlM_guarded guarded items value).moves) items initial

/-- Taking or registering a name settles once the name is bound. -/
theorem getOr_settles {Id : Type} {lookup : Catalog → Option Id} {make : Mutation DbError Writer Id}
    (grows : ∀ {later earlier : Catalog} {id}, later.Grows earlier → lookup earlier = some id →
      lookup later = some id)
    (makes : ∀ {writer after : Writer} {id}, make writer = (.ok id, after) →
      lookup after.merged.catalog = some id) : Settles (getOr lookup make) := by
  intro writer id after _ done later beyond
  -- Found or registered, the name is bound in what the first run leaves.
  have bound : lookup after.merged.catalog = some id := by
    rcases getOr_ok done with ⟨found, rfl⟩ | ⟨_, made⟩
    · exact found
    · exact makes made
  unfold getOr
  rw [Mutation.bind_apply, Mutation.read]
  simp only [grows beyond bound]
  rfl

/-- So does a round that binds the handle of the name. -/
theorem getOr_bind_settles {Id T : Type} {lookup : Catalog → Option Id}
    {make : Mutation DbError Writer Id}
    (grows : ∀ {later earlier : Catalog} {id}, later.Grows earlier → lookup earlier = some id →
      lookup later = some id)
    (guarded : Guarded make)
    (makes : ∀ {writer after : Writer} {id}, make writer = (.ok id, after) →
      lookup after.merged.catalog = some id) (handle : Id → T) :
    Settles (getOr lookup make >>= fun id => pure (handle id)) :=
  .bind (getOr_settles grows makes) (getOr_guarded guarded) (fun _ => .pure _) fun _ =>
    pure_guarded _

-- The rounds of applying a schema.

theorem bindRole_settles (bound : Bound) (name : String) : Settles (bindRole bound name) := by
  refine getOr_bind_settles (fun grows found => grows.roles.names found)
    (registerRole_guarded name) ?_ _
  intro writer after id made
  exact (NameTable.stored Catalog.roles (onDelta_register_ok made).2 fun _ => rfl).2.1

theorem bindLabel_settles (bound : Bound) (name : String) : Settles (bindLabel bound name) := by
  refine getOr_bind_settles (fun grows found => grows.labels.names found)
    (registerLabel_guarded name) ?_ _
  intro writer after id made
  exact (NameTable.stored Catalog.labels (onDelta_register_ok made).2 fun _ => rfl).2.1

theorem bindRelationType_settles (bound : Bound) (name : String) :
    Settles (bindRelationType bound name) := by
  refine getOr_bind_settles (fun grows found => grows.relationTypes.names found)
    (registerRelationType_guarded name) ?_ _
  intro writer after id made
  exact (NameTable.stored Catalog.relationTypes (onDelta_register_ok made).2 fun _ => rfl).2.1

/-- A key that is bound with the declared shape is taken again. -/
theorem bindKey_settles (bound : Bound) (key : String × PropertyFamily × PropertyType) :
    Settles (bindKey bound key) := by
  intro writer next after sound done later beyond
  obtain ⟨id, rfl, named, read, _⟩ := bindKey_ok sound done
  have namedStill : later.merged.catalog.propertyKeyId key.1 = some id :=
    beyond.propertyKeys.names named
  have readStill : later.merged.catalog.propertyKey id = some ⟨id, key.1, key.2.1, key.2.2⟩ :=
    beyond.propertyKeys.entries read
  unfold bindKey
  refine Mutation.bind_ok.mpr ⟨id, later, ?_, rfl⟩
  -- The key is found under its name, and its shape passes the check.
  unfold registerKeyOrGet
  rw [Mutation.bind_apply, Mutation.read]
  simp only [namedStill, readStill]
  rfl

theorem bindEqualityIndex_settles (bound : Bound) (declared : String × String) :
    Settles (bindEqualityIndex bound declared) := by
  refine .bind (.lift _) (fun _ => .lift _) (fun key => ?_) fun key => ?_
  · refine getOr_bind_settles (fun grows found => grows.indexes.names found)
      (defineIndex_guarded _ _) ?_ _
    intro writer after id made
    exact (NameTable.stored Catalog.indexes (defineIndex_ok made).2 fun _ => rfl).2.1
  · exact bind_guarded (getOr_guarded (defineIndex_guarded _ _)) fun _ => pure_guarded _

/-- A defined projection is bound under its name. -/
theorem defineProjection_names {writer after : Writer} {definition : ProjectionDefinition}
    {id : ProjectionId} (defined : defineProjection definition writer = (.ok id, after)) :
    after.merged.catalog.projectionId definition.name = some id :=
  (NameTable.stored Catalog.projections (defineProjection_ok defined).2 fun _ => rfl).2.1

theorem bindGraphProjection_settles (bound : Bound) (spec : GraphProjectionSpec) :
    Settles (bindGraphProjection bound spec) := by
  refine getOr_bind_settles (fun grows found => grows.projections.names found)
    (defineGraphProjection_guarded spec bound) ?_ _
  intro writer after id made
  -- The names are resolved before the definition, which is the one to register.
  obtain ⟨_, first, typesLifted, afterTypes⟩ := Mutation.bind_ok.mp made
  obtain ⟨_, second, sourceLifted, afterSource⟩ := Mutation.bind_ok.mp afterTypes
  obtain ⟨_, third, targetLifted, defined⟩ := Mutation.bind_ok.mp afterSource
  exact defineProjection_names defined

theorem bindHypergraphProjection_settles (bound : Bound) (spec : HypergraphProjectionSpec) :
    Settles (bindHypergraphProjection bound spec) := by
  refine getOr_bind_settles (fun grows found => grows.projections.names found)
    (defineHypergraphProjection_guarded spec bound) ?_ _
  intro writer after id made
  obtain ⟨_, first, typesLifted, afterTypes⟩ := Mutation.bind_ok.mp made
  obtain ⟨_, second, sourcesLifted, afterSources⟩ := Mutation.bind_ok.mp afterTypes
  obtain ⟨_, third, targetsLifted, defined⟩ := Mutation.bind_ok.mp afterSources
  exact defineProjection_names defined

/-- A schema that has been applied is applied again with the same handles and no change. -/
theorem applySchema_settles (schema : Schema) : Settles (applySchema schema) := by
  have keys := foldlM_guarded bindKey_guarded schema.keys
  have indexes := foldlM_guarded bindEqualityIndex_guarded schema.equalityIndexes
  have graphs := foldlM_guarded bindGraphProjection_guarded schema.graphProjections
  have hypergraphs := foldlM_guarded bindHypergraphProjection_guarded schema.hypergraphProjections
  have types := foldlM_guarded bindRelationType_guarded schema.relationTypes
  have labels := foldlM_guarded bindLabel_guarded schema.labels
  -- Each stage is guarded, and so is what follows it.
  have afterIndexes (bound : Bound) := bind_guarded (graphs bound) hypergraphs
  have afterKeys (bound : Bound) := bind_guarded (indexes bound) afterIndexes
  have afterTypes (bound : Bound) := bind_guarded (keys bound) afterKeys
  have afterLabels (bound : Bound) := bind_guarded (types bound) afterTypes
  have afterRoles (bound : Bound) := bind_guarded (labels bound) afterLabels
  refine .bind (.foldlM bindRole_settles bindRole_guarded _ _)
    (foldlM_guarded bindRole_guarded _ _) (fun bound => ?_) afterRoles
  refine .bind (.foldlM bindLabel_settles bindLabel_guarded _ _) (labels bound)
    (fun bound => ?_) afterLabels
  refine .bind (.foldlM bindRelationType_settles bindRelationType_guarded _ _) (types bound)
    (fun bound => ?_) afterTypes
  refine .bind (.foldlM bindKey_settles bindKey_guarded _ _) (keys bound) (fun bound => ?_)
    afterKeys
  refine .bind (.foldlM bindEqualityIndex_settles bindEqualityIndex_guarded _ _) (indexes bound)
    (fun bound => ?_) afterIndexes
  refine .bind (.foldlM bindGraphProjection_settles bindGraphProjection_guarded _ _)
    (graphs bound) (fun bound => ?_) hypergraphs
  exact .foldlM bindHypergraphProjection_settles bindHypergraphProjection_guarded _ _

end Writer

end Oxgraph
