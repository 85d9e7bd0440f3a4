import Oxgraph.Spec.Failure
import Oxgraph.Proofs.Db.Database.Reconcile

/-! A failed call leaves the writer as it was, or as the calls it had made left it. -/

namespace Oxgraph

open Mutation (bind_apply bind_error lift_ok)

/-- A registration is refused only for a name that its family has already. -/
theorem Registration.taken (entry : Registration) {catalog : Catalog} {error : CatalogError}
    (refused : entry.insert catalog = .error error) :
    catalog.Taken entry.name entry.handle.1 := by
  -- A family refuses an entry only when its name is bound.
  have bound {Entry : Type} [CatalogEntry Entry] {table : NameTable Entry} {added : Entry}
      {put : NameTable Entry → Catalog} (refused : (table.insert added).map put = .error error) :
      (table.names[CatalogEntry.name added]?).isSome := by
    unfold NameTable.insert NameTable.insertNamed at refused
    by_cases taken : CatalogEntry.name added ∈ table.names
    · exact Std.ExtTreeMap.mem_iff_isSome_getElem?.mp taken
    · rw [if_neg taken] at refused
      cases refused
  cases entry <;> exact bound refused

namespace Writer

variable {writer after : Writer} {error : DbError} {family : IdFamily}

/-- A registration draws its id and interns its entry before it finds the name taken. -/
theorem register_leaves {opKind flags : UInt32} {name : String} {body : Option (List UInt64)}
    {insert : UInt64 → Catalog → Except CatalogError Catalog}
    (taken : ∀ {id catalog error}, insert id catalog = .error error → catalog.Taken name family) :
    (onDelta (WriteOverlay.register family opKind flags name body insert)).Leaves
      (Unregistered family name) := by
  intro writer error after failed
  obtain ⟨delta, ran, rfl⟩ := Mutation.onPart_error failed
  rcases bind_error.mp ran with exhausted | ⟨id, first, drawn, rest⟩
  · rcases WriteOverlay.allocate_cases exhausted with ⟨_, rfl⟩ | ⟨never, _⟩
    · exact .inl rfl
    · cases never
  rcases WriteOverlay.allocate_cases drawn with ⟨never, _⟩ | ⟨_, next, fits, rfl⟩
  · cases never
  rcases bind_error.mp rest with never | ⟨words, second, interned, others⟩
  · unfold WriteOverlay.internEntry at never
    cases body <;> cases never
  rcases bind_error.mp others with refused | ⟨_, third, _, pushed⟩
  · unfold Mutation.attempt Overlay.registerEntry at refused
    cases inserted : insert id second.catalog with
    | ok catalog =>
      simp only [inserted, Except.map] at refused
      cases refused
    | error raised =>
      simp only [inserted, Except.map] at refused
      cases refused
      unfold WriteOverlay.internEntry at interned
      cases body with
      | none =>
        cases interned
        exact .inr ⟨taken inserted, next, [], fits, by rw [List.append_nil]⟩
      | some words =>
        cases interned
        -- The body follows the name in the blob.
        refine .inr ⟨taken inserted, next, arrayBytes words, fits, ?_⟩
        rw [← List.append_assoc]
  · cases pushed

/-- A registration that fails changes neither the contents nor the catalog, and logs no op. -/
theorem Unregistered.reads {name : String} {before : Writer}
    (failed : Unregistered family name after before) :
    after.merged.contents = before.merged.contents ∧
      after.merged.catalog = before.merged.catalog ∧
      after.delta.log.ops = before.delta.log.ops := by
  rcases failed with rfl | ⟨_, next, body, _, rfl⟩ <;> exact ⟨rfl, rfl, rfl⟩

/-- A create that fails has found its family exhausted, and changed nothing. -/
theorem create_leaves {T : Type} {next : UInt64 → Mutation DbError WriteOverlay T}
    (total : ∀ id {before error after}, next id before ≠ (.error error, after)) :
    (onDelta (WriteOverlay.allocate family >>= next)).Leaves Eq := by
  intro writer error after failed
  obtain ⟨delta, ran, rfl⟩ := Mutation.onPart_error failed
  rcases bind_error.mp ran with exhausted | ⟨id, middle, _, rest⟩
  · rcases WriteOverlay.allocate_cases exhausted with ⟨_, rfl⟩ | ⟨never, _⟩
    · rfl
    · cases never
  · exact absurd rest (total id)

theorem createElement_leaves : createElement.Leaves Eq :=
  create_leaves fun _ _ _ _ ran => (nomatch ran)

theorem createRelation_leaves : createRelation.Leaves Eq :=
  create_leaves fun _ _ _ _ ran => (nomatch ran)

theorem createIncidence_leaves (relation : RelationId) (element : ElementId) (role : RoleId) :
    (createIncidence relation element role).Leaves Eq :=
  .require_bind (fun _ => rfl) <| .require_bind (fun _ => rfl) <| .require_bind (fun _ => rfl) <|
    create_leaves fun _ _ _ _ ran => (nomatch ran)

theorem setRelationType_leaves (relation : RelationId) (relationType : RelationTypeId) :
    (setRelationType relation relationType).Leaves Eq :=
  .require_bind (fun _ => rfl) <| .require_bind (fun _ => rfl) <| .modify _

theorem requireSubject_leaves (subject : PropertySubject) : (requireSubject subject).Leaves Eq := by
  cases subject <;> exact .require (fun _ => rfl) _ _

/-- A subject that is found visible changes nothing. -/
theorem requireSubject_ok {subject : PropertySubject}
    (visible : requireSubject subject writer = (.ok (), after)) : after = writer := by
  unfold requireSubject at visible
  cases subject with
  | element id | relation id | incidence id =>
    simp only at visible
    exact (Mutation.require_ok.mp visible).2

theorem propertyKeyDefinition_leaves (key : PropertyKeyId) :
    (propertyKeyDefinition key).Leaves Eq := by
  apply Mutation.Leaves.read_bind
  intro state
  split
  · exact .fail (fun _ => rfl) _
  · exact .pure _

theorem setProperty_leaves (subject : PropertySubject) (key : PropertyKeyId)
    (value : PropertyValue) : (setProperty subject key value).Leaves Eq := by
  refine .bind requireSubject_ok (requireSubject_leaves subject) fun _ => ?_
  refine .bind (fun ran => (propertyKeyDefinition_ok ran).1) (propertyKeyDefinition_leaves key)
    fun definition => ?_
  -- Both checks come before the change.
  split
  · exact .fail (fun _ => rfl) _
  · split
    · exact .fail (fun _ => rfl) _
    · exact .modify _

theorem removeProperty_leaves (subject : PropertySubject) (key : PropertyKeyId) :
    (removeProperty subject key).Leaves Eq := by
  refine .bind requireSubject_ok (requireSubject_leaves subject) fun _ => ?_
  exact .require_bind (fun _ => rfl) (.modify _)

theorem addLabel_leaves (subject : PropertySubject) (label : LabelId) :
    (addLabel subject label).Leaves Eq := by
  cases subject with
  | element id | relation id =>
    exact .require_bind (fun _ => rfl) <| .require_bind (fun _ => rfl) <| .modify _
  | incidence id => exact .fail (fun _ => rfl) _

theorem tombstone_leaves (subject : PropertySubject) : (tombstone subject).Leaves Eq := by
  cases subject with
  | element id | relation id =>
    exact .require_bind (fun _ => rfl) <| .read_bind fun _ => .modify _
  | incidence id => exact .require_bind (fun _ => rfl) <| .modify _

theorem validateProjectionDefinition_leaves (definition : ProjectionDefinition) :
    (validateProjectionDefinition definition).Leaves Eq := by
  cases definition with
  | graph graph =>
    refine .require_bind (fun _ => rfl) <| .require_bind (fun _ => rfl) ?_
    exact .forM_require (fun _ => rfl) _ _ _
  | hypergraph hyper =>
    refine .bind (fun ran => (Mutation.forM_require_ok.mp ran).2)
      (.forM_require (fun _ => rfl) _ _ _) fun _ => ?_
    refine .bind (fun ran => (Mutation.forM_require_ok.mp ran).2)
      (.forM_require (fun _ => rfl) _ _ _) fun _ => ?_
    exact .forM_require (fun _ => rfl) _ _ _

theorem validateIndexDefinition_leaves (definition : IndexDefinition) :
    (validateIndexDefinition definition).Leaves Eq := by
  cases definition with
  | label | relationType | propertyEquality | propertyRange | projection =>
    exact .require (fun _ => rfl) _ _
  | compositeEquality keys =>
    unfold validateIndexDefinition
    simp only
    split
    · exact .fail (fun _ => rfl) _
    · exact .forM_require (fun _ => rfl) _ _ _

/-- What changes nothing leaves no registration half done. -/
theorem unregistered_of_eq {T : Type} {mutator : Mutation DbError Writer T}
    (leaves : mutator.Leaves Eq) (family : IdFamily) (name : String) :
    mutator.Leaves (Unregistered family name) := leaves.mono .inl

theorem registerRole_leaves (name : String) :
    (registerRole name).Leaves (Unregistered .role name) :=
  register_leaves fun {id _ _} refused => Registration.taken (.role id name) refused

theorem registerLabel_leaves (name : String) :
    (registerLabel name).Leaves (Unregistered .label name) :=
  register_leaves fun {id _ _} refused => Registration.taken (.label id name) refused

theorem registerRelationType_leaves (name : String) :
    (registerRelationType name).Leaves (Unregistered .relationType name) :=
  register_leaves fun {id _ _} refused => Registration.taken (.relationType id name) refused

theorem registerPropertyKey_leaves (name : String) (family : PropertyFamily)
    (valueType : PropertyType) :
    (registerPropertyKey name family valueType).Leaves (Unregistered .propertyKey name) :=
  register_leaves fun {id _ _} refused =>
    Registration.taken (.propertyKey ⟨id, name, family, valueType⟩) refused

theorem defineProjection_leaves (definition : ProjectionDefinition) :
    (defineProjection definition).Leaves (Unregistered .projection definition.name) :=
  .bind (fun ran => (validateProjectionDefinition_ok ran).2)
    (unregistered_of_eq (validateProjectionDefinition_leaves definition) _ _) fun _ =>
    register_leaves fun {id _ _} refused => Registration.taken (.projection id definition) refused

theorem defineIndex_leaves (name : String) (definition : IndexDefinition) :
    (defineIndex name definition).Leaves (Unregistered .index name) :=
  .bind (fun ran => (validateIndexDefinition_ok ran).2)
    (unregistered_of_eq (validateIndexDefinition_leaves definition) _ _) fun _ =>
    register_leaves fun {id _ _} refused => Registration.taken (.index id name definition) refused

/-- An equality-index lookup that fails, or that succeeds, changes nothing. -/
theorem equalityIndexKey_leaves (index : IndexId) : (equalityIndexKey index).Leaves Eq := by
  apply Mutation.Leaves.read_bind
  intro state
  split
  · exact .fail (fun _ => rfl) _
  · split
    · exact .pure _
    · exact .fail (fun _ => rfl) _

variable {index : IndexId}

/-- A key that an index is found to cover is the key of an equality index. -/
theorem of_equalityIndexKey_ok {key : PropertyKeyId}
    (found : equalityIndexKey index writer = (.ok key, after)) : after = writer ∧
      ∃ entry, writer.merged.catalog.index index = some entry ∧
        entry.definition = .propertyEquality key := by
  unfold equalityIndexKey at found
  rw [bind_apply, Mutation.read] at found
  cases present : writer.merged.catalog.index index with
  | none =>
    simp only [present] at found
    cases found
  | some entry =>
    simp only [present] at found
    cases covers : entry.definition with
    | propertyEquality covered =>
      simp only [covers] at found
      cases found
      exact ⟨rfl, entry, rfl, covers⟩
    | label | relationType | propertyRange | compositeEquality | projection =>
      simp only [covers] at found
      cases found

/-- A retain that fails has not found an equality index, and has pruned nothing. -/
theorem retain_leaves (sound : writer.merged.Sound) {keep : List PropertyValue}
    (failed : retain index keep writer = (.error error, after)) : after = writer := by
  rcases bind_error.mp failed with unfound | ⟨key, middle, found, _⟩
  · exact equalityIndexKey_leaves index _ _ _ unfound
  · -- Over an equality index every stale subject is there to be tombstoned.
    obtain ⟨_, entry, present, covers⟩ := of_equalityIndexKey_ok found
    obtain ⟨_, returned, _⟩ := retain_spec sound present covers keep
    cases failed.symm.trans returned

variable {op : WriterOp}

/-- A call whose result is dropped fails as the call does. -/
theorem run_error :
    op.run writer = (.error error, after) ↔ op.call writer = (.error error, after) := by
  refine bind_error.trans ⟨fun failed => ?_, .inl⟩
  exact failed.resolve_right fun ⟨_, _, _, never⟩ => (nomatch never)

/-- A call whose result is dropped succeeds as the call does. -/
theorem run_ok {value : op.Returns} (ran : op.call writer = (.ok value, after)) :
    op.run writer = (.ok (), after) :=
  Mutation.bind_ok.mpr ⟨value, after, ran, rfl⟩

theorem run_leaves (leaves : op.call.Leaves Eq) : op.run.Leaves Eq :=
  leaves.bind_pure _

/-- A single call that fails leaves the writer as it was, but for a registration. -/
theorem single_leaves (sound : writer.merged.Sound) (single : op.Single)
    (failed : op.run writer = (.error error, after)) : after = writer ∨
      ∃ family name, op.registers = some (family, name) ∧ Unregistered family name after writer := by
  rw [run_error] at failed
  cases op with
  | applySchema | upsertElement | upsertRelation => cases single
  | registerRole name => exact .inr ⟨_, _, rfl, registerRole_leaves name _ _ _ failed⟩
  | registerLabel name => exact .inr ⟨_, _, rfl, registerLabel_leaves name _ _ _ failed⟩
  | registerRelationType name =>
    exact .inr ⟨_, _, rfl, registerRelationType_leaves name _ _ _ failed⟩
  | registerPropertyKey name family valueType =>
    exact .inr ⟨_, _, rfl, registerPropertyKey_leaves name family valueType _ _ _ failed⟩
  | defineProjection definition =>
    exact .inr ⟨_, _, rfl, defineProjection_leaves definition _ _ _ failed⟩
  | defineIndex name definition =>
    exact .inr ⟨_, _, rfl, defineIndex_leaves name definition _ _ _ failed⟩
  | createElement => exact .inl (createElement_leaves _ _ _ failed)
  | createRelation => exact .inl (createRelation_leaves _ _ _ failed)
  | createIncidence relation element role =>
    exact .inl (createIncidence_leaves relation element role _ _ _ failed)
  | setRelationType relation relationType =>
    exact .inl (setRelationType_leaves relation relationType _ _ _ failed)
  | retain index keep => exact .inl (retain_leaves sound failed)
  | set subject key value => exact .inl (setProperty_leaves subject key value _ _ _ failed)
  | unset subject key => exact .inl (removeProperty_leaves subject key _ _ _ failed)
  | addLabel subject label => exact .inl (addLabel_leaves subject label _ _ _ failed)
  | tombstone subject => exact .inl (tombstone_leaves subject _ _ _ failed)

-- Calls made of several changes.

/-- A failed run of listed calls stops at the first that fails, which changed nothing. -/
theorem stops_of_forM {calls : List WriterOp} (passive : ∀ call ∈ calls, call.run.Leaves Eq)
    (failed : calls.forM WriterOp.run writer = (.error error, after)) :
    WriterOp.Stops calls writer error after := by
  obtain ⟨done, next, rest, middle, split, ran, fails⟩ := Mutation.forM_error failed
  have same : after = middle := passive next (by rw [split]; simp) _ _ _ fails
  rw [← same] at ran fails
  exact ⟨done, next, rest, split, ran, fails⟩

/-- A created record has the next id of its family. -/
theorem created_id {family : IdFamily} {next : UInt64 → Mutation DbError WriteOverlay UInt64}
    (returns : ∀ {id before value last}, next id before = (.ok value, last) → value = id)
    {id : UInt64}
    (created : onDelta (WriteOverlay.allocate family >>= next) writer = (.ok id, after)) :
    id = writer.merged.nextIds.get family := by
  obtain ⟨delta, ran, rfl⟩ := Mutation.onPart_ok created
  obtain ⟨drawn, middle, allocated, rest⟩ := Mutation.bind_ok.mp ran
  rcases WriteOverlay.allocate_cases allocated with ⟨never, _⟩ | ⟨same, _⟩
  · cases never
  · rw [returns rest]
    exact Except.ok.inj same

theorem createElement_id {id : ElementId} (created : createElement writer = (.ok id, after)) :
    id = writer.merged.nextIds.element :=
  @created_id writer after .element _
    (fun ran => (Except.ok.inj (Prod.mk.inj ran).1).symm) id created

theorem createRelation_id {id : RelationId} (created : createRelation writer = (.ok id, after)) :
    id = writer.merged.nextIds.relation :=
  @created_id writer after .relation _
    (fun ran => (Except.ok.inj (Prod.mk.inj ran).1).symm) id created

variable {value : PropertyValue}

/-- A failed search for a carrier found no index and changed nothing, or failed to mint one. -/
theorem carrierOr_error {pick : PropertySubject → Option UInt64}
    {mint : PropertyKeyId → Mutation DbError Writer UInt64}
    (failed : (equalityIndexKey index >>= fun key => carrierOr pick key value (mint key)) writer =
      (.error error, after)) : after = writer ∨
      ∃ key, writer.merged.catalog.Covers index key ∧ mint key writer = (.error error, after) := by
  rcases bind_error.mp failed with unfound | ⟨key, middle, found, searched⟩
  · exact .inl (equalityIndexKey_leaves index _ _ _ unfound)
  · obtain ⟨rfl, covers⟩ := of_equalityIndexKey_ok found
    rw [carrierOr_apply] at searched
    cases existing : (middle.merged.propertyEqual key value).findSome? pick with
    | some id =>
      rw [existing] at searched
      cases searched
    | none =>
      rw [existing] at searched
      exact .inr ⟨key, covers, searched⟩

/-- An upsert of an element that fails found no index, or stopped while minting the element. -/
theorem upsertElement_error (failed : upsertElement index value writer = (.error error, after)) :
    after = writer ∨
      ∃ key, writer.merged.catalog.Covers index key ∧
        WriterOp.Stops (WriterOp.mintElement writer.merged.nextIds.element key value)
          writer error after := by
  rcases carrierOr_error (upsertElement_eq _ _ ▸ failed) with unfound | ⟨key, covers, searched⟩
  · exact .inl unfound
  refine .inr ⟨key, covers, stops_of_forM ?_ ?_⟩
  · intro call member
    rcases List.mem_cons.mp member with rfl | second
    · exact run_leaves createElement_leaves
    · cases List.mem_singleton.mp second
      exact run_leaves (setProperty_leaves _ _ _)
  · -- The minting runs the listed calls.
    show (WriterOp.run .createElement >>= fun _ => List.forM [_] WriterOp.run) writer = _
    rcases bind_error.mp searched with exhausted | ⟨id, first, created, rest⟩
    · exact bind_error.mpr (.inl (run_error.mpr exhausted))
    · cases createElement_id created
      refine bind_error.mpr (.inr ⟨(), first, run_ok created, ?_⟩)
      rcases bind_error.mp rest with refused | ⟨_, _, _, never⟩
      · exact bind_error.mpr (.inl (run_error.mpr refused))
      · cases never

/-- A loop over mapped items is a loop over the items. -/
theorem forM_map {T U : Type} {round : U → Mutation DbError Writer Unit} (f : T → U)
    (items : List T) : (items.map f).forM round = items.forM fun item => round (f item) := by
  induction items with
  | nil => rfl
  | cons item rest ih =>
    show (round (f item) >>= fun _ => (rest.map f).forM round) = _
    rw [ih]
    rfl

/-- An upsert of a relation that fails found no index, or stopped while minting the relation. -/
theorem upsertRelation_error {relationType : RelationTypeId}
    {endpoints : List (ElementId × RoleId)}
    (failed : upsertRelation index value relationType endpoints writer = (.error error, after)) :
    after = writer ∨ ∃ key, writer.merged.catalog.Covers index key ∧
      WriterOp.Stops (WriterOp.mintRelation writer.merged.nextIds.relation key value relationType
        endpoints) writer error after := by
  rcases carrierOr_error (upsertRelation_eq _ _ _ _ ▸ failed) with unfound | ⟨key, covers, searched⟩
  · exact .inl unfound
  refine .inr ⟨key, covers, stops_of_forM ?_ ?_⟩
  · intro call member
    rcases List.mem_append.mp member with minting | joining
    · simp only [List.mem_cons, List.not_mem_nil, or_false] at minting
      rcases minting with rfl | rfl | rfl
      · exact run_leaves createRelation_leaves
      · exact run_leaves (setRelationType_leaves _ _)
      · exact run_leaves (setProperty_leaves _ _ _)
    · obtain ⟨endpoint, _, rfl⟩ := List.mem_map.mp joining
      exact run_leaves (createIncidence_leaves _ _ _)
  · rcases bind_error.mp searched with exhausted | ⟨id, first, created, rest⟩
    · exact bind_error.mpr (.inl (run_error.mpr exhausted))
    · cases createRelation_id created
      refine bind_error.mpr (.inr ⟨(), first, run_ok created, ?_⟩)
      rcases bind_error.mp rest with untyped | ⟨_, second, typed, afterType⟩
      · exact bind_error.mpr (.inl (run_error.mpr untyped))
      · refine bind_error.mpr (.inr ⟨(), second, run_ok typed, ?_⟩)
        rcases bind_error.mp afterType with refused | ⟨_, third, keyed, afterKey⟩
        · exact bind_error.mpr (.inl (run_error.mpr refused))
        · refine bind_error.mpr (.inr ⟨(), third, run_ok keyed, ?_⟩)
          rcases bind_error.mp afterKey with unjoined | ⟨_, _, _, never⟩
          · exact (congrFun (forM_map _ endpoints) third).trans unjoined
          · cases never

/-- Applying a schema binds its declarations one after the other. -/
theorem applySchema_eq (schema : Schema) :
    applySchema schema = schema.declarations.foldlM Declaration.bind .empty := by
  unfold applySchema Schema.declarations
  simp only [List.foldlM_append, List.foldlM_map, bind_assoc, Declaration.bind]

/-- What is registered only when its name is free is not refused for a taken name. -/
theorem getOr_leaves {Id : Type} {lookup : Catalog → Option Id} {make : Mutation DbError Writer Id}
    {family : IdFamily} {name : String} (leaves : make.Leaves (Unregistered family name))
    (named : ∀ {catalog : Catalog}, catalog.Taken name family → (lookup catalog).isSome) :
    (getOr lookup make).Leaves Eq := by
  intro writer error after failed
  unfold getOr at failed
  rw [bind_apply, Mutation.read] at failed
  cases found : lookup writer.merged.catalog with
  | some id =>
    simp only [found] at failed
    cases failed
  | none =>
    simp only [found] at failed
    rcases leaves _ _ _ failed with same | ⟨taken, _⟩
    · exact same
    · have bound := named taken
      simp [found] at bound

/-- Binding a declaration that fails changes nothing. -/
theorem declaration_leaves (bound : Bound) (declaration : Declaration) :
    (declaration.bind bound).Leaves Eq := by
  cases declaration with
  | role name => exact (getOr_leaves (registerRole_leaves name) id).bind_pure _
  | label name => exact (getOr_leaves (registerLabel_leaves name) id).bind_pure _
  | relationType name => exact (getOr_leaves (registerRelationType_leaves name) id).bind_pure _
  | key declared =>
    refine Mutation.Leaves.bind_pure ?_ _
    intro writer error after failed
    unfold registerKeyOrGet at failed
    rw [bind_apply, Mutation.read] at failed
    cases found : writer.merged.catalog.propertyKeyId declared.1 with
    | none =>
      simp only [found] at failed
      rcases registerPropertyKey_leaves _ _ _ _ _ _ failed with same | ⟨taken, _⟩
      · exact same
      · have bound : (writer.merged.catalog.propertyKeyId declared.1).isSome := taken
        simp [found] at bound
    | some existing =>
      -- An existing key is taken or conflicts, and neither registers anything.
      simp only [found] at failed
      cases read : writer.merged.catalog.propertyKey existing with
      | none =>
        simp only [read] at failed
        cases failed
        rfl
      | some definition =>
        simp only [read] at failed
        split at failed <;> cases failed
        rfl
  | equalityIndex declared =>
    refine .bind (fun ran => (lift_ok.mp ran).2) (.lift (fun _ => rfl) _) fun _ => ?_
    exact (getOr_leaves (defineIndex_leaves _ _) id).bind_pure _
  | graphProjection spec =>
    refine Mutation.Leaves.bind_pure (@getOr_leaves _ _ _ .projection spec.name ?_ id) _
    refine .bind (fun ran => (lift_ok.mp ran).2) (.lift (fun _ => .inl rfl) _) fun _ => ?_
    refine .bind (fun ran => (lift_ok.mp ran).2) (.lift (fun _ => .inl rfl) _) fun _ => ?_
    refine .bind (fun ran => (lift_ok.mp ran).2) (.lift (fun _ => .inl rfl) _) fun _ => ?_
    exact defineProjection_leaves _
  | hypergraphProjection spec =>
    refine Mutation.Leaves.bind_pure (@getOr_leaves _ _ _ .projection spec.name ?_ id) _
    refine .bind (fun ran => (lift_ok.mp ran).2) (.lift (fun _ => .inl rfl) _) fun _ => ?_
    refine .bind (fun ran => (lift_ok.mp ran).2) (.lift (fun _ => .inl rfl) _) fun _ => ?_
    refine .bind (fun ran => (lift_ok.mp ran).2) (.lift (fun _ => .inl rfl) _) fun _ => ?_
    exact defineProjection_leaves _

/--
What a failed call leaves: nothing when it is a single one, else what it had completed.

A registration of a taken name keeps the id it drew and the bytes it interned. A writer has no
savepoint, so an upsert or a schema that fails midway keeps the changes made before the one that
failed, which itself changed nothing.
-/
theorem failed_call_leaves (sound : writer.merged.Sound) {error : DbError} {after : Writer} :
    (∀ op : WriterOp, op.Single → op.run writer = (.error error, after) →
      (after = writer ∨ ∃ family name, op.registers = some (family, name) ∧
        writer.merged.catalog.Taken name family ∧ after.Burnt family name writer) ∧
      after.merged.contents = writer.merged.contents ∧
      after.merged.catalog = writer.merged.catalog ∧
      after.delta.log.ops = writer.delta.log.ops) ∧
    (∀ index value, upsertElement index value writer = (.error error, after) → after = writer ∨
      ∃ key, writer.merged.catalog.Covers index key ∧
        WriterOp.Stops (WriterOp.mintElement writer.merged.nextIds.element key value)
          writer error after) ∧
    (∀ index value relationType endpoints,
      upsertRelation index value relationType endpoints writer = (.error error, after) →
      after = writer ∨ ∃ key, writer.merged.catalog.Covers index key ∧
        WriterOp.Stops (WriterOp.mintRelation writer.merged.nextIds.relation key value relationType
          endpoints) writer error after) ∧
    ∀ schema, applySchema schema writer = (.error error, after) →
      ∃ done next rest bound, schema.declarations = done ++ next :: rest ∧
        done.foldlM Declaration.bind .empty writer = (.ok bound, after) ∧
        next.bind bound after = (.error error, after) := by
  refine ⟨?_, fun _ _ => upsertElement_error, fun _ _ _ _ => upsertRelation_error, ?_⟩
  · intro op single failed
    rcases single_leaves sound single failed with rfl | ⟨family, name, registers, left⟩
    · exact ⟨.inl rfl, rfl, rfl, rfl⟩
    · exact ⟨left.imp_right fun burnt => ⟨family, name, registers, burnt⟩, left.reads⟩
  · intro schema failed
    rw [applySchema_eq] at failed
    obtain ⟨done, next, rest, bound, middle, split, ran, fails⟩ := Mutation.foldlM_error failed
    cases declaration_leaves bound next _ _ _ fails
    exact ⟨done, next, rest, bound, split, ran, fails⟩

/-- A store with a role, a relation type, and an equality index over an integer relation key. -/
def edgeWriter : Writer :=
  WriterOp.runAll [.registerRole "end", .registerRelationType "edge",
      .registerPropertyKey "code" .relation .integer, .defineIndex "by_code" (.propertyEquality 1)]
    ⟨⟨0, 0, .empty .initial .empty, .empty⟩, .fromOverlay (.empty .initial .empty), 1⟩

theorem edgeWriter_sound : edgeWriter.merged.Sound :=
  Step.sound (WriterOp.runAll_steps _ _) LayeredState.sound_empty

/-- An incidence of a missing element is refused, and leaves nothing behind. -/
theorem edgeWriter_createIncidence : ∃ error after,
    (WriterOp.createIncidence 1 9 1).run edgeWriter = (.error error, after) ∧
      after = edgeWriter := by
  obtain ⟨singles, _⟩ := @failed_call_leaves edgeWriter edgeWriter_sound (.unknown .relation 1)
    edgeWriter
  -- Creating an incidence registers no name.
  rcases (singles (.createIncidence 1 9 1) trivial rfl).1 with same | ⟨_, _, never, _⟩
  · exact ⟨_, _, rfl, same⟩
  · cases never

/-- An upsert of a relation to a missing element fails, and leaves the relation behind. -/
theorem edgeWriter_upsertRelation : edgeWriter.merged.Sound ∧ ∃ error after,
    upsertRelation 1 (.integer 7) 1 [(9, 1)] edgeWriter = (.error error, after) ∧
      edgeWriter.merged.containsRelation 1 = false ∧ after.merged.containsRelation 1 = true ∧
      after.merged.propertyEqual 1 (.integer 7) = [.relation 1] ∧
      after.delta.log.ops ≠ edgeWriter.delta.log.ops := by
  refine ⟨edgeWriter_sound, _, _, rfl, rfl, rfl, rfl, fun same => ?_⟩
  have longer := congrArg List.length same
  revert longer
  decide

end Writer

end Oxgraph
