import Oxgraph.Lib.Result
import Oxgraph.Spec.Change

/-! Every mutator of the writer runs by guarded steps. -/

namespace Oxgraph

open Mutation (bind_apply bind_ok forM_require_ok require_ok)

/-- A step stays a step when more changes are allowed in the view it starts from. -/
theorem DeltaStep.mono {base : BaseRecords} {allowed wider : Change → LayeredState → Prop}
    {before after : WriteOverlay} (step : DeltaStep base allowed before after)
    (widens : ∀ change, allowed change ⟨base, before.toOverlay⟩ →
      wider change ⟨base, before.toOverlay⟩) : DeltaStep base wider before after := by
  cases step with
  | create change guard creates fits applied =>
    exact .create change (widens _ guard) creates fits applied
  | mutate change guard creates applied => exact .mutate change (widens _ guard) creates applied
  | burn family fits interned => exact .burn family fits interned

namespace WriteOverlay

variable {base : BaseRecords} {allowed : Change → LayeredState → Prop} {writer : WriteOverlay}
  {family : IdFamily}

/-- Drawing an id and recording its creation is one step, or none when the ids are exhausted. -/
theorem create_steps {make : UInt64 → WriteOverlay → WriteOverlay} (change : UInt64 → Change)
    (creates : ∀ id, (change id).creates = some (family, id))
    (guard : ∀ id, allowed (change id) ⟨base, writer.toOverlay⟩)
    (makes : ∀ id (before : WriteOverlay), ∃ overlay,
      (change id).apply base before.toOverlay = .ok overlay ∧
      make id before = { overlay with log := (change id).record before.log }) :
    (allocate family >>= fun id => Mutation.modify (make id) >>= fun _ => pure id :
      Mutation DbError WriteOverlay UInt64).Steps (DeltaStep base allowed) writer := by
  unfold Mutation.Steps
  rw [bind_apply, allocate]
  cases fits : checkedNext (writer.next.get family) with
  | none => exact .refl
  | some next =>
    obtain ⟨overlay, applied, made⟩ := makes (writer.next.get family)
      { writer with next := writer.next.set family next }
    have step : DeltaStep base allowed writer _ :=
      .create (change (writer.next.get family)) (guard _) (creates _) fits applied
    rw [← made] at step
    exact .single step

theorem createElement_steps (guard : ∀ id, allowed (.createElement id) ⟨base, writer.toOverlay⟩) :
    createElement.Steps (DeltaStep base allowed) writer :=
  create_steps .createElement (fun _ => rfl) guard fun _ _ => ⟨_, rfl, rfl⟩

theorem createRelation_steps
    (guard : ∀ id, allowed (.createRelation id) ⟨base, writer.toOverlay⟩) :
    createRelation.Steps (DeltaStep base allowed) writer :=
  create_steps .createRelation (fun _ => rfl) guard fun _ _ => ⟨_, rfl, rfl⟩

theorem createIncidence_steps (relation : RelationId) (element : ElementId) (role : RoleId)
    (guard : ∀ id, allowed (.createIncidence ⟨id, relation, element, role⟩)
      ⟨base, writer.toOverlay⟩) :
    (createIncidence relation element role).Steps (DeltaStep base allowed) writer :=
  create_steps (fun id => .createIncidence ⟨id, relation, element, role⟩) (fun _ => rfl) guard
    fun _ _ => ⟨_, rfl, rfl⟩

/-- Applying and recording a change that creates nothing is one step. -/
theorem mutate_step {after : WriteOverlay} (change : Change)
    (guard : allowed change ⟨base, writer.toOverlay⟩) (creates : change.creates = none)
    {overlay : Overlay} (applied : change.apply base writer.toOverlay = .ok overlay)
    (recorded : after = { overlay with log := change.record writer.log }) :
    DeltaStep base allowed writer after := by
  subst recorded
  exact .mutate change guard creates applied

/-- Setting a property is one step, or none when the value is already visible. -/
theorem setProperty_steps (subject : PropertySubject) (key : PropertyKeyId) (value : PropertyValue)
    (guard : allowed (.setProperty subject key value) ⟨base, writer.toOverlay⟩) :
    Relation.ReflTransGen (DeltaStep base allowed) writer
      (writer.setProperty base subject key value) := by
  unfold setProperty
  split
  · exact .refl
  · exact .single (mutate_step (.setProperty subject key value) guard rfl rfl rfl)

/-- What a registration interns is what its recorded op refers to. -/
theorem internEntry_eq (entry : Registration) (writer : WriteOverlay) :
    internEntry entry.name entry.body writer =
      (.ok (entry.intern writer.log).1, { writer with log := (entry.intern writer.log).2 }) := by
  unfold internEntry Registration.intern
  cases entry.body <;> rfl

/-- Interning an entry leaves the ops alone and only extends the blob. -/
theorem intern_extends (entry : Registration) (log : MutationLog) :
    ∃ interned, (entry.intern log).2 = { log with blob := log.blob ++ interned } := by
  unfold Registration.intern
  cases entry.body with
  | none => exact ⟨_, rfl⟩
  | some words => exact ⟨_, congrArg (MutationLog.mk _) (List.append_assoc _ _ _)⟩

/-- A registration that succeeds drew its family's next id and inserted its entry under it. -/
theorem register_ok {opKind flags : UInt32} {name : String} {body : Option (List UInt64)}
    {insert : UInt64 → Catalog → Except CatalogError Catalog} {after : WriteOverlay} {id : UInt64}
    (registered : register family opKind flags name body insert writer = (.ok id, after)) :
    id = writer.next.get family ∧ insert id writer.catalog = .ok after.catalog ∧
      ∃ next, checkedNext id = some next ∧ after.next = writer.next.set family next := by
  obtain ⟨drawn, first, allocated, afterDraw⟩ := bind_ok.mp registered
  rcases allocate_cases allocated with ⟨never, _⟩ | ⟨drew, next, fits, rfl⟩
  · cases never
  cases drew
  obtain ⟨words, second, interned, afterIntern⟩ := bind_ok.mp afterDraw
  -- Interning a name and a body touches the log alone.
  have same : second.toOverlay = { writer.toOverlay with next := writer.next.set family next } := by
    unfold internEntry at interned
    cases body <;> cases interned <;> rfl
  obtain ⟨_, third, attempted, pushed⟩ := bind_ok.mp afterIntern
  cases pushed
  unfold Mutation.attempt at attempted
  split at attempted
  · rename_i inserted
    cases attempted
    obtain ⟨overlay, entered, rfl⟩ := map_eq_ok inserted
    obtain ⟨catalog, accepted, rfl⟩ := Overlay.registerEntry_eq_ok.mp entered
    rw [same] at accepted
    exact ⟨rfl, accepted, next, fits, congrArg Overlay.next same⟩
  · cases attempted

/-- Registering an entry is one step; a taken name burns the id, and an exhausted family stays. -/
theorem register_steps {opKind flags : UInt32} {name : String} {body : Option (List UInt64)}
    {insert : UInt64 → Catalog → Except CatalogError Catalog} (entry : UInt64 → Registration)
    (handle : ∀ id, (entry id).handle = (family, id))
    (kind : ∀ id, (entry id).kindFlags = (opKind, flags)) (named : ∀ id, (entry id).name = name)
    (bodied : ∀ id, (entry id).body = body) (inserts : ∀ id, (entry id).insert = insert id)
    (guard : ∀ id, allowed (.register (entry id)) ⟨base, writer.toOverlay⟩) :
    (register family opKind flags name body insert).Steps (DeltaStep base allowed) writer := by
  unfold Mutation.Steps register
  rw [bind_apply, allocate]
  cases fits : checkedNext (writer.next.get family) with
  | none => exact .refl
  | some next =>
    simp only [← named (writer.next.get family), ← bodied (writer.next.get family),
      ← inserts (writer.next.get family), bind_apply, internEntry_eq, Mutation.attempt]
    -- Whether the name is taken decides between the two steps.
    cases inserted : (entry (writer.next.get family)).insert writer.catalog with
    | error error =>
      obtain ⟨interned, extends_⟩ := intern_extends (entry (writer.next.get family)) writer.log
      simp only [Overlay.registerEntry, inserted, extends_, Except.map]
      exact .single (.burn family fits interned)
    | ok catalog =>
      simp only [Overlay.registerEntry, inserted, Except.map, Mutation.modify_apply,
        Mutation.pure_apply]
      have applied : (Change.register (entry (writer.next.get family))).apply base
          { writer.toOverlay with next := writer.next.set family next } =
          .ok { writer.toOverlay with next := writer.next.set family next, catalog } := by
        simp only [Change.apply, Overlay.registerEntry, inserted]
      have step : DeltaStep base allowed writer _ :=
        .create _ (guard _) (congrArg some (handle _)) fits applied
      simp only [Change.record, handle, kind] at step
      exact .single step

/-- Each of the six registrations runs by steps. -/
theorem registerRole_steps (name : String)
    (guard : ∀ id, allowed (.register (.role id name)) ⟨base, writer.toOverlay⟩) :
    (registerRole name).Steps (DeltaStep base allowed) writer :=
  register_steps (.role · name) (fun _ => rfl) (fun _ => rfl) (fun _ => rfl) (fun _ => rfl)
    (fun _ => rfl) guard

theorem registerLabel_steps (name : String)
    (guard : ∀ id, allowed (.register (.label id name)) ⟨base, writer.toOverlay⟩) :
    (registerLabel name).Steps (DeltaStep base allowed) writer :=
  register_steps (.label · name) (fun _ => rfl) (fun _ => rfl) (fun _ => rfl) (fun _ => rfl)
    (fun _ => rfl) guard

theorem registerRelationType_steps (name : String)
    (guard : ∀ id, allowed (.register (.relationType id name)) ⟨base, writer.toOverlay⟩) :
    (registerRelationType name).Steps (DeltaStep base allowed) writer :=
  register_steps (.relationType · name) (fun _ => rfl) (fun _ => rfl) (fun _ => rfl)
    (fun _ => rfl) (fun _ => rfl) guard

theorem registerPropertyKey_steps (name : String) (family : PropertyFamily)
    (valueType : PropertyType) (guard : ∀ id,
      allowed (.register (.propertyKey ⟨id, name, family, valueType⟩)) ⟨base, writer.toOverlay⟩) :
    (registerPropertyKey name family valueType).Steps (DeltaStep base allowed) writer :=
  register_steps (fun id => .propertyKey ⟨id, name, family, valueType⟩) (fun _ => rfl)
    (fun _ => rfl) (fun _ => rfl) (fun _ => rfl) (fun _ => rfl) fun _ => guard _

theorem registerProjection_steps (definition : ProjectionDefinition)
    (guard : ∀ id, allowed (.register (.projection id definition)) ⟨base, writer.toOverlay⟩) :
    (registerProjection definition).Steps (DeltaStep base allowed) writer :=
  register_steps (.projection · definition) (fun _ => rfl) (fun _ => rfl) (fun _ => rfl)
    (fun _ => rfl) (fun _ => rfl) guard

theorem registerIndex_steps (name : String) (definition : IndexDefinition)
    (guard : ∀ id, allowed (.register (.index id name definition)) ⟨base, writer.toOverlay⟩) :
    (registerIndex name definition).Steps (DeltaStep base allowed) writer :=
  register_steps (.index · name definition) (fun _ => rfl) (fun _ => rfl) (fun _ => rfl)
    (fun _ => rfl) (fun _ => rfl) guard

end WriteOverlay

namespace Writer

variable {writer : Writer}

/-- A mutator that steps runs from every writer by guarded steps of its delta. -/
def Guarded {T : Type} (mutator : Mutation DbError Writer T) : Prop :=
  ∀ writer, mutator.Steps Step writer

/-- Delta steps whose changes are allowed in the writer's view are writer steps. -/
theorem lift_steps {after : WriteOverlay}
    (taken : Relation.ReflTransGen (DeltaStep writer.base Change.Allowed) writer.delta after) :
    Relation.ReflTransGen Step writer { writer with delta := after } := by
  induction taken with
  | refl => exact .refl
  | tail _ step ih => exact ih.tail ⟨_, .delta step, rfl⟩

theorem onDelta_steps {T : Type} {mutator : Mutation DbError WriteOverlay T}
    (taken : mutator.Steps (DeltaStep writer.base Change.Allowed) writer.delta) :
    (onDelta mutator).Steps Step writer := lift_steps taken

/-- One guarded step of the delta is a step of the writer. -/
theorem change_steps {mutator : WriteOverlay → BaseRecords → WriteOverlay}
    (taken : GuardedStep writer.base writer.delta (mutator writer.delta writer.base)) :
    (change mutator).Steps Step writer :=
  .modify ⟨_, taken, rfl⟩

-- The checks change nothing.

theorem requireRole_guarded (id : RoleId) : Guarded (requireRole id) := fun _ => .require _ _

theorem requireRelationType_guarded (id : RelationTypeId) : Guarded (requireRelationType id) :=
  fun _ => .require _ _

theorem requirePropertyKey_guarded (id : PropertyKeyId) : Guarded (requirePropertyKey id) :=
  fun _ => .require _ _

theorem validateProjectionDefinition_guarded (definition : ProjectionDefinition) :
    Guarded (validateProjectionDefinition definition) := by
  intro writer
  cases definition with
  | graph graph =>
    refine .bind (requireRole_guarded _ _) fun _ _ _ => .bind (requireRole_guarded _ _) ?_
    intro _ _ _
    exact .forM _ fun id _ => requireRelationType_guarded id
  | hypergraph hyper =>
    refine .bind (.forM _ fun id _ => requireRole_guarded id) fun _ _ _ =>
      .bind (.forM _ fun id _ => requireRole_guarded id) ?_
    intro _ _ _
    exact .forM _ fun id _ => requireRelationType_guarded id

theorem validateIndexDefinition_guarded (definition : IndexDefinition) :
    Guarded (validateIndexDefinition definition) := by
  intro writer
  cases definition with
  | compositeEquality keys =>
    simp only [validateIndexDefinition]
    split
    · exact .fail _
    · exact .forM _ fun id _ => requirePropertyKey_guarded id
  | label | relationType | propertyEquality | propertyRange | projection => exact .require _ _

-- The primitive mutators.

theorem registerRole_guarded (name : String) : Guarded (registerRole name) :=
  fun _ => onDelta_steps (WriteOverlay.registerRole_steps name fun _ => trivial)

theorem registerLabel_guarded (name : String) : Guarded (registerLabel name) :=
  fun _ => onDelta_steps (WriteOverlay.registerLabel_steps name fun _ => trivial)

theorem registerRelationType_guarded (name : String) : Guarded (registerRelationType name) :=
  fun _ => onDelta_steps (WriteOverlay.registerRelationType_steps name fun _ => trivial)

theorem registerPropertyKey_guarded (name : String) (family : PropertyFamily)
    (valueType : PropertyType) : Guarded (registerPropertyKey name family valueType) :=
  fun _ => onDelta_steps (WriteOverlay.registerPropertyKey_steps name family valueType
    fun _ => trivial)

/-- A projection definition that passes its validation refers to what is registered. -/
theorem validateProjectionDefinition_ok {definition : ProjectionDefinition} {state : Writer}
    (passed : validateProjectionDefinition definition writer = (.ok (), state)) :
    definition.Registered writer.merged.catalog ∧ state = writer := by
  unfold validateProjectionDefinition at passed
  cases definition with
  | graph graph =>
    simp only at passed
    obtain ⟨_, first, source, afterSource⟩ := bind_ok.mp passed
    obtain ⟨sourceKnown, rfl⟩ := require_ok.mp source
    obtain ⟨_, second, target, afterTarget⟩ := bind_ok.mp afterSource
    obtain ⟨targetKnown, rfl⟩ := require_ok.mp target
    obtain ⟨typesKnown, same⟩ := forM_require_ok.mp afterTarget
    refine ⟨⟨sourceKnown, targetKnown, fun id member => typesKnown id ?_⟩, same⟩
    exact Std.ExtTreeSet.mem_toList.mpr member
  | hypergraph hyper =>
    simp only at passed
    obtain ⟨_, first, source, afterSource⟩ := bind_ok.mp passed
    obtain ⟨sourcesKnown, rfl⟩ := forM_require_ok.mp source
    obtain ⟨_, second, target, afterTarget⟩ := bind_ok.mp afterSource
    obtain ⟨targetsKnown, rfl⟩ := forM_require_ok.mp target
    obtain ⟨typesKnown, same⟩ := forM_require_ok.mp afterTarget
    exact ⟨⟨fun id member => sourcesKnown id (Std.ExtTreeSet.mem_toList.mpr member),
      fun id member => targetsKnown id (Std.ExtTreeSet.mem_toList.mpr member),
      fun id member => typesKnown id (Std.ExtTreeSet.mem_toList.mpr member)⟩, same⟩

/-- An index definition that passes its validation refers to what is registered. -/
theorem validateIndexDefinition_ok {definition : IndexDefinition} {state : Writer}
    (passed : validateIndexDefinition definition writer = (.ok (), state)) :
    definition.Registered writer.merged.catalog ∧ state = writer := by
  unfold validateIndexDefinition at passed
  cases definition with
  | compositeEquality keys =>
    simp only at passed
    split at passed
    · cases passed
    · exact forM_require_ok.mp passed
  | label | relationType | propertyEquality | propertyRange | projection =>
    simp only at passed
    exact require_ok.mp passed

theorem defineProjection_guarded (definition : ProjectionDefinition) :
    Guarded (defineProjection definition) := by
  intro writer
  refine .bind (validateProjectionDefinition_guarded definition writer) fun _ state passed => ?_
  obtain ⟨registered, rfl⟩ := validateProjectionDefinition_ok passed
  exact onDelta_steps (WriteOverlay.registerProjection_steps definition fun _ => registered)

theorem defineIndex_guarded (name : String) (definition : IndexDefinition) :
    Guarded (defineIndex name definition) := by
  intro writer
  refine .bind (validateIndexDefinition_guarded definition writer) fun _ state passed => ?_
  obtain ⟨registered, rfl⟩ := validateIndexDefinition_ok passed
  exact onDelta_steps (WriteOverlay.registerIndex_steps name definition fun _ => registered)

theorem createElement_guarded : Guarded createElement :=
  fun _ => onDelta_steps (WriteOverlay.createElement_steps fun _ => trivial)

theorem createRelation_guarded : Guarded createRelation :=
  fun _ => onDelta_steps (WriteOverlay.createRelation_steps fun _ => trivial)

theorem createIncidence_guarded (relation : RelationId) (element : ElementId) (role : RoleId) :
    Guarded (createIncidence relation element role) := by
  intro writer
  refine .require_bind fun visibleRelation => .require_bind fun visibleElement =>
    .require_bind fun registered => ?_
  exact onDelta_steps (WriteOverlay.createIncidence_steps relation element role
    fun _ => ⟨visibleRelation, visibleElement, registered⟩)

theorem tombstoneElement_guarded (id : ElementId) : Guarded (tombstoneElement id) := by
  intro writer
  refine .require_bind fun visible => .read_bind ?_
  exact change_steps (.tombstoneElement id visible)

theorem tombstoneRelation_guarded (id : RelationId) : Guarded (tombstoneRelation id) := by
  intro writer
  refine .require_bind fun visible => .read_bind ?_
  exact change_steps (.tombstoneRelation id visible)

/-- An allowed change that creates nothing is a guarded step. -/
theorem mutate_guarded {base : BaseRecords} {before after : WriteOverlay} {overlay : Overlay}
    (change : Change) (guard : change.Allowed ⟨base, before.toOverlay⟩)
    (creates : change.creates = none)
    (applied : change.apply base before.toOverlay = .ok overlay)
    (recorded : after = { overlay with log := change.record before.log }) :
    GuardedStep base before after :=
  .delta (WriteOverlay.mutate_step change guard creates applied recorded)

theorem tombstoneIncidence_guarded (id : IncidenceId) : Guarded (tombstoneIncidence id) := by
  intro writer
  refine .require_bind fun visible => ?_
  exact change_steps (mutate_guarded (.tombstoneIncidence id) visible rfl rfl rfl)

theorem addElementLabel_guarded (element : ElementId) (label : LabelId) :
    Guarded (addElementLabel element label) := by
  intro writer
  refine .require_bind fun visible => .require_bind fun registered => ?_
  exact change_steps (mutate_guarded (.addElementLabel element label) ⟨visible, registered⟩ rfl
    rfl rfl)

theorem addRelationLabel_guarded (relation : RelationId) (label : LabelId) :
    Guarded (addRelationLabel relation label) := by
  intro writer
  refine .require_bind fun visible => .require_bind fun registered => ?_
  exact change_steps (mutate_guarded (.addRelationLabel relation label) ⟨visible, registered⟩ rfl
    rfl rfl)

theorem setRelationType_guarded (relation : RelationId) (relationType : RelationTypeId) :
    Guarded (setRelationType relation relationType) := by
  intro writer
  refine .require_bind fun visible => .require_bind fun registered => ?_
  exact change_steps (mutate_guarded (.setRelationType relation relationType)
    ⟨visible, registered⟩ rfl rfl rfl)

/-- Past its check a subject is visible in the unchanged writer. -/
theorem requireSubject_bind {subject : PropertySubject} {T : Type}
    {next : Unit → Mutation DbError Writer T}
    (after : writer.merged.contains subject = true → (next ()).Steps Step writer) :
    (requireSubject subject >>= next).Steps Step writer := by
  cases subject <;> exact .require_bind after

variable {key : PropertyKeyId}

/-- A property key lookup hands on the registered definition and changes nothing. -/
theorem propertyKeyDefinition_ok {definition : PropertyKeyDefinition} {state : Writer}
    (found : propertyKeyDefinition key writer = (.ok definition, state)) :
    state = writer ∧ writer.merged.catalog.propertyKey key = some definition := by
  unfold propertyKeyDefinition at found
  rw [Mutation.read_bind] at found
  cases registered : writer.merged.catalog.propertyKey key with
  | none =>
    rw [registered] at found
    cases found
  | some definition =>
    rw [registered] at found
    cases found
    exact ⟨rfl, rfl⟩

theorem propertyKeyDefinition_guarded (key : PropertyKeyId) :
    Guarded (propertyKeyDefinition key) := by
  intro writer
  refine .read_bind ?_
  split
  · exact .fail _
  · exact .pure _

variable (subject : PropertySubject)

theorem setProperty_guarded (key : PropertyKeyId)
    (value : PropertyValue) : Guarded (setProperty subject key value) := by
  intro writer
  refine requireSubject_bind fun visible => .bind (propertyKeyDefinition_guarded key writer) ?_
  intro definition state found
  obtain ⟨rfl, registered⟩ := propertyKeyDefinition_ok found
  split
  · exact .fail _
  · rename_i family
    split
    · exact .fail _
    · rename_i valueType
      -- The delta may find the value already visible, and then takes no step.
      have guard : (Change.setProperty subject key value).Allowed state.merged :=
        ⟨visible, definition, registered, not_not.mp family, not_not.mp valueType⟩
      exact lift_steps (WriteOverlay.setProperty_steps subject key value guard)

theorem removeProperty_guarded (key : PropertyKeyId) :
    Guarded (removeProperty subject key) := by
  intro writer
  refine requireSubject_bind fun visible => .require_bind fun registered => ?_
  exact change_steps (mutate_guarded (.removeProperty subject key) ⟨visible, registered⟩ rfl
    rfl rfl)

theorem addLabel_guarded (label : LabelId) :
    Guarded (addLabel subject label) := by
  cases subject with
  | element id => exact addElementLabel_guarded id label
  | relation id => exact addRelationLabel_guarded id label
  | incidence id => exact fun _ => .fail _

theorem tombstone_guarded : Guarded (tombstone subject) := by
  cases subject with
  | element id => exact tombstoneElement_guarded id
  | relation id => exact tombstoneRelation_guarded id
  | incidence id => exact tombstoneIncidence_guarded id

-- The composite operations, which step through the primitive ones.

theorem equalityIndexKey_guarded (index : IndexId) : Guarded (equalityIndexKey index) := by
  intro writer
  refine .read_bind ?_
  split
  · exact .fail _
  · split
    · exact .pure _
    · exact .fail _

-- Both upserts search for a carrier of the value and mint one where there is none.

/-- The id a subject has among the elements. -/
def asElement : PropertySubject → Option ElementId
  | .element id => some id
  | _ => none

theorem asElement_eq_some (id : ElementId)
    (named : asElement subject = some id) : subject = .element id := by
  cases subject with
  | element => exact congrArg _ (Option.some.inj named)
  | relation | incidence => cases named

/-- The id a subject has among the relations. -/
def asRelation : PropertySubject → Option RelationId
  | .relation id => some id
  | _ => none

theorem asRelation_eq_some (id : RelationId)
    (named : asRelation subject = some id) : subject = .relation id := by
  cases subject with
  | relation => exact congrArg _ (Option.some.inj named)
  | element | incidence => cases named

/-- The first carrier of a value that a family has, or else what is minted. -/
def carrierOr (pick : PropertySubject → Option UInt64) (key : PropertyKeyId)
    (value : PropertyValue) (mint : Mutation DbError Writer UInt64) :
    Mutation DbError Writer UInt64 := do
  let writer ← .read
  match (writer.merged.propertyEqual key value).findSome? pick with
  | some id => return id
  | none => mint

/-- Creates the element a value identifies. -/
def mintedElement (key : PropertyKeyId) (value : PropertyValue) :
    Mutation DbError Writer ElementId := do
  let element ← createElement
  setProperty (.element element) key value
  return element

/-- Creates the relation a value identifies, with its type and its endpoints. -/
def mintedRelation (key : PropertyKeyId) (value : PropertyValue) (relationType : RelationTypeId)
    (endpoints : List (ElementId × RoleId)) : Mutation DbError Writer RelationId := do
  let relation ← createRelation
  setRelationType relation relationType
  setProperty (.relation relation) key value
  endpoints.forM fun endpoint => do
    let _ ← createIncidence relation endpoint.1 endpoint.2
  return relation

theorem upsertElement_eq (index : IndexId) (value : PropertyValue) :
    upsertElement index value = (equalityIndexKey index >>= fun key =>
      carrierOr asElement key value (mintedElement key value)) := rfl

theorem upsertRelation_eq (index : IndexId) (value : PropertyValue)
    (relationType : RelationTypeId) (endpoints : List (ElementId × RoleId)) :
    upsertRelation index value relationType endpoints = (equalityIndexKey index >>= fun key =>
      carrierOr asRelation key value (mintedRelation key value relationType endpoints)) := rfl

/-- A search that finds a carrier changes nothing, and one that finds none mints. -/
theorem carrierOr_apply {pick : PropertySubject → Option UInt64} {value : PropertyValue}
    {mint : Mutation DbError Writer UInt64} (writer : Writer) :
    carrierOr pick key value mint writer =
      match (writer.merged.propertyEqual key value).findSome? pick with
      | some id => (.ok id, writer)
      | none => mint writer := by
  unfold carrierOr
  rw [Mutation.read_bind]
  cases (writer.merged.propertyEqual key value).findSome? pick with
  | some id => rfl
  | none => rfl

theorem carrierOr_guarded {pick : PropertySubject → Option UInt64} {value : PropertyValue}
    {mint : Mutation DbError Writer UInt64} (guarded : Guarded mint) :
    Guarded (carrierOr pick key value mint) := by
  intro writer
  refine .read_bind ?_
  split
  · exact .pure _
  · exact guarded writer

theorem upsertElement_guarded (index : IndexId) (value : PropertyValue) :
    Guarded (upsertElement index value) := by
  intro writer
  rw [upsertElement_eq]
  refine .bind (equalityIndexKey_guarded index writer) fun key state _ => ?_
  refine carrierOr_guarded (fun state => ?_) state
  refine .bind (createElement_guarded state) fun element state _ => ?_
  exact .bind (setProperty_guarded _ key value state) fun _ _ _ => .pure _

theorem upsertRelation_guarded (index : IndexId) (value : PropertyValue)
    (relationType : RelationTypeId) (endpoints : List (ElementId × RoleId)) :
    Guarded (upsertRelation index value relationType endpoints) := by
  intro writer
  rw [upsertRelation_eq]
  refine .bind (equalityIndexKey_guarded index writer) fun key state _ => ?_
  refine carrierOr_guarded (fun state => ?_) state
  refine .bind (createRelation_guarded state) fun relation state _ => ?_
  refine .bind (setRelationType_guarded _ _ state) fun _ state _ => ?_
  refine .bind (setProperty_guarded _ key value state) fun _ state _ => ?_
  refine .bind (.forM _ fun endpoint _ state => ?_) fun _ _ _ => .pure _
  exact .bind (createIncidence_guarded _ _ _ state) fun _ _ _ => .pure _

theorem retain_guarded (index : IndexId) (keep : List PropertyValue) :
    Guarded (retain index keep) := by
  intro writer
  refine .bind (equalityIndexKey_guarded index writer) fun key state _ => .read_bind ?_
  exact .forM _ fun subject _ => tombstone_guarded subject

theorem getOr_guarded {Id : Type} {lookup : Catalog → Option Id}
    {make : Mutation DbError Writer Id} (guarded : Guarded make) : Guarded (getOr lookup make) := by
  intro writer
  refine .read_bind ?_
  split
  · exact .pure _
  · exact guarded writer

theorem registerKeyOrGet_guarded (name : String) (family : PropertyFamily)
    (valueType : PropertyType) : Guarded (registerKeyOrGet name family valueType) := by
  intro writer
  refine .read_bind ?_
  split
  · exact registerPropertyKey_guarded name family valueType writer
  · split
    · split
      · exact .pure _
      · exact .fail _
    · exact .fail _

theorem defineGraphProjection_guarded (spec : GraphProjectionSpec) (bound : Bound) :
    Guarded (defineGraphProjection spec bound) :=
  fun _ => .bind (.lift _) fun _ _ _ => .bind (.lift _) fun _ _ _ => .bind (.lift _)
    fun _ _ _ => defineProjection_guarded _ _

theorem defineHypergraphProjection_guarded (spec : HypergraphProjectionSpec) (bound : Bound) :
    Guarded (defineHypergraphProjection spec bound) :=
  fun _ => .bind (.lift _) fun _ _ _ => .bind (.lift _) fun _ _ _ => .bind (.lift _)
    fun _ _ _ => defineProjection_guarded _ _

theorem bindRole_guarded (bound : Bound) (name : String) : Guarded (bindRole bound name) :=
  fun state => .bind (getOr_guarded (registerRole_guarded name) state) fun _ _ _ => .pure _

theorem bindLabel_guarded (bound : Bound) (name : String) : Guarded (bindLabel bound name) :=
  fun state => .bind (getOr_guarded (registerLabel_guarded name) state) fun _ _ _ => .pure _

theorem bindRelationType_guarded (bound : Bound) (name : String) :
    Guarded (bindRelationType bound name) :=
  fun state => .bind (getOr_guarded (registerRelationType_guarded name) state) fun _ _ _ => .pure _

theorem bindKey_guarded (bound : Bound) (key : String × PropertyFamily × PropertyType) :
    Guarded (bindKey bound key) :=
  fun state => .bind (registerKeyOrGet_guarded _ _ _ state) fun _ _ _ => .pure _

theorem bindEqualityIndex_guarded (bound : Bound) (declared : String × String) :
    Guarded (bindEqualityIndex bound declared) := by
  intro state
  refine .bind (.lift _) fun key state _ => ?_
  exact .bind (getOr_guarded (defineIndex_guarded _ _) state) fun _ _ _ => .pure _

theorem bindGraphProjection_guarded (bound : Bound) (spec : GraphProjectionSpec) :
    Guarded (bindGraphProjection bound spec) :=
  fun state => .bind (getOr_guarded (defineGraphProjection_guarded spec bound) state)
    fun _ _ _ => .pure _

theorem bindHypergraphProjection_guarded (bound : Bound) (spec : HypergraphProjectionSpec) :
    Guarded (bindHypergraphProjection bound spec) :=
  fun state => .bind (getOr_guarded (defineHypergraphProjection_guarded spec bound) state)
    fun _ _ _ => .pure _

theorem applySchema_guarded (schema : Schema) : Guarded (applySchema schema) := by
  intro writer
  refine .bind (.foldlM _ _ fun name _ bound => bindRole_guarded bound name) fun bound _ _ => ?_
  refine .bind (.foldlM _ _ fun name _ bound => bindLabel_guarded bound name) fun bound _ _ => ?_
  refine .bind (.foldlM _ _ fun name _ bound => bindRelationType_guarded bound name)
    fun bound _ _ => ?_
  refine .bind (.foldlM _ _ fun key _ bound => bindKey_guarded bound key) fun bound _ _ => ?_
  refine .bind (.foldlM _ _ fun declared _ bound => bindEqualityIndex_guarded bound declared)
    fun bound _ _ => ?_
  refine .bind (.foldlM _ _ fun spec _ bound => bindGraphProjection_guarded bound spec)
    fun bound _ _ => ?_
  exact .foldlM _ _ fun spec _ bound => bindHypergraphProjection_guarded bound spec

end Writer

namespace WriterOp

/-- Every call takes guarded steps, whether it succeeds or fails. -/
theorem call_guarded (op : WriterOp) : Writer.Guarded op.call := by
  open Writer in
  cases op with
  | registerRole name => exact registerRole_guarded name
  | registerLabel name => exact registerLabel_guarded name
  | registerRelationType name => exact registerRelationType_guarded name
  | registerPropertyKey name family valueType =>
    exact registerPropertyKey_guarded name family valueType
  | defineProjection definition => exact defineProjection_guarded definition
  | defineIndex name definition => exact defineIndex_guarded name definition
  | applySchema schema => exact applySchema_guarded schema
  | createElement => exact createElement_guarded
  | createRelation => exact createRelation_guarded
  | createIncidence relation element role => exact createIncidence_guarded relation element role
  | setRelationType relation relationType => exact setRelationType_guarded relation relationType
  | upsertElement index value => exact upsertElement_guarded index value
  | upsertRelation index value relationType endpoints =>
    exact upsertRelation_guarded index value relationType endpoints
  | retain index keep => exact retain_guarded index keep
  | set subject key value => exact setProperty_guarded subject key value
  | unset subject key => exact removeProperty_guarded subject key
  | addLabel subject label => exact addLabel_guarded subject label
  | tombstone subject => exact tombstone_guarded subject

theorem run_guarded (op : WriterOp) : Writer.Guarded op.run :=
  fun writer => .bind (op.call_guarded writer) fun _ _ _ => .pure _

/-- Every run of calls runs by guarded steps. -/
theorem runAll_steps (ops : List WriterOp) (writer : Writer) :
    Relation.ReflTransGen Writer.Step writer (runAll ops writer) := by
  induction ops generalizing writer with
  | nil => exact .refl
  | cons op rest ih => exact (run_guarded op writer).trans (ih _)

end WriterOp

end Oxgraph
