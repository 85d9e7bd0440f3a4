import Oxgraph.Spec.Reconcile
import Oxgraph.Proofs.Db.Database.Failure

/-! What the calls of a reconcile program leave behind, and when each of them does nothing. -/

namespace Oxgraph

open Mutation (bind_ok require_ok)

namespace Contents.Shrinks

theorem refl (contents : Contents) : contents.Shrinks contents :=
  ⟨fun present => present, fun _ _ => rfl, fun carried => carried⟩

theorem trans {first second third : Contents} (before : second.Shrinks first)
    (after : third.Shrinks second) : third.Shrinks first := by
  constructor
  · intro subject present
    exact before.has (after.has present)
  · intro subject present key
    exact (after.same present key).trans (before.same (after.has present) key)
  · intro subject key value carried
    exact before.property (after.property carried)

/-- Removing subjects with their properties shrinks the contents. -/
theorem of_without (contents : Contents) (gone : PropertySubject → Prop) :
    (contents.without gone).Shrinks contents := by
  -- A subject that is left is none of those that went.
  have left {subject : PropertySubject} (present : (contents.without gone).Has subject) :
      ¬ gone subject := fun falls => not_has_without falls present
  constructor
  · intro subject present
    have same := (sameAt_without (left present) : (contents.without gone).SameAt contents subject).1
    cases subject <;> simp only [Has] at present ⊢ <;> rwa [same] at present
  · intro subject present key
    exact (sameAt_without (left present)).2 key
  · intro subject key value carried
    exact (without_property.mp carried).2

end Contents.Shrinks

namespace Writer

variable {writer after : Writer}

/-- One writer shows the catalog and the properties of another. -/
structure SameProperties (after before : Writer) : Prop where
  catalog : after.merged.catalog = before.merged.catalog
  property : after.merged.contents.property = before.merged.contents.property

theorem SameProperties.refl (writer : Writer) : writer.SameProperties writer := ⟨rfl, rfl⟩

theorem SameProperties.trans {first second third : Writer} (before : second.SameProperties first)
    (after : third.SameProperties second) : third.SameProperties first :=
  ⟨after.catalog.trans before.catalog, after.property.trans before.property⟩

/-- A mutator of the delta that leaves its catalog and its properties alone. -/
theorem SameProperties.of_delta {delta : WriteOverlay}
    (catalog : delta.catalog = writer.delta.catalog)
    (properties : delta.properties = writer.delta.properties) :
    SameProperties { writer with delta } writer := by
  refine ⟨catalog, ?_⟩
  funext subject key
  show (LayeredState.mk writer.base delta.toOverlay).property subject key =
    (LayeredState.mk writer.base writer.delta.toOverlay).property subject key
  -- A property is read off the delta's properties and the base, which both stay.
  unfold LayeredState.property
  rw [properties]

-- Creating and typing records touches no property.

/-- A create whose record goes to no catalog and no property keeps both. -/
theorem create_ok {family : IdFamily} {make : UInt64 → WriteOverlay → WriteOverlay}
    (catalog : ∀ id before, (make id before).catalog = before.catalog)
    (properties : ∀ id before, (make id before).properties = before.properties) {id : UInt64}
    (created : onDelta (WriteOverlay.allocate family >>= fun id =>
      Mutation.modify (make id) >>= fun _ => pure id) writer = (.ok id, after)) :
    after.SameProperties writer := by
  obtain ⟨delta, ran, rfl⟩ := Mutation.onPart_ok created
  obtain ⟨drawn, middle, allocated, rest⟩ := bind_ok.mp ran
  cases rest
  -- Drawing an id moves the allocator alone.
  rcases WriteOverlay.allocate_cases allocated with ⟨never, _⟩ | ⟨_, next, _, rfl⟩
  · cases never
  · exact .of_delta (catalog _ _) (properties _ _)

theorem createElement_ok {id : ElementId} (created : createElement writer = (.ok id, after)) :
    after.SameProperties writer :=
  @create_ok writer after .element
    (fun id writer => writer.apply (·.putElement id) opCreateElement 0 [id])
    (fun _ _ => rfl) (fun _ _ => rfl) id created

theorem createRelation_ok {id : RelationId} (created : createRelation writer = (.ok id, after)) :
    after.SameProperties writer :=
  @create_ok writer after .relation
    (fun id writer => writer.apply (·.putRelation id) opCreateRelation 0 [id])
    (fun _ _ => rfl) (fun _ _ => rfl) id created

variable {relation : RelationId}

/-- The three checks of an incidence change nothing; what is left is the create. -/
theorem createIncidence_checked {element : ElementId} {role : RoleId} {id : IncidenceId}
    (created : createIncidence relation element role writer = (.ok id, after)) :
    onDelta (WriteOverlay.createIncidence relation element role) writer = (.ok id, after) := by
  obtain ⟨_, first, relationThere, afterRelation⟩ := bind_ok.mp created
  obtain ⟨_, rfl⟩ := require_ok.mp relationThere
  obtain ⟨_, second, elementThere, afterElement⟩ := bind_ok.mp afterRelation
  obtain ⟨_, rfl⟩ := require_ok.mp elementThere
  obtain ⟨_, third, roleThere, made⟩ := bind_ok.mp afterElement
  obtain ⟨_, rfl⟩ := require_ok.mp roleThere
  exact made

theorem createIncidence_ok {element : ElementId} {role : RoleId} {id : IncidenceId}
    (created : createIncidence relation element role writer = (.ok id, after)) :
    after.SameProperties writer :=
  @create_ok writer after .incidence
    (fun id writer => writer.apply (·.putIncidence ⟨id, relation, element, role⟩)
      opCreateIncidence 0 [id, relation, element, role])
    (fun _ _ => rfl) (fun _ _ => rfl) id (createIncidence_checked created)

theorem setRelationType_ok {relationType : RelationTypeId}
    (set : setRelationType relation relationType writer = (.ok (), after)) :
    after.SameProperties writer := by
  obtain ⟨_, first, relationThere, afterRelation⟩ := bind_ok.mp set
  obtain ⟨_, rfl⟩ := require_ok.mp relationThere
  obtain ⟨_, second, typeThere, changed⟩ := bind_ok.mp afterRelation
  obtain ⟨_, rfl⟩ := require_ok.mp typeThere
  cases changed
  exact .of_delta rfl rfl

/-- Creating the incidences of a minted relation touches no property. -/
theorem createIncidences_ok {endpoints : List (ElementId × RoleId)}
    (created : (endpoints.forM fun endpoint => do
      let _ ← createIncidence relation endpoint.1 endpoint.2) writer = (.ok (), after)) :
    after.SameProperties writer := by
  induction endpoints generalizing writer with
  | nil =>
    cases created
    exact .refl _
  | cons endpoint rest ih =>
    rw [List.forM] at created
    obtain ⟨_, middle, one, others⟩ := bind_ok.mp created
    obtain ⟨_, _, made, returned⟩ := bind_ok.mp one
    cases returned
    exact (createIncidence_ok made).trans (ih others)

-- Setting a property.

variable {key : PropertyKeyId} {value : PropertyValue} {subject : PropertySubject}

/-- The gate that records nothing compares with the property the merged view shows. -/
theorem visiblePropertyIs_iff :
    writer.delta.toOverlay.visiblePropertyIs writer.base subject key value = true ↔
      writer.merged.contents.property subject key = some value := by
  show _ ↔ writer.merged.property subject key = some value
  unfold Overlay.visiblePropertyIs LayeredState.property merged
  cases nestedGet writer.delta.properties subject key <;> simp

/-- Setting a property that the merged view already shows does nothing. -/
theorem setProperty_unchanged (sound : writer.merged.Sound)
    (carried : writer.merged.contents.property subject key = some value) :
    setProperty subject key value writer = (.ok (), writer) := by
  obtain ⟨present, definition, registered, family, valueType⟩ := sound.integrity.property carried
  -- A subject that carries a property is visible, and the key of the property is registered.
  have visible : requireSubject subject writer = (.ok (), writer) := by
    cases subject with
    | element id =>
      exact (@require_ok DbError Writer writer (·.merged.containsElement id) _ _).mpr
        ⟨present, rfl⟩
    | relation id =>
      exact (@require_ok DbError Writer writer (·.merged.containsRelation id) _ _).mpr
        ⟨present, rfl⟩
    | incidence id =>
      exact (@require_ok DbError Writer writer (·.merged.containsIncidence id) _ _).mpr
        ⟨present, rfl⟩
  have found : propertyKeyDefinition key writer = (.ok definition, writer) := by
    unfold propertyKeyDefinition
    rw [Mutation.read_bind, registered]
    rfl
  refine bind_ok.mpr ⟨(), writer, visible, bind_ok.mpr
    ⟨definition, writer, found, ?_⟩⟩
  rw [if_neg (not_not.mpr family), if_neg (not_not.mpr valueType)]
  -- The delta finds the value already there, and is handed back as it is.
  have gated : writer.delta.setProperty writer.base subject key value = writer.delta :=
    if_pos (visiblePropertyIs_iff.mpr carried)
  show ((.ok (), { writer with delta := writer.delta.setProperty writer.base subject key value }) :
    Except DbError Unit × Writer) = _
  rw [gated]

/-- A property that is set is shown, and nothing else moves. -/
theorem setProperty_ok (set : setProperty subject key value writer = (.ok (), after)) :
    after.merged.catalog = writer.merged.catalog ∧
      after.merged.contents = writer.merged.contents.setSlot subject key (some value) := by
  obtain ⟨_, first, visible, afterSubject⟩ := bind_ok.mp set
  cases requireSubject_ok visible
  obtain ⟨definition, second, found, checked⟩ := bind_ok.mp afterSubject
  obtain ⟨rfl, _⟩ := propertyKeyDefinition_ok found
  split at checked
  · cases checked
  split at checked
  · cases checked
  cases checked
  show (second.delta.setProperty second.base subject key value).catalog = second.delta.catalog ∧
    (LayeredState.mk second.base
      (second.delta.setProperty second.base subject key value).toOverlay).contents = _
  unfold WriteOverlay.setProperty
  split
  · rename_i gated
    -- The slot already holds the value, so replacing it changes nothing.
    refine ⟨rfl, ?_⟩
    have carried := visiblePropertyIs_iff.mp gated
    show second.merged.contents = second.merged.contents.setSlot subject key (some value)
    unfold Contents.setSlot
    refine congrArg (Contents.mk _ _ _) ?_
    funext probe other
    split
    · rename_i same
      obtain ⟨rfl, rfl⟩ := same
      exact carried
    · rfl
  · have applied : (Change.setProperty subject key value).apply second.base
        second.delta.toOverlay =
          .ok (second.delta.toOverlay.setPropertyInner second.base subject key value) := rfl
    exact ⟨rfl, contents_apply applied⟩

-- Retaining.

variable {index : IndexId}

/-- Retaining values under a key that carries no other value does nothing. -/
theorem retain_unchanged (sound : writer.merged.Sound)
    (covers : writer.merged.catalog.Covers index key) {keep : List PropertyValue}
    (kept : ∀ subject, ¬ writer.merged.contents.Stale key keep subject) :
    retain index keep writer = (.ok (), writer) := by
  obtain ⟨entry, found, covers⟩ := covers
  -- Every carrier is kept, so the list of what to tombstone is empty.
  have nothing : ((writer.merged.propertyKeySubjects key).filter fun entry =>
      ¬ (collectSet keep).contains entry.2).map Prod.fst = [] := by
    apply List.eq_nil_iff_forall_not_mem.mpr
    intro subject listed
    exact kept subject ((mem_stale sound key keep subject).mp listed)
  unfold retain
  rw [Mutation.bind_apply, equalityIndexKey_ok found covers]
  show (((writer.merged.propertyKeySubjects key).filter fun entry =>
    ¬ (collectSet keep).contains entry.2).map Prod.fst).forM tombstone writer = _
  rw [nothing]
  rfl

/-- After a retain the key carries kept values alone, and what is left is as it was. -/
theorem retain_ok (sound : writer.merged.Sound) {keep : List PropertyValue}
    (retained : retain index keep writer = (.ok (), after)) :
    after.merged.Sound ∧ after.merged.catalog = writer.merged.catalog ∧
      after.merged.contents.Shrinks writer.merged.contents ∧
      ∃ key, writer.merged.catalog.Covers index key ∧
        ∀ subject, ¬ after.merged.contents.Stale key keep subject := by
  obtain ⟨key, middle, found, _⟩ := bind_ok.mp retained
  obtain ⟨_, entry, present, covers⟩ := of_equalityIndexKey_ok found
  obtain ⟨last, returned, soundAfter, frame, contents⟩ := retain_spec sound present covers keep
  cases retained.symm.trans returned
  rw [contents]
  refine ⟨soundAfter, frame.catalog, .of_without _ _, key, ⟨entry, present, covers⟩, ?_⟩
  rintro subject ⟨value, carried, unkept⟩
  -- A value that is left was there before, on a subject that is not stale.
  obtain ⟨stays, before⟩ := Contents.without_property.mp carried
  exact stays (Contents.falls_of_pruned ⟨value, before, unkept⟩)

-- Upserting.

/-- The next element carries no property yet. -/
theorem element_bare (sound : writer.merged.Sound) (key : PropertyKeyId) :
    writer.merged.contents.property (.element writer.merged.nextIds.element) key = none := by
  refine Option.eq_none_iff_forall_ne_some.mpr fun value carried => ?_
  -- A carrier would be visible, and every visible id is below the next one.
  obtain ⟨record, visible⟩ := Option.isSome_iff_exists.mp (sound.coherent.anchored carried)
  exact UInt64.lt_irrefl _ (sound.coherent.element_lt visible)

/-- The next relation carries no property yet. -/
theorem relation_bare (sound : writer.merged.Sound) (key : PropertyKeyId) :
    writer.merged.contents.property (.relation writer.merged.nextIds.relation) key = none := by
  refine Option.eq_none_iff_forall_ne_some.mpr fun value carried => ?_
  obtain ⟨record, visible⟩ := Option.isSome_iff_exists.mp (sound.coherent.anchored carried)
  exact UInt64.lt_irrefl _ (sound.coherent.relation_lt visible)

/-- Looking up a value that nothing of a family carries finds nothing. -/
theorem findSome?_missed (sound : writer.merged.Sound) {key : PropertyKeyId}
    {value : PropertyValue} {make : UInt64 → PropertySubject}
    {pick : PropertySubject → Option UInt64}
    (only : ∀ subject id, pick subject = some id → subject = make id)
    (missed : ∀ id, writer.merged.property (make id) key ≠ some value) :
    (writer.merged.propertyEqual key value).findSome? pick = none := by
  cases hit : (writer.merged.propertyEqual key value).findSome? pick with
  | none => rfl
  | some id =>
    obtain ⟨subject, listed, picked⟩ := List.exists_of_findSome?_eq_some hit
    cases only subject id picked
    -- What the lookup lists carries the value, and a pick would be of the family.
    have carries := (mem_propertyEqual sound.coherent sound.represents key value _).mp listed
    exact absurd carries (missed id)

/-- Upserting a value no element carries creates an element and gives it the value. -/
theorem upsertElement_missed (sound : writer.merged.Sound) {entry : IndexEntry}
    (found : writer.merged.catalog.index index = some entry)
    (covers : entry.definition = .propertyEquality key) {id : ElementId}
    (missed : ∀ other, writer.merged.property (.element other) key ≠ some value)
    (upserted : upsertElement index value writer = (.ok id, after)) :
    ∃ middle, createElement writer = (.ok id, middle) ∧
      setProperty (.element id) key value middle = (.ok (), after) := by
  have nothing := @findSome?_missed writer sound key value .element asElement asElement_eq_some missed
  rw [upsertElement_eq, Mutation.bind_run (equalityIndexKey_ok found covers), carrierOr_apply,
    nothing] at upserted
  obtain ⟨_, middle, created, rest⟩ := bind_ok.mp upserted
  obtain ⟨_, final, set, returned⟩ := bind_ok.mp rest
  cases returned
  exact ⟨middle, created, set⟩

/-- Upserting a value no relation carries creates a relation with its type, value and ends. -/
theorem upsertRelation_missed (sound : writer.merged.Sound) {entry : IndexEntry}
    (found : writer.merged.catalog.index index = some entry)
    (covers : entry.definition = .propertyEquality key) {relationType : RelationTypeId}
    {endpoints : List (ElementId × RoleId)} {id : RelationId}
    (missed : ∀ other, writer.merged.property (.relation other) key ≠ some value)
    (upserted : upsertRelation index value relationType endpoints writer = (.ok id, after)) :
    ∃ middle typed valued, createRelation writer = (.ok id, middle) ∧
      setRelationType id relationType middle = (.ok (), typed) ∧
      setProperty (.relation id) key value typed = (.ok (), valued) ∧
      (endpoints.forM fun endpoint => do
        let _ ← createIncidence id endpoint.1 endpoint.2) valued = (.ok (), after) := by
  have nothing := @findSome?_missed writer sound key value .relation asRelation asRelation_eq_some missed
  rw [upsertRelation_eq, Mutation.bind_run (equalityIndexKey_ok found covers), carrierOr_apply,
    nothing] at upserted
  obtain ⟨_, middle, created, rest⟩ := bind_ok.mp upserted
  obtain ⟨_, typed, typeSet, rest⟩ := bind_ok.mp rest
  obtain ⟨_, valued, set, rest⟩ := bind_ok.mp rest
  obtain ⟨_, final, attached, returned⟩ := bind_ok.mp rest
  cases returned
  exact ⟨middle, typed, valued, created, typeSet, set, attached⟩

end Writer

namespace Upsert

variable {writer after : Writer}

/-- A call mints a subject: nothing carried the value, and the subject carries nothing else. -/
structure Mints (call : Upsert) (before after : Contents) (key : PropertyKeyId) (id : UInt64) :
    Prop where
  missed : ∀ other, before.property (call.subject other) key ≠ some call.value
  bare : ∀ other, before.property (call.subject id) other = none
  shown : ∀ subject other, after.property subject other =
    if call.subject id = subject ∧ key = other then some call.value
    else before.property subject other

/-- The subjects of two calls are alike when one subject of each is the same. -/
theorem subject_inj {call other : Upsert} {id probe : UInt64}
    (same : call.subject id = other.subject probe) : id = probe ∧ call.subject = other.subject := by
  cases call <;> cases other <;> cases same <;> exact ⟨rfl, rfl⟩

/-- The one subject that is minted answers the call. -/
theorem Mints.answered {call : Upsert} {before after : Contents} {catalog : Catalog}
    {key : PropertyKeyId} {id : UInt64} (mints : call.Mints before after key id)
    (covers : catalog.Covers call.index key) :
    call.Answered after catalog (call.subject id) := by
  refine ⟨key, id, covers, rfl, by rw [mints.shown, if_pos ⟨rfl, rfl⟩], ?_⟩
  intro other carried
  rw [mints.shown] at carried
  split at carried
  · rename_i same
    exact UInt64.le_of_eq (subject_inj same.1).1
  · exact absurd carried (mints.missed other)

variable {subject : PropertySubject}

/-- A call that was answered stays answered when another subject is minted. -/
theorem Mints.keeps {call asked : Upsert} {before after : Contents} {catalog : Catalog}
    {key : PropertyKeyId} {id : UInt64} (mints : call.Mints before after key id)
    (answered : asked.Answered before catalog subject) : asked.Answered after catalog subject := by
  obtain ⟨identity, least, covers, rfl, carried, minimal⟩ := answered
  refine ⟨identity, least, covers, rfl, ?_, ?_⟩
  · -- The minted subject carried nothing, so it is not the one that answers.
    rw [mints.shown, if_neg, carried]
    rintro ⟨same, _⟩
    cases carried.symm.trans (same ▸ mints.bare identity)
  · intro other shown
    rw [mints.shown] at shown
    split at shown
    · -- Under the same key and value the call would have found the subject that answers.
      rename_i same
      obtain ⟨same, rfl⟩ := same
      obtain ⟨_, alike⟩ := subject_inj same
      rw [← alike] at carried
      exact absurd (carried.trans shown.symm) (mints.missed least)
    · exact minimal other shown

/-- An upsert finds the least subject that carries the value, or mints one. -/
theorem run_cases (call : Upsert) (sound : writer.merged.Sound)
    (done : call.run writer = (.ok subject, after)) :
    after.merged.catalog = writer.merged.catalog ∧ ∃ key id,
      writer.merged.catalog.Covers call.index key ∧ subject = call.subject id ∧
        ((after = writer ∧ call.Answered writer.merged.contents writer.merged.catalog subject) ∨
          call.Mints writer.merged.contents after.merged.contents key id) := by
  cases call with
  | element index value =>
    obtain ⟨id, last, upserted, returned⟩ := bind_ok.mp done
    cases returned
    obtain ⟨key, first, keyed, _⟩ := bind_ok.mp upserted
    obtain ⟨rfl, entry, found, covers⟩ := Writer.of_equalityIndexKey_ok keyed
    by_cases carried : ∃ other, first.merged.property (.element other) key = some value
    · -- A hit changes nothing and returns the least carrier.
      obtain ⟨least, returned, carries, minimal⟩ :=
        Writer.upsertElement_hit sound found covers carried
      cases upserted.symm.trans returned
      exact ⟨rfl, key, id, ⟨entry, found, covers⟩, rfl,
        .inl ⟨rfl, key, id, ⟨entry, found, covers⟩, rfl, carries, minimal⟩⟩
    · have missed : ∀ other, first.merged.property (.element other) key ≠ some value :=
        fun other carries => carried ⟨other, carries⟩
      obtain ⟨middle, created, set⟩ :=
        Writer.upsertElement_missed sound found covers missed upserted
      -- Only the set moves a property, and it moves that of the created element.
      have same := Writer.createElement_ok created
      obtain ⟨catalog, contents⟩ := Writer.setProperty_ok set
      refine ⟨catalog.trans same.catalog, key, id, ⟨entry, found, covers⟩, rfl,
        .inr ⟨missed, ?_, ?_⟩⟩
      · intro other
        cases Writer.createElement_id created
        exact Writer.element_bare sound other
      · intro subject other
        rw [contents, ← same.property]
        rfl
  | relation index value relationType endpoints =>
    obtain ⟨id, last, upserted, returned⟩ := bind_ok.mp done
    cases returned
    obtain ⟨key, first, keyed, _⟩ := bind_ok.mp upserted
    obtain ⟨rfl, entry, found, covers⟩ := Writer.of_equalityIndexKey_ok keyed
    by_cases carried : ∃ other, first.merged.property (.relation other) key = some value
    · obtain ⟨least, returned, carries, minimal⟩ :=
        Writer.upsertRelation_hit sound found covers relationType endpoints carried
      cases upserted.symm.trans returned
      exact ⟨rfl, key, id, ⟨entry, found, covers⟩, rfl,
        .inl ⟨rfl, key, id, ⟨entry, found, covers⟩, rfl, carries, minimal⟩⟩
    · have missed : ∀ other, first.merged.property (.relation other) key ≠ some value :=
        fun other carries => carried ⟨other, carries⟩
      obtain ⟨middle, typed, valued, created, typeSet, set, attached⟩ :=
        Writer.upsertRelation_missed sound found covers missed upserted
      -- The type and the incidences move no property.
      have before := (Writer.createRelation_ok created).trans (Writer.setRelationType_ok typeSet)
      have later := Writer.createIncidences_ok attached
      obtain ⟨catalog, contents⟩ := Writer.setProperty_ok set
      refine ⟨later.catalog.trans (catalog.trans before.catalog), key, id,
        ⟨entry, found, covers⟩, rfl, .inr ⟨missed, ?_, ?_⟩⟩
      · intro other
        cases Writer.createRelation_id created
        exact Writer.relation_bare sound other
      · intro subject other
        rw [later.property, contents, ← before.property]
        rfl

/-- An upsert that succeeds is answered, and keeps the answers before it. -/
theorem run_ok (call : Upsert) (sound : writer.merged.Sound)
    (done : call.run writer = (.ok subject, after)) :
    after.merged.catalog = writer.merged.catalog ∧
      call.Answered after.merged.contents writer.merged.catalog subject ∧
      ∀ {asked : Upsert} {answer},
        asked.Answered writer.merged.contents writer.merged.catalog answer →
          asked.Answered after.merged.contents writer.merged.catalog answer := by
  obtain ⟨catalog, key, id, covers, rfl, ⟨rfl, answered⟩ | mints⟩ := call.run_cases sound done
  · exact ⟨rfl, answered, fun before => before⟩
  · exact ⟨catalog, mints.answered covers, mints.keeps⟩

/-- An upsert that is answered already returns its answer and does nothing. -/
theorem run_answered (call : Upsert) (sound : writer.merged.Sound)
    (answered : call.Answered writer.merged.contents writer.merged.catalog subject) :
    call.run writer = (.ok subject, writer) := by
  obtain ⟨key, least, ⟨entry, found, covers⟩, rfl, carried, minimal⟩ := answered
  cases call with
  | element index value =>
    obtain ⟨id, returned, carries, below⟩ :=
      Writer.upsertElement_hit sound found covers ⟨least, carried⟩
    -- Both are the least carrier, so the hit is the answer.
    cases UInt64.le_antisymm (below least carried) (minimal id carries)
    exact bind_ok.mpr ⟨_, writer, returned, rfl⟩
  | relation index value relationType endpoints =>
    obtain ⟨id, returned, carries, below⟩ :=
      Writer.upsertRelation_hit sound found covers relationType endpoints ⟨least, carried⟩
    cases UInt64.le_antisymm (below least carried) (minimal id carries)
    exact bind_ok.mpr ⟨_, writer, returned, rfl⟩

/-- An upsert keeps its view sound. -/
theorem run_guarded (call : Upsert) : Writer.Guarded call.run := by
  cases call with
  | element index value =>
    exact fun state => .bind (Writer.upsertElement_guarded index value state) fun _ _ _ => .pure _
  | relation index value relationType endpoints =>
    exact fun state =>
      .bind (Writer.upsertRelation_guarded index value relationType endpoints state)
        fun _ _ _ => .pure _

end Upsert

end Oxgraph
