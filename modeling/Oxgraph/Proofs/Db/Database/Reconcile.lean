import Oxgraph.Spec.Reconcile
import Oxgraph.Proofs.Db.Database.Integrity

/-! Reconciling against an equality index prunes the subjects not kept, and nothing else. -/

namespace Oxgraph

-- One tombstone.

variable {view : LayeredState} {id : IncidenceId}

/-- A scan of the incidences finds the visible ones that it keeps. -/
theorem mem_incidencesScan (sound : view.Sound) {keep : IncidenceRecord → Prop}
    [DecidablePred keep] :
    id ∈ (view.incidences.filter fun record => keep record).map IncidenceRecord.id ↔
      ∃ record, view.incidence id = some record ∧ keep record := by
  obtain ⟨members, _⟩ := incidences_spec sound.coherent
  rw [List.mem_map]
  constructor
  · rintro ⟨record, listed, rfl⟩
    obtain ⟨visible, kept⟩ := List.mem_filter.mp listed
    exact ⟨record, (members record).mp visible, of_decide_eq_true kept⟩
  · rintro ⟨record, visible, kept⟩
    obtain rfl := sound.coherent.keyed.incidence visible
    exact ⟨record, List.mem_filter.mpr ⟨(members record).mpr visible, decide_eq_true kept⟩, rfl⟩

/-- The incidences an element's adjacency lookup finds are those attached to it. -/
theorem mem_elementIncidences (sound : view.Sound) {element : ElementId} :
    id ∈ (view.elementIncidences element).map IncidenceRecord.id ↔
      ∃ record, view.incidence id = some record ∧ record.element = element := by
  rw [elementIncidences_eq_scan sound.coherent sound.represents]
  exact mem_incidencesScan sound

/-- The incidences a relation's adjacency lookup finds are those that belong to it. -/
theorem mem_relationIncidences (sound : view.Sound) {relation : RelationId} :
    id ∈ (view.relationIncidences relation).map IncidenceRecord.id ↔
      ∃ record, view.incidence id = some record ∧ record.relation = relation := by
  rw [relationIncidences_eq_scan sound.coherent sound.represents]
  exact mem_incidencesScan sound

/-- Masking an element and the incidences attached to it is pruning it. -/
theorem cascadeElement_eq_without {contents : Contents} {id : ElementId} {ids : List IncidenceId}
    (listed : ∀ probe, probe ∈ ids ↔
      ∃ record, contents.incidence probe = some record ∧ record.element = id) :
    ((Change.tombstoneElement id).effect contents).maskIncidences ids =
      contents.without (contents.Falls (· = .element id)) := by
  have falls (probe : IncidenceId) :
      contents.Falls (· = .element id) (.incidence probe) ↔ probe ∈ ids := by
    rw [listed]
    simp [Contents.Falls]
  unfold Contents.maskIncidences Change.effect Contents.maskSubject Contents.without override
  congr 1
  · funext probe
    simp [Contents.Falls, eq_comm]
  · funext probe
    simp [Contents.Falls]
  · funext probe
    simp only [falls]
  · funext subject key
    cases subject with
    | element probe => simp [Contents.Falls, eq_comm]
    | relation probe => simp [Contents.Falls]
    | incidence probe =>
      simp only [falls]
      simp

/-- Masking a relation and the incidences that belong to it is pruning it. -/
theorem cascadeRelation_eq_without {contents : Contents} {id : RelationId}
    {ids : List IncidenceId} (listed : ∀ probe, probe ∈ ids ↔
      ∃ record, contents.incidence probe = some record ∧ record.relation = id) :
    ((Change.tombstoneRelation id).effect contents).maskIncidences ids =
      contents.without (contents.Falls (· = .relation id)) := by
  have falls (probe : IncidenceId) :
      contents.Falls (· = .relation id) (.incidence probe) ↔ probe ∈ ids := by
    rw [listed]
    simp [Contents.Falls]
  unfold Contents.maskIncidences Change.effect Contents.maskSubject Contents.without override
  congr 1
  · funext probe
    simp [Contents.Falls]
  · funext probe
    simp [Contents.Falls, eq_comm]
  · funext probe
    simp only [falls]
  · funext subject key
    cases subject with
    | element probe => simp [Contents.Falls]
    | relation probe => simp [Contents.Falls, eq_comm]
    | incidence probe =>
      simp only [falls]
      simp

/-- Masking an incidence is pruning it. -/
theorem tombstoneIncidence_eq_without (contents : Contents) (id : IncidenceId) :
    (Change.tombstoneIncidence id).effect contents =
      contents.without (contents.Falls (· = .incidence id)) := by
  show (⟨contents.element, contents.relation, override contents.incidence id none,
    (contents.maskSubject (.incidence id)).property⟩ : Contents) = _
  unfold Contents.maskSubject Contents.without override
  congr 1
  · funext probe
    simp [Contents.Falls]
  · funext probe
    simp [Contents.Falls]
  · funext probe
    simp [Contents.Falls, eq_comm]
  · funext subject key
    cases subject <;> simp [Contents.Falls, eq_comm]

namespace Writer

/-- Two writers agree on the catalog, the allocators and what they are layered over. -/
structure SameFrame (left right : Writer) : Prop where
  parent : left.parent = right.parent
  catalog : left.merged.catalog = right.merged.catalog
  nextIds : left.merged.nextIds = right.merged.nextIds

theorem SameFrame.refl (writer : Writer) : writer.SameFrame writer := ⟨rfl, rfl, rfl⟩

theorem SameFrame.trans {first second third : Writer} (before : first.SameFrame second)
    (after : second.SameFrame third) : first.SameFrame third :=
  ⟨before.parent.trans after.parent, before.catalog.trans after.catalog,
    before.nextIds.trans after.nextIds⟩

variable {writer : Writer}

/-- Tombstoning a visible subject succeeds and prunes exactly that subject. -/
theorem tombstone_spec (sound : writer.merged.Sound) {subject : PropertySubject}
    (visible : writer.merged.contents.Has subject) :
    ∃ after, tombstone subject writer = (.ok (), after) ∧ after.merged.Sound ∧
      after.SameFrame writer ∧ after.merged.contents =
        writer.merged.contents.without (writer.merged.contents.Falls (· = subject)) := by
  have kept {after : Writer} (returned : tombstone subject writer = (.ok (), after)) :
      after.merged.Sound := by
    have steps := tombstone_guarded subject writer
    unfold Mutation.Steps at steps
    rw [returned] at steps
    exact Step.sound steps sound
  cases subject with
  | element id =>
    have returned := @Mutation.require_bind_ok DbError Writer Unit writer
      (fun writer => writer.merged.containsElement id) (.unknown .element id)
      (fun _ => Mutation.read >>= fun writer => change fun delta base => tombstoneIncidences base
        ((writer.merged.elementIncidences id).map IncidenceRecord.id)
        (delta.tombstoneElement base id)) visible
    refine ⟨_, returned, kept returned, ?_⟩
    obtain ⟨contents, catalog, next⟩ := tombstoneIncidences_view writer.base
      ((writer.merged.elementIncidences id).map IncidenceRecord.id)
      (writer.delta.tombstoneElement writer.base id)
    refine ⟨⟨rfl, catalog, next⟩, contents.trans ?_⟩
    have masked : (Change.tombstoneElement id).apply writer.base writer.delta.toOverlay =
        .ok (writer.delta.tombstoneElement writer.base id).toOverlay := rfl
    rw [contents_apply masked]
    exact cascadeElement_eq_without fun probe => mem_elementIncidences sound
  | relation id =>
    have returned := @Mutation.require_bind_ok DbError Writer Unit writer
      (fun writer => writer.merged.containsRelation id) (.unknown .relation id)
      (fun _ => Mutation.read >>= fun writer => change fun delta base => tombstoneIncidences base
        ((writer.merged.relationIncidences id).map IncidenceRecord.id)
        (delta.tombstoneRelation base id)) visible
    refine ⟨_, returned, kept returned, ?_⟩
    obtain ⟨contents, catalog, next⟩ := tombstoneIncidences_view writer.base
      ((writer.merged.relationIncidences id).map IncidenceRecord.id)
      (writer.delta.tombstoneRelation writer.base id)
    refine ⟨⟨rfl, catalog, next⟩, contents.trans ?_⟩
    have masked : (Change.tombstoneRelation id).apply writer.base writer.delta.toOverlay =
        .ok (writer.delta.tombstoneRelation writer.base id).toOverlay := rfl
    rw [contents_apply masked]
    exact cascadeRelation_eq_without fun probe => mem_relationIncidences sound
  | incidence id =>
    have returned := @Mutation.require_bind_ok DbError Writer Unit writer
      (fun writer => writer.merged.containsIncidence id) (.unknown .incidence id)
      (fun _ => change fun delta base => delta.tombstoneIncidence base id) visible
    refine ⟨_, returned, kept returned, ⟨rfl, rfl, rfl⟩, ?_⟩
    have masked : (Change.tombstoneIncidence id).apply writer.base writer.delta.toOverlay =
        .ok (writer.delta.tombstoneIncidence writer.base id).toOverlay := rfl
    exact (contents_apply masked).trans (tombstoneIncidence_eq_without _ _)

/-- Pruning one subject of a family leaves the other subjects of that family. -/
theorem not_falls_of_family {contents : Contents} {head subject : PropertySubject}
    (family : subject.family = head.family) (apart : subject ≠ head) :
    ¬ contents.Falls (· = head) subject := by
  cases subject with
  | element id | relation id => exact apart
  | incidence id =>
    cases head with
    | element other | relation other => cases family
    | incidence other =>
      rintro (same | ⟨record, _, touched⟩)
      · exact apart same
      · simp at touched

/-- Tombstoning distinct visible subjects of one family succeeds and prunes exactly those. -/
theorem tombstoneAll_spec {family : PropertyFamily} {subjects : List PropertySubject}
    {writer : Writer} (sound : writer.merged.Sound) (distinct : subjects.Nodup)
    (own : ∀ subject ∈ subjects, subject.family = family)
    (visible : ∀ subject ∈ subjects, writer.merged.contents.Has subject) :
    ∃ after, subjects.forM tombstone writer = (.ok (), after) ∧ after.merged.Sound ∧
      after.SameFrame writer ∧ after.merged.contents =
        writer.merged.contents.without (writer.merged.contents.Falls (· ∈ subjects)) := by
  -- The rest of the list survives its head, because no cascade reaches its family.
  induction subjects generalizing writer with
  | nil =>
    refine ⟨writer, rfl, sound, .refl writer, ?_⟩
    have nothing : writer.merged.contents.Falls (· ∈ ([] : List PropertySubject)) =
        fun _ => False := by
      funext subject
      cases subject <;> simp [Contents.Falls]
    rw [nothing]
    simp [Contents.without]
  | cons head rest ih =>
    rw [List.nodup_cons] at distinct
    obtain ⟨middle, first, middleSound, frame, contents⟩ := tombstone_spec sound
      (visible head (by simp))
    have stillVisible : ∀ subject ∈ rest, middle.merged.contents.Has subject := by
      intro subject member
      rw [contents]
      apply Contents.has_without ?_ (visible subject (by simp [member]))
      apply not_falls_of_family
      · rw [own subject (by simp [member]), own head (by simp)]
      · rintro rfl
        exact distinct.1 member
    obtain ⟨after, run, afterSound, afterFrame, afterContents⟩ := ih middleSound distinct.2
      (fun subject member => own subject (by simp [member])) stillVisible
    refine ⟨after, ?_, afterSound, afterFrame.trans frame, ?_⟩
    · show (tombstone head >>= fun _ => rest.forM tombstone) writer = _
      rw [Mutation.bind_apply, first]
      exact run
    · rw [afterContents, contents, Contents.without_without]
      congr 1
      funext subject
      exact propext (Contents.falls_cons _ head rest subject)

-- Pruning.

variable {key : PropertyKeyId} {entry : IndexEntry} {index : IndexId}

/-- An equality index over a key resolves to that key. -/
theorem equalityIndexKey_ok (found : writer.merged.catalog.index index = some entry)
    (covers : entry.definition = .propertyEquality key) :
    equalityIndexKey index writer = (.ok key, writer) := by
  simp only [equalityIndexKey, Mutation.read_bind, found, covers]
  rfl

/-- The subjects to tombstone: those carrying the key with a value that is not kept. -/
theorem mem_stale (sound : writer.merged.Sound) (key : PropertyKeyId)
    (keep : List PropertyValue) (subject : PropertySubject) :
    subject ∈ ((writer.merged.propertyKeySubjects key).filter fun entry =>
      ¬ (collectSet keep).contains entry.2).map Prod.fst ↔
      writer.merged.contents.Stale key keep subject := by
  rw [propertyKeySubjects_eq_scan sound.coherent sound.represents]
  have kept (value : PropertyValue) : (collectSet keep).contains value ↔ value ∈ keep := by
    rw [Std.ExtTreeSet.contains_iff_mem, mem_collectSet]
  simp only [LayeredState.propertyKeySubjectsScan, List.mem_map, List.mem_filter, kept,
    decide_eq_true_eq]
  constructor
  · rintro ⟨_, ⟨⟨⟨⟨carrier, other⟩, value⟩, ⟨listed, same⟩, rfl⟩, unkept⟩, rfl⟩
    cases same
    exact ⟨value, mem_properties.mp listed, unkept⟩
  · rintro ⟨value, carried, unkept⟩
    exact ⟨(subject, value), ⟨⟨_, ⟨mem_properties.mpr carried, rfl⟩, rfl⟩, unkept⟩, rfl⟩

/-- Each subject to tombstone is listed once. -/
theorem nodup_stale (sound : writer.merged.Sound) (key : PropertyKeyId)
    (keep : PropertySubject × PropertyValue → Bool) :
    (((writer.merged.propertyKeySubjects key).filter keep).map Prod.fst).Nodup := by
  rw [propertyKeySubjects_eq_scan sound.coherent sound.represents]
  have sorted : Ascending ((writer.merged.propertyKeySubjectsScan key).map Prod.fst) := by
    unfold LayeredState.propertyKeySubjectsScan
    rw [List.map_map]
    exact ascending_subjects key _ fun entry own => of_decide_eq_true own
  exact sorted.nodup.sublist (List.filter_sublist.map Prod.fst)

variable {value : PropertyValue}

/-- A subject that carries a kept value does not fall with the stale ones. -/
theorem not_falls_of_kept (sound : writer.merged.Sound) {keep : List PropertyValue}
    {subject : PropertySubject} (carried : writer.merged.property subject key = some value)
    (kept : value ∈ keep) :
    ¬ writer.merged.contents.Falls (writer.merged.contents.Stale key keep) subject := by
  have fresh : ¬ writer.merged.contents.Stale key keep subject := by
    rintro ⟨other, read, unkept⟩
    cases carried.symm.trans read
    exact unkept kept
  -- A key accepts one family, so nothing stale is of the family of an incidence's ends.
  have family {other : PropertySubject} (stale : writer.merged.contents.Stale key keep other) :
      other.family = subject.family := by
    obtain ⟨_, read, _⟩ := stale
    obtain ⟨_, definition, registered, own, _⟩ := sound.integrity.property read
    obtain ⟨_, again, registeredAgain, ownAgain, _⟩ := sound.integrity.property carried
    cases registered.symm.trans registeredAgain
    exact own.symm.trans ownAgain
  cases subject with
  | element id | relation id => exact fresh
  | incidence id =>
    rintro (stale | ⟨record, _, stale | stale⟩)
    · exact fresh stale
    · cases family stale
    · cases family stale

/-- Retaining a list of values prunes exactly the subjects that carry another value. -/
theorem retain_spec (sound : writer.merged.Sound)
    (found : writer.merged.catalog.index index = some entry)
    (covers : entry.definition = .propertyEquality key) (keep : List PropertyValue) :
    ∃ after, retain index keep writer = (.ok (), after) ∧ after.merged.Sound ∧
      after.SameFrame writer ∧ after.merged.contents = writer.merged.contents.without
        (writer.merged.contents.Falls (writer.merged.contents.Stale key keep)) := by
  have members := mem_stale sound key keep
  have distinct := nodup_stale sound key fun entry => ¬ (collectSet keep).contains entry.2
  have resolved := equalityIndexKey_ok found covers
  have unfolded : retain index keep writer =
      (((writer.merged.propertyKeySubjects key).filter fun entry =>
        ¬ (collectSet keep).contains entry.2).map Prod.fst).forM tombstone writer := by
    unfold retain
    rw [Mutation.bind_apply, resolved]
    rfl
  rw [unfolded]
  generalize (((writer.merged.propertyKeySubjects key).filter fun entry =>
    ¬ (collectSet keep).contains entry.2).map Prod.fst) = stale at members distinct
  -- Every stale subject is visible and of the key's family.
  have carries {subject : PropertySubject} (member : subject ∈ stale) :
      writer.merged.contents.Has subject ∧ ∃ definition,
        writer.merged.catalog.propertyKey key = some definition ∧
          definition.family = subject.family := by
    obtain ⟨value, carried, _⟩ := (members subject).mp member
    obtain ⟨present, definition, registered, family, _⟩ := sound.integrity.property carried
    exact ⟨present, definition, registered, family⟩
  have same : (· ∈ stale) = writer.merged.contents.Stale key keep :=
    funext fun subject => propext (members subject)
  rw [← same]
  cases registered : writer.merged.catalog.propertyKey key with
  | none =>
    -- Nothing carries an unregistered key, so the list is empty.
    refine @tombstoneAll_spec .element stale writer sound distinct ?_ fun subject member =>
      (carries member).1
    intro subject member
    obtain ⟨_, definition, known, _⟩ := carries member
    cases registered.symm.trans known
  | some definition =>
    refine @tombstoneAll_spec definition.family stale writer sound distinct ?_
      fun subject member => (carries member).1
    intro subject member
    obtain ⟨_, other, known, family⟩ := carries member
    cases registered.symm.trans known
    exact family.symm

-- Hits.

/-- The first pick in an ascending list is the least one. -/
theorem findSome?_least {K T : Type} [Ord K] {items : List K} {pick : K → Option T}
    (sorted : Ascending items) {item : K} {value : T} (member : item ∈ items)
    (picked : pick item = some value) :
    ∃ first ∈ items, ∃ least, pick first = some least ∧ items.findSome? pick = some least ∧
      (first = item ∨ compare first item = .lt) := by
  induction items with
  | nil => cases member
  | cons head rest ih =>
    rw [ascending_cons] at sorted
    cases own : pick head with
    | some least =>
      refine ⟨head, by simp, least, own, by rw [List.findSome?_cons, own], ?_⟩
      rcases List.mem_cons.mp member with same | later
      · exact .inl same.symm
      · exact .inr (sorted.1 item later)
    | none =>
      rcases List.mem_cons.mp member with rfl | later
      · cases own.symm.trans picked
      · obtain ⟨first, inside, least, found, result, order⟩ := ih sorted.2 later
        refine ⟨first, by simp [inside], least, found, ?_, order⟩
        rw [List.findSome?_cons, own]
        exact result

/-- The subjects an equality lookup lists come in order. -/
theorem ascending_propertyEqual (key : PropertyKeyId) (value : PropertyValue) :
    Ascending (writer.merged.propertyEqual key value) := ascending_mergePosting _ _ _

/-- Looking up a carried value finds the least carrier of the family that is looked for. -/
theorem findSome?_propertyEqual (sound : writer.merged.Sound) {key : PropertyKeyId}
    {value : PropertyValue} {make : UInt64 → PropertySubject}
    {pick : PropertySubject → Option UInt64} (picks : ∀ id, pick (make id) = some id)
    (only : ∀ subject id, pick subject = some id → subject = make id)
    (ordered : ∀ {id other}, compare (make id) (make other) = .lt → id ≤ other)
    (carried : ∃ id, writer.merged.property (make id) key = some value) :
    ∃ least, (writer.merged.propertyEqual key value).findSome? pick = some least ∧
      writer.merged.property (make least) key = some value ∧
      ∀ id, writer.merged.property (make id) key = some value → least ≤ id := by
  have members := mem_propertyEqual sound.coherent sound.represents key value
  have sorted := @ascending_propertyEqual writer key value
  obtain ⟨some_id, some_carried⟩ := carried
  obtain ⟨first, listed, least, picked, result, _⟩ :=
    findSome?_least sorted ((members _).mpr some_carried) (picks some_id)
  cases only first least picked
  refine ⟨least, result, (members _).mp listed, ?_⟩
  intro id also
  obtain ⟨other, _, again, pickedAgain, resultAgain, order⟩ :=
    findSome?_least sorted ((members _).mpr also) (picks id)
  -- The search is a function, so the least one found from here is the same.
  cases result.symm.trans resultAgain
  cases only other least pickedAgain
  rcases order with same | before
  · cases (picks least).symm.trans ((congrArg pick same).trans (picks id))
    exact UInt64.le_refl _
  · exact ordered before

/-- Subjects of one variant compare as their ids do. -/
theorem le_of_compare_id {id other : UInt64} (before : compare id other = .lt) : id ≤ other := by
  exact UInt64.le_of_lt (Std.compare_eq_lt.mp before)

/-- Upserting a value some element carries returns the least such element and changes nothing. -/
theorem upsertElement_hit (sound : writer.merged.Sound)
    (found : writer.merged.catalog.index index = some entry)
    (covers : entry.definition = .propertyEquality key)
    (carried : ∃ id, writer.merged.property (.element id) key = some value) :
    ∃ id, upsertElement index value writer = (.ok id, writer) ∧
      writer.merged.property (.element id) key = some value ∧
      ∀ other, writer.merged.property (.element other) key = some value → id ≤ other := by
  obtain ⟨least, result, carries, below⟩ := @findSome?_propertyEqual writer sound key value
    .element asElement (fun _ => rfl) asElement_eq_some (fun before => le_of_compare_id before) carried
  refine ⟨least, ?_, carries, below⟩
  rw [upsertElement_eq, Mutation.bind_run (equalityIndexKey_ok found covers), carrierOr_apply, result]

/-- Upserting a value some relation carries returns the least such relation and changes nothing. -/
theorem upsertRelation_hit (sound : writer.merged.Sound)
    (found : writer.merged.catalog.index index = some entry)
    (covers : entry.definition = .propertyEquality key) (relationType : RelationTypeId)
    (endpoints : List (ElementId × RoleId))
    (carried : ∃ id, writer.merged.property (.relation id) key = some value) :
    ∃ id, upsertRelation index value relationType endpoints writer = (.ok id, writer) ∧
      writer.merged.property (.relation id) key = some value ∧
      ∀ other, writer.merged.property (.relation other) key = some value → id ≤ other := by
  obtain ⟨least, result, carries, below⟩ := @findSome?_propertyEqual writer sound key value
    .relation asRelation (fun _ => rfl) asRelation_eq_some (fun before => le_of_compare_id before) carried
  refine ⟨least, ?_, carries, below⟩
  rw [upsertRelation_eq, Mutation.bind_run (equalityIndexKey_ok found covers), carrierOr_apply, result]

/--
Reconciling against an equality index prunes exactly the complement of the kept values.

What stays is untouched, the stale subjects go with the incidences that touch them, and an upsert
of a value that is already carried returns its carrier and changes nothing.
-/
theorem reconcile_prunes (sound : writer.merged.Sound) {index : IndexId} {entry : IndexEntry}
    {key : PropertyKeyId} (found : writer.merged.catalog.index index = some entry)
    (covers : entry.definition = .propertyEquality key) :
    (∀ keep, ∃ after, retain index keep writer = (.ok (), after) ∧
      (∀ subject value, after.merged.property subject key = some value → value ∈ keep) ∧
      (∀ subject value, writer.merged.property subject key = some value → value ∈ keep →
        after.merged.contents.SameAt writer.merged.contents subject) ∧
      (∀ subject, ¬ writer.merged.contents.Falls (writer.merged.contents.Stale key keep) subject →
        after.merged.contents.SameAt writer.merged.contents subject) ∧
      (∀ subject, writer.merged.contents.Falls (writer.merged.contents.Stale key keep) subject →
        ¬ after.merged.contents.Has subject) ∧
      after.SameFrame writer ∧ after.merged.Sound) ∧
    (∀ value, (∃ id, writer.merged.property (.element id) key = some value) →
      ∃ id, upsertElement index value writer = (.ok id, writer) ∧
        writer.merged.property (.element id) key = some value ∧
        ∀ other, writer.merged.property (.element other) key = some value → id ≤ other) ∧
    (∀ value relationType endpoints,
      (∃ id, writer.merged.property (.relation id) key = some value) →
      ∃ id, upsertRelation index value relationType endpoints writer = (.ok id, writer) ∧
        writer.merged.property (.relation id) key = some value ∧
        ∀ other, writer.merged.property (.relation other) key = some value → id ≤ other) := by
  refine ⟨fun keep => ?_, fun value => upsertElement_hit sound found covers,
    fun value => upsertRelation_hit sound found covers⟩
  obtain ⟨after, returned, afterSound, frame, contents⟩ := retain_spec sound found covers keep
  have left {subject : PropertySubject}
      (stays : ¬ writer.merged.contents.Falls (writer.merged.contents.Stale key keep) subject) :
      after.merged.contents.SameAt writer.merged.contents subject := by
    rw [contents]
    exact Contents.sameAt_without stays
  refine ⟨after, returned, ?_, ?_, fun subject => left, ?_, frame, afterSound⟩
  · intro subject value carried
    -- A value still there was there before, on a subject that is not stale.
    change after.merged.contents.property subject key = some value at carried
    rw [contents] at carried
    obtain ⟨stays, before⟩ := Contents.without_property.mp carried
    by_contra unkept
    exact stays (Contents.falls_of_pruned ⟨value, before, unkept⟩)
  · intro subject value carried kept
    exact left (not_falls_of_kept sound carried kept)
  · intro subject falls
    rw [contents]
    exact Contents.not_has_without falls

/-- A store with a property-equality index over an integer key, and one element under it. -/
def indexedWriter : Writer :=
  WriterOp.runAll [.registerPropertyKey "size" .element .integer,
      .defineIndex "by_size" (.propertyEquality 1), .upsertElement 1 (.integer 7)]
    ⟨⟨0, 0, .empty .initial .empty, .empty⟩, .fromOverlay (.empty .initial .empty), 1⟩

theorem indexedWriter_sound : indexedWriter.merged.Sound :=
  Step.sound (WriterOp.runAll_steps _ _) LayeredState.sound_empty

theorem indexedWriter_index : indexedWriter.merged.catalog.index 1 =
    some ⟨1, "by_size", .propertyEquality 1⟩ := rfl

/-- Keeping another value prunes the element, and no value but that one is left. -/
theorem indexedWriter_retain : ∃ after,
    retain 1 [.integer 8] indexedWriter = (.ok (), after) ∧
      ∀ subject value, after.merged.property subject 1 = some value → value ∈ [.integer 8] := by
  obtain ⟨prunes, _, _⟩ := reconcile_prunes indexedWriter_sound indexedWriter_index rfl
  obtain ⟨after, returned, kept, _⟩ := prunes [.integer 8]
  exact ⟨after, returned, kept⟩

end Writer

end Oxgraph
