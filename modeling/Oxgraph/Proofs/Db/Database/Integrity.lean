import Oxgraph.Spec.Coherent
import Oxgraph.Proofs.Db.Database.Coherent
import Oxgraph.Proofs.Db.Overlay.Lookup

/-! The writer's checks and its tombstone cascades keep referential integrity. -/

namespace Oxgraph

section Override

variable {Record : Type} {read : UInt64 → Option Record} {key probe : UInt64} {record : Record}

/-- Putting a record hides none. -/
theorem isSome_override_some (present : (read probe).isSome) :
    (override read key (some record) probe).isSome := by
  unfold override
  split
  · rfl
  · exact present

/-- Editing a record hides none. -/
theorem isSome_override_map {edit : Record → Record} (present : (read probe).isSome) :
    (override read key ((read key).map edit) probe).isSome := by
  unfold override
  split
  · rename_i same
    subst same
    rwa [Option.isSome_map]
  · exact present

/-- An overridden read is the record put at the key, or an old one elsewhere. -/
theorem override_eq_some {slot : Option Record}
    (found : override read key slot probe = some record) :
    (key = probe ∧ slot = some record) ∨ read probe = some record := by
  unfold override at found
  split at found
  · rename_i same
    exact .inl ⟨same, found⟩
  · exact .inr found

/-- An edited read is an edited old record, or an old one. -/
theorem override_map_eq_some {edit : Record → Record}
    (found : override read key ((read key).map edit) probe = some record) :
    (∃ old, read probe = some old ∧ record = edit old) ∨ read probe = some record := by
  rcases override_eq_some found with ⟨rfl, mapped⟩ | old
  · obtain ⟨old, present, rfl⟩ := Option.map_eq_some_iff.mp mapped
    exact .inl ⟨old, present, rfl⟩
  · exact .inr old

end Override

namespace Contents.Integrity

variable {contents after : Contents} {catalog : Catalog}

/-- Dropping records keeps integrity when what is left still refers to what is left. -/
theorem restrict (integrity : contents.Integrity catalog)
    (element : ∀ {id record}, after.element id = some record → contents.element id = some record)
    (relation : ∀ {id record},
      after.relation id = some record → contents.relation id = some record)
    (incidence : ∀ {id record}, after.incidence id = some record →
      contents.incidence id = some record ∧ (after.relation record.relation).isSome ∧
        (after.element record.element).isSome)
    (property : ∀ {subject key value}, after.property subject key = some value →
      contents.property subject key = some value ∧ after.Has subject) :
    after.Integrity catalog where
  incidence found := by
    obtain ⟨old, relationLeft, elementLeft⟩ := incidence found
    exact ⟨relationLeft, elementLeft, (integrity.incidence old).2.2⟩
  property found := by
    obtain ⟨old, left⟩ := property found
    exact ⟨left, (integrity.property old).2⟩
  elementLabel found := integrity.elementLabel (element found)
  relationLabel found := integrity.relationLabel (relation found)
  relationType found := integrity.relationType (relation found)

/-- More catalog entries keep integrity. -/
theorem extend {wider : Catalog} (integrity : contents.Integrity catalog)
    (added : wider.Grows catalog) : contents.Integrity wider where
  incidence found := by
    obtain ⟨relation, element, role⟩ := integrity.incidence found
    exact ⟨relation, element, Catalog.Grows.isSome added.roles.entries role⟩
  property found := by
    obtain ⟨present, definition, registered, family, type⟩ := integrity.property found
    exact ⟨present, definition, added.propertyKeys.entries registered, family, type⟩
  elementLabel found carried :=
    Catalog.Grows.isSome added.labels.entries (integrity.elementLabel found carried)
  relationLabel found carried :=
    Catalog.Grows.isSome added.labels.entries (integrity.relationLabel found carried)
  relationType found typed :=
    Catalog.Grows.isSome added.relationTypes.entries (integrity.relationType found typed)

/-- Adding and editing records keeps integrity when every reference they carry is known. -/
theorem grow (integrity : contents.Integrity catalog)
    (elements : ∀ {id}, (contents.element id).isSome → (after.element id).isSome)
    (relations : ∀ {id}, (contents.relation id).isSome → (after.relation id).isSome)
    (incidences : ∀ {id}, (contents.incidence id).isSome → (after.incidence id).isSome)
    (properties : after.property = contents.property)
    (incidence : ∀ {id record}, after.incidence id = some record →
      contents.incidence id = some record ∨ (contents.relation record.relation).isSome ∧
        (contents.element record.element).isSome ∧ (catalog.role record.role).isSome)
    (elementLabel : ∀ {id record label}, after.element id = some record →
      label ∈ record.labels → (catalog.label label).isSome)
    (relationLabel : ∀ {id record label}, after.relation id = some record →
      label ∈ record.labels → (catalog.label label).isSome)
    (relationType : ∀ {id record relationType}, after.relation id = some record →
      record.relationType = some relationType → (catalog.relationType relationType).isSome) :
    after.Integrity catalog where
  incidence found := by
    rcases incidence found with old | known
    · obtain ⟨relation, element, role⟩ := integrity.incidence old
      exact ⟨relations relation, elements element, role⟩
    · exact ⟨relations known.1, elements known.2.1, known.2.2⟩
  property {subject key value} found := by
    rw [properties] at found
    obtain ⟨present, typed⟩ := integrity.property found
    refine ⟨?_, typed⟩
    cases subject with
    | element id => exact elements present
    | relation id => exact relations present
    | incidence id => exact incidences present
  elementLabel := elementLabel
  relationLabel := relationLabel
  relationType := relationType

/-- Every allowed mutation but a registration keeps integrity. -/
theorem effect {view : LayeredState} {change : Change}
    (integrity : view.contents.Integrity view.catalog) (allowed : change.Allowed view) :
    (change.effect view.contents).Integrity view.catalog := by
  cases change with
  | register entry => exact integrity
  | createElement id =>
    refine integrity.grow isSome_override_some (fun present => present) (fun present => present)
      rfl .inl ?_ integrity.relationLabel integrity.relationType
    intro probe record label found carried
    rcases override_eq_some found with ⟨_, fresh⟩ | old
    · -- A fresh element carries no labels.
      cases fresh
      exact absurd carried Std.ExtTreeSet.not_mem_empty
    · exact integrity.elementLabel old carried
  | createRelation id =>
    refine integrity.grow (fun present => present) isSome_override_some (fun present => present)
      rfl .inl integrity.elementLabel ?_ ?_
    · intro probe record label found carried
      rcases override_eq_some found with ⟨_, fresh⟩ | old
      · cases fresh
        exact absurd carried Std.ExtTreeSet.not_mem_empty
      · exact integrity.relationLabel old carried
    · intro probe record relationType found typed
      rcases override_eq_some found with ⟨_, fresh⟩ | old
      · cases fresh
        cases typed
      · exact integrity.relationType old typed
  | createIncidence created =>
    refine integrity.grow (fun present => present) (fun present => present) isSome_override_some
      rfl ?_ integrity.elementLabel integrity.relationLabel integrity.relationType
    intro probe record found
    rcases override_eq_some found with ⟨_, fresh⟩ | old
    · cases fresh
      exact .inr allowed
    · exact .inl old
  | tombstoneElement id | tombstoneRelation id => exact allowed.elim
  | tombstoneIncidence id =>
    have kept {probe : IncidenceId} {record : IncidenceRecord}
        (found : override view.contents.incidence id none probe = some record) :
        view.contents.incidence probe = some record := by
      rcases override_eq_some found with ⟨_, ⟨⟩⟩ | old
      exact old
    refine integrity.restrict (fun found => found) (fun found => found) ?_ ?_
    · intro probe record found
      obtain ⟨relation, element, _⟩ := integrity.incidence (kept found)
      exact ⟨kept found, relation, element⟩
    · intro subject key value found
      -- A property still visible is not one of the masked incidence.
      change (if PropertySubject.incidence id = subject then none
        else view.contents.property subject key) = some value at found
      split at found
      · cases found
      · rename_i apart
        refine ⟨found, ?_⟩
        have present := (integrity.property found).1
        cases subject with
        | element probe | relation probe => exact present
        | incidence probe =>
          change (override view.contents.incidence id none probe).isSome
          unfold override
          rw [if_neg (fun same => apart (congrArg _ same))]
          exact present
  | addElementLabel edited label =>
    refine integrity.grow isSome_override_map (fun present => present) (fun present => present)
      rfl .inl ?_ integrity.relationLabel integrity.relationType
    intro probe record carriedLabel found carried
    rcases override_map_eq_some found with ⟨old, present, rfl⟩ | old
    · rcases mem_insert_set.mp carried with rfl | before
      · exact allowed.2
      · exact integrity.elementLabel present before
    · exact integrity.elementLabel old carried
  | addRelationLabel edited label =>
    refine integrity.grow (fun present => present) isSome_override_map (fun present => present)
      rfl .inl integrity.elementLabel ?_ ?_
    · intro probe record carriedLabel found carried
      rcases override_map_eq_some found with ⟨old, present, rfl⟩ | old
      · rcases mem_insert_set.mp carried with rfl | before
        · exact allowed.2
        · exact integrity.relationLabel present before
      · exact integrity.relationLabel old carried
    · intro probe record relationType found typed
      rcases override_map_eq_some found with ⟨old, present, rfl⟩ | old
      · exact integrity.relationType present typed
      · exact integrity.relationType old typed
  | setRelationType edited relationType =>
    refine integrity.grow (fun present => present) isSome_override_map (fun present => present)
      rfl .inl integrity.elementLabel ?_ ?_
    · intro probe record carriedLabel found carried
      rcases override_map_eq_some found with ⟨old, present, rfl⟩ | old
      · exact integrity.relationLabel present carried
      · exact integrity.relationLabel old carried
    · intro probe record relationType found typed
      rcases override_map_eq_some found with ⟨old, present, rfl⟩ | old
      · cases typed
        exact allowed.2
      · exact integrity.relationType old typed
  | setProperty subject key value =>
    refine { integrity with property := ?_ }
    intro probe other carried found
    change (if subject = probe ∧ key = other then some value
      else view.contents.property probe other) = some carried at found
    split at found
    · rename_i same
      obtain ⟨rfl, rfl⟩ := same
      cases found
      exact ⟨LayeredState.has_of_contains allowed.1, allowed.2⟩
    · exact integrity.property found
  | removeProperty subject key =>
    refine { integrity with property := ?_ }
    intro probe other carried found
    change (if subject = probe ∧ key = other then none
      else view.contents.property probe other) = some carried at found
    split at found
    · cases found
    · exact integrity.property found

end Contents.Integrity

variable {base : BaseRecords}

/-- A change under a fresh id grows the catalog. -/
theorem catalog_grows_apply {change : Change} {overlay after : Overlay}
    (applied : change.apply base overlay = .ok after)
    (fresh : ∀ {family id}, change.creates = some (family, id) →
      ¬ overlay.catalog.Registers family id) : after.catalog.Grows overlay.catalog := by
  rcases catalog_apply applied with same | ⟨entry, rfl, inserted⟩
  · rw [same]
    exact .refl _
  · exact (Registration.wellFormed_insert inserted (fresh (show
      (Change.register entry).creates = some (entry.handle.1, entry.handle.2) from rfl))).2

/-- A registered id is in use. -/
theorem LayeredState.holds_of_registers {view : LayeredState} {family : IdFamily} {id : UInt64}
    (registers : view.catalog.Registers family id) : view.Holds family id := by
  cases family with
  | element | relation | incidence => exact registers.elim
  | _ => exact registers

/-- Only a registration or a create adds to what the catalog registers. -/
theorem registers_apply {change : Change} {overlay after : Overlay}
    (applied : change.apply base overlay = .ok after) {family : IdFamily} {id : UInt64}
    (registers : after.catalog.Registers family id) :
    overlay.catalog.Registers family id ∨ change.creates = some (family, id) := by
  rcases catalog_apply applied with same | ⟨entry, rfl, inserted⟩
  · rw [same] at registers
    exact .inl registers
  · rcases Registration.registers_insert inserted registers with created | old
    · exact .inr (congrArg some created)
    · exact .inl old

/-- A change under a fresh id keeps the integrity that its effect has. -/
theorem integrity_apply {change : Change} {overlay after : Overlay}
    (applied : change.apply base overlay = .ok after)
    (kept : (change.effect (LayeredState.mk base overlay).contents).Integrity overlay.catalog)
    (fresh : ∀ {family id}, change.creates = some (family, id) →
      ¬ overlay.catalog.Registers family id) :
    (LayeredState.mk base after).contents.Integrity (LayeredState.mk base after).catalog := by
  rw [contents_apply applied]
  exact kept.extend (catalog_grows_apply applied fresh)

/-- An allowed step of the delta keeps a view sound. -/
theorem DeltaStep.sound {before after : WriteOverlay}
    (step : DeltaStep base Change.Allowed before after)
    (sound : (LayeredState.mk base before.toOverlay).Sound) :
    (LayeredState.mk base after.toOverlay).Sound := by
  have coherent := (step.mono fun change allowed => allowed.known sound.coherent).coherent
    sound.coherent
  -- The next id of a family is beyond every id it registered.
  have unused (family : IdFamily) :
      ¬ before.catalog.Registers family (before.next.get family) := fun registers =>
    UInt64.lt_irrefl _ (sound.coherent.bounded (LayeredState.holds_of_registers registers))
  cases step with
  -- A creating step draws the next id, so the catalog only grows by it.
  | @create overlay change drawn next guard creates fits applied =>
    refine ⟨coherent, sound.represents, ?_, ?_, ?_⟩
    · refine integrity_apply applied (sound.integrity.effect guard) fun created => ?_
      rw [creates] at created
      cases created
      exact unused drawn
    · intro family
      change 0 < overlay.next.get family
      rw [next_apply applied]
      exact UInt64.lt_of_lt_of_le (sound.started family) (NextIds.le_set fits family)
    · intro family id registers
      rcases registers_apply applied registers with old | created
      · exact sound.numbered old
      · rw [creates] at created
        cases created
        exact sound.started drawn
  | @mutate overlay change guard creates applied =>
    refine ⟨coherent, sound.represents, ?_, ?_, ?_⟩
    · refine integrity_apply applied (sound.integrity.effect guard) fun created => ?_
      rw [creates] at created
      cases created
    · intro family
      change 0 < overlay.next.get family
      rw [next_apply applied]
      exact sound.started family
    · intro family id registers
      rcases registers_apply applied registers with old | created
      · exact sound.numbered old
      · rw [creates] at created
        cases created
  | burn family fits interned =>
    refine ⟨coherent, sound.represents, sound.integrity, ?_, sound.numbered⟩
    intro probe
    exact UInt64.lt_of_lt_of_le (sound.started probe) (NextIds.le_set fits probe)

-- Tombstone cascades.

/-- A cascade masks the listed incidences and changes neither the catalog nor the watermark. -/
theorem tombstoneIncidences_view (base : BaseRecords) (ids : List IncidenceId)
    (writer : WriteOverlay) :
    (LayeredState.mk base (Writer.tombstoneIncidences base ids writer).toOverlay).contents =
        (LayeredState.mk base writer.toOverlay).contents.maskIncidences ids ∧
      (Writer.tombstoneIncidences base ids writer).catalog = writer.catalog ∧
      (Writer.tombstoneIncidences base ids writer).next = writer.next := by
  induction ids generalizing writer with
  | nil => simp [Writer.tombstoneIncidences, Contents.maskIncidences]
  | cons id rest ih =>
    obtain ⟨contents, catalog, next⟩ := ih (writer.tombstoneIncidence base id)
    have first : (LayeredState.mk base (writer.tombstoneIncidence base id).toOverlay).contents =
        (Change.tombstoneIncidence id).effect (LayeredState.mk base writer.toOverlay).contents :=
      contents_apply (show (Change.tombstoneIncidence id).apply base writer.toOverlay = .ok _ from
        rfl)
    refine ⟨contents.trans ?_, catalog, next⟩
    rw [first]
    unfold Contents.maskIncidences Change.effect Contents.maskSubject override
    congr 1
    · funext probe
      simp only [List.mem_cons]
      grind
    · funext subject key
      simp only [List.map_cons, List.mem_cons]
      grind

namespace Contents.Integrity

variable {contents : Contents} {catalog : Catalog}

/-- Masking a key leaves a read elsewhere. -/
theorem isSome_override_none {Record : Type} {read : UInt64 → Option Record} {key probe : UInt64}
    (apart : key ≠ probe) (present : (read probe).isSome) :
    (override read key none probe).isSome := by
  unfold override
  rwa [if_neg apart]

/-- Masking an element together with every incidence attached to it keeps integrity. -/
theorem cascadeElement (integrity : contents.Integrity catalog) {id : ElementId}
    {ids : List IncidenceId} (listed : ∀ {probe record}, contents.incidence probe = some record →
      record.element = id → probe ∈ ids) :
    (((Change.tombstoneElement id).effect contents).maskIncidences ids).Integrity catalog := by
  refine integrity.restrict ?_ (fun found => found) ?_ ?_
  · intro probe record found
    rcases override_eq_some found with ⟨_, ⟨⟩⟩ | old
    exact old
  · intro probe record found
    -- An incidence that is left is not of the element.
    obtain ⟨unlisted, found⟩ := Option.ite_none_left_eq_some.mp found
    obtain ⟨relation, element, _⟩ := integrity.incidence found
    refine ⟨found, relation, isSome_override_none ?_ element⟩
    rintro rfl
    exact unlisted (listed found rfl)
  · intro subject key value found
    obtain ⟨unlisted, found⟩ := Option.ite_none_left_eq_some.mp found
    obtain ⟨apart, found⟩ := Option.ite_none_left_eq_some.mp found
    refine ⟨found, ?_⟩
    have present := (integrity.property found).1
    cases subject with
    | element probe => exact isSome_override_none (fun same => apart (congrArg _ same)) present
    | relation probe => exact present
    | incidence probe =>
      change (if probe ∈ ids then none else contents.incidence probe).isSome
      rw [if_neg fun member => unlisted (List.mem_map_of_mem member)]
      exact present

/-- Masking a relation together with every incidence it contains keeps integrity. -/
theorem cascadeRelation (integrity : contents.Integrity catalog) {id : RelationId}
    {ids : List IncidenceId} (listed : ∀ {probe record}, contents.incidence probe = some record →
      record.relation = id → probe ∈ ids) :
    (((Change.tombstoneRelation id).effect contents).maskIncidences ids).Integrity catalog := by
  refine integrity.restrict (fun found => found) ?_ ?_ ?_
  · intro probe record found
    rcases override_eq_some found with ⟨_, ⟨⟩⟩ | old
    exact old
  · intro probe record found
    obtain ⟨unlisted, found⟩ := Option.ite_none_left_eq_some.mp found
    obtain ⟨relation, element, _⟩ := integrity.incidence found
    refine ⟨found, isSome_override_none ?_ relation, element⟩
    rintro rfl
    exact unlisted (listed found rfl)
  · intro subject key value found
    obtain ⟨unlisted, found⟩ := Option.ite_none_left_eq_some.mp found
    obtain ⟨apart, found⟩ := Option.ite_none_left_eq_some.mp found
    refine ⟨found, ?_⟩
    have present := (integrity.property found).1
    cases subject with
    | element probe => exact present
    | relation probe => exact isSome_override_none (fun same => apart (congrArg _ same)) present
    | incidence probe =>
      change (if probe ∈ ids then none else contents.incidence probe).isSome
      rw [if_neg fun member => unlisted (List.mem_map_of_mem member)]
      exact present

end Contents.Integrity

/-- A tombstone with its cascade keeps a view sound when it masks every incidence left dangling. -/
theorem LayeredState.Sound.cascade {base : BaseRecords} {before masked : WriteOverlay}
    {ids : List IncidenceId} (sound : (LayeredState.mk base before.toOverlay).Sound)
    (coherent : (LayeredState.mk base
      (Writer.tombstoneIncidences base ids masked).toOverlay).Coherent)
    (catalog : masked.catalog = before.catalog) (next : masked.next = before.next)
    (integrity : ((LayeredState.mk base masked.toOverlay).contents.maskIncidences ids).Integrity
      before.catalog) :
    (LayeredState.mk base (Writer.tombstoneIncidences base ids masked).toOverlay).Sound := by
  obtain ⟨contents, sameCatalog, sameNext⟩ := tombstoneIncidences_view base ids masked
  rw [catalog] at sameCatalog
  rw [next] at sameNext
  refine ⟨coherent, sound.represents, ?_, ?_, ?_⟩
  · rw [contents]
    change Contents.Integrity _ (Writer.tombstoneIncidences base ids masked).catalog
    rw [sameCatalog]
    exact integrity
  · intro family
    change 0 < (Writer.tombstoneIncidences base ids masked).next.get family
    rw [sameNext]
    exact sound.started family
  · intro family id registers
    change (Writer.tombstoneIncidences base ids masked).catalog.Registers family id at registers
    rw [sameCatalog] at registers
    exact sound.numbered registers

/-- A guarded step keeps a view sound. -/
theorem GuardedStep.sound {base : BaseRecords} {before after : WriteOverlay}
    (step : GuardedStep base before after)
    (sound : (LayeredState.mk base before.toOverlay).Sound) :
    (LayeredState.mk base after.toOverlay).Sound := by
  have coherent := sound.coherent.steps (step.known_steps sound.coherent)
  obtain ⟨members, _⟩ := incidences_spec sound.coherent
  cases step with
  | delta step => exact step.sound sound
  | tombstoneElement id visible =>
    refine sound.cascade coherent rfl rfl ?_
    have masked : (Change.tombstoneElement id).apply base before.toOverlay =
        .ok (before.tombstoneElement base id).toOverlay := rfl
    rw [contents_apply masked]
    refine sound.integrity.cascadeElement ?_
    -- The reverse-adjacency index finds what a scan would.
    intro probe record found attached
    obtain rfl := sound.coherent.keyed.incidence found
    rw [elementIncidences_eq_scan sound.coherent sound.represents]
    exact List.mem_map_of_mem (List.mem_filter.mpr
      ⟨(members record).mpr found, decide_eq_true attached⟩)
  | tombstoneRelation id visible =>
    refine sound.cascade coherent rfl rfl ?_
    have masked : (Change.tombstoneRelation id).apply base before.toOverlay =
        .ok (before.tombstoneRelation base id).toOverlay := rfl
    rw [contents_apply masked]
    refine sound.integrity.cascadeRelation ?_
    intro probe record found attached
    obtain rfl := sound.coherent.keyed.incidence found
    rw [relationIncidences_eq_scan sound.coherent sound.represents]
    exact List.mem_map_of_mem (List.mem_filter.mpr
      ⟨(members record).mpr found, decide_eq_true attached⟩)

/-- Every run of a writer keeps its view sound. -/
theorem Writer.Step.sound {before after : Writer} (steps : Relation.ReflTransGen Step before after)
    (sound : before.merged.Sound) : after.merged.Sound := by
  induction steps with
  | refl => exact sound
  | tail _ step ih =>
    obtain ⟨delta, guarded, rfl⟩ := step
    exact guarded.sound ih

/-- A view whose base holds unlabelled elements, and nothing else, is sound. -/
theorem LayeredState.sound_bare {elements : BTreeMap ElementId ElementRecord} {next : NextIds}
    (bare : ∀ id record, elements[id]? = some record → record = ⟨id, ∅⟩ ∧ id < next.element)
    (started : ∀ family, 0 < next.get family) :
    (LayeredState.mk ⟨⟨elements, ∅, ∅, ∅⟩, .owned .empty⟩ (.empty next .empty)).Sound where
  coherent := by
    have same : (LayeredState.mk ⟨⟨elements, ∅, ∅, ∅⟩, .owned .empty⟩ (.empty next .empty)).contents =
        (BaseRecords.mk ⟨elements, ∅, ∅, ∅⟩ (.owned .empty)).contents := rfl
    have keyed : (BaseRecords.mk ⟨elements, ∅, ∅, ∅⟩ (.owned .empty)).contents.WellKeyed := by
      constructor <;> simp [BaseRecords.contents, BaseRecords.element,
        BaseRecords.relation, BaseRecords.incidence]
      intro id record found
      rw [(bare id record found).1]
    refine ⟨?_, keyed, ?_, ?_, ?_, ?_⟩
    · intro family id holds
      cases family <;> simp [LayeredState.Holds, Catalog.Registers, LayeredState.catalog,
        Overlay.empty, Catalog.empty, NameTable.empty] at holds
      exact (bare id _ (getElem?_pos elements id holds)).2
    · rw [same]
      exact keyed
    · constructor <;> constructor <;> simp [LayeredState.catalog, Overlay.empty, Catalog.empty,
        NameTable.empty]
    · rw [same]
      intro subject key value found
      simp [BaseRecords.contents, BaseRecords.property, nestedGet] at found
    · unfold LayeredState.Indexed
      rw [same]
      exact ⟨PostingDelta.tracks_empty _, PostingDelta.tracks_empty _,
        PostingDelta.tracks_empty _, PostingDelta.tracks_empty _, PostingDelta.tracks_empty _⟩
  represents := by
    constructor <;> simp [OwnedBaseIndex.empty, BaseIndex.labelPosting,
      BaseIndex.relationTypePosting, BaseIndex.elementIncidencePosting,
      BaseIndex.relationIncidencePosting, BaseIndex.equalitySubjects, BaseIndex.rangePostings,
      BaseIndex.keyPostings, mapRange, mapFrom, Contents.HasLabel, Contents.HasType,
      Contents.AtElement, Contents.InRelation, Contents.HasValue, BaseRecords.contents,
      BaseRecords.element, BaseRecords.relation, BaseRecords.incidence, BaseRecords.property,
      nestedGet, toList_empty]
    intro label id record found
    rw [(bare id record found).1]
    simp
  integrity := by
    constructor <;> simp [LayeredState.contents, LayeredState.element,
      LayeredState.relation, LayeredState.incidence, layered, Overlay.empty,
      LayeredState.property, nestedGet, BaseRecords.property]
    intro id record label found has
    rw [(bare id record found).1] at has
    simp at has
  started := started
  numbered := by
    intro family id registers
    cases family <;> simp [Catalog.Registers, LayeredState.catalog, Overlay.empty, Catalog.empty,
      NameTable.empty] at registers

/-- The view of a created store is sound. -/
theorem LayeredState.sound_empty : (LayeredState.mk .empty (.empty .initial .empty)).Sound :=
  LayeredState.sound_bare (by simp) fun family => by cases family <;> decide

end Oxgraph
