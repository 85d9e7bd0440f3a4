import Oxgraph.Spec.Change
import Oxgraph.Spec.Coherent

/-! Every mutation keeps the incremental index in step with what the view shows. -/

namespace Oxgraph

-- What the mutators read of the view before a mutation.

/-- A label is visible on an element before a mutation exactly when the view shows it. -/
theorem mem_visibleElementLabels {base : BaseRecords} {overlay : Overlay} {label : LabelId}
    {id : ElementId} :
    label ∈ overlay.visibleElementLabels base id ↔
      (LayeredState.mk base overlay).contents.HasLabel label id := by
  unfold Overlay.visibleElementLabels Contents.HasLabel
  simp only [LayeredState.contents, LayeredState.element, layered]
  cases overlay.elements[id]? with
  | some entry => cases entry <;> simp
  | none =>
    change label ∈ ((base.elements[id]?).map ElementRecord.labels).getD ∅ ↔ _
    cases base.elements[id]? <;> simp

/-- The type read before a mutation is the one the view shows. -/
theorem visibleRelationType_eq_some {base : BaseRecords} {overlay : Overlay}
    {relationType : RelationTypeId} {id : RelationId} :
    overlay.visibleRelationType base id = some relationType ↔
      (LayeredState.mk base overlay).contents.HasType relationType id := by
  unfold Overlay.visibleRelationType Contents.HasType
  simp only [LayeredState.contents, LayeredState.relation, layered]
  cases overlay.relations[id]? with
  | some entry => cases entry <;> simp
  | none =>
    change (base.relations[id]?).bind RelationRecord.relationType = some relationType ↔ _
    cases base.relations[id]? <;> simp

/-- The incidence read before a mutation is the one the view shows. -/
theorem visibleIncidence_eq (base : BaseRecords) (overlay : Overlay) (id : IncidenceId) :
    overlay.visibleIncidence base id = (LayeredState.mk base overlay).incidence id := by
  unfold Overlay.visibleIncidence LayeredState.incidence layered
  cases overlay.incidences[id]? with
  | some entry => cases entry <;> rfl
  | none => rfl

/-- The properties read before a tombstone are those the view shows for the subject. -/
theorem get_visibleSubjectProperties (base : BaseRecords) (overlay : Overlay)
    (subject : PropertySubject) (key : PropertyKeyId) :
    (overlay.visibleSubjectProperties base subject)[key]? =
      (LayeredState.mk base overlay).property subject key := by
  unfold Overlay.visibleSubjectProperties LayeredState.property BaseRecords.property nestedGet
  have based : (base.properties.getD subject ∅)[key]? =
      (base.properties[subject]?).bind fun entries => entries[key]? := by
    rw [Std.ExtTreeMap.getD_eq_getD_getElem?]
    cases base.properties[subject]? <;> simp
  cases overlay.properties[subject]? with
  | none => exact based
  | some entries =>
    simp only [Option.bind_some]
    rw [get_applyDelta_toList, layered, based]
    cases entries[key]? <;> rfl

/-- Editing a visible record overrides it; there is nothing to edit otherwise. -/
theorem editRecord_eq {Record : Type} (base : BTreeMap UInt64 Record) (delta : Delta Record)
    (id : UInt64) (edit : Record → Record) :
    Overlay.editRecord delta base[id]? id edit =
      match layered base delta id with
      | some record => (delta.insert id (some (edit record)), true)
      | none => (delta, false) := by
  unfold Overlay.editRecord layered
  cases delta[id]? with
  | some entry => cases entry <;> rfl
  | none => rfl

/-- Masking every listed key leaves the other keys alone. -/
theorem get_maskKeys (entries : List (PropertyKeyId × PropertyValue)) (start : SubjectDelta)
    (probe : PropertyKeyId) :
    (entries.foldl (fun masked entry => masked.insert entry.1 none) start)[probe]? =
      if probe ∈ entries.map Prod.fst then some none else start[probe]? := by
  induction entries generalizing start with
  | nil => simp
  | cons entry rest ih =>
    rw [List.foldl_cons, ih, get_insert]
    grind

/-- Masking a subject hides its properties and leaves those of the other subjects. -/
theorem property_maskProperties (base : BaseRecords) (overlay : Overlay)
    (subject probe : PropertySubject) (key : PropertyKeyId) :
    (LayeredState.mk base (overlay.tombstoneSubjectProperties base subject)).property probe key =
      if subject = probe then none else (LayeredState.mk base overlay).property probe key := by
  unfold LayeredState.property Overlay.tombstoneSubjectProperties Overlay.maskProperties
    BaseRecords.property nestedGet
  cases based : base.properties[subject]? with
  | none =>
    simp only [get_erase]
    by_cases same : subject = probe
    · subst same
      simp [based]
    · simp [same]
  | some keys =>
    simp only [get_insert]
    by_cases same : subject = probe
    · -- Each base property of the subject has a tombstone, and it has no others.
      subst same
      have fresh : (overlay.properties.erase subject).getD subject ∅ = ∅ := by
        rw [Std.ExtTreeMap.getD_eq_getD_getElem?, get_erase, if_pos rfl, Option.getD_none]
      simp only [if_true, fresh, Option.bind_some, get_maskKeys, based]
      split
      · rename_i slot masked
        split at masked
        · cases masked
          rfl
        · simp at masked
      · rename_i unmasked
        split at unmasked
        · cases unmasked
        · rename_i unlisted
          cases found : keys[key]? with
          | none => rfl
          | some value =>
            exact absurd (List.mem_map_of_mem (f := Prod.fst) (mem_toList.mpr found)) unlisted
    · simp [same, get_erase]

-- The index updates, as the withdrawals and additions they make.

/-- Withdrawing a subject's properties touches the equality postings only. -/
theorem withdrawSubjectProperties_eq (index : OverlayIndex) (subject : PropertySubject)
    (properties : BTreeMap PropertyKeyId PropertyValue) :
    index.withdrawSubjectProperties subject properties =
      { index with
        equality := index.equality.withdrawAll (properties.toList.map (·, subject)) } := by
  unfold OverlayIndex.withdrawSubjectProperties
  generalize properties.toList = entries
  induction entries generalizing index with
  | nil => rfl
  | cons entry rest ih => exact ih (index.removeEquality subject entry.1 entry.2)

/-- A tombstoned element leaves its label postings and its equality postings. -/
theorem onTombstoneElement_eq (index : OverlayIndex) (element : ElementId) (labels : LabelSet)
    (properties : BTreeMap PropertyKeyId PropertyValue) :
    index.onTombstoneElement element labels properties =
      { index with
        label := index.label.withdrawAll (labels.toList.map (·, element))
        equality :=
          index.equality.withdrawAll (properties.toList.map (·, .element element)) } := by
  unfold OverlayIndex.onTombstoneElement
  rw [withdrawSubjectProperties_eq]
  generalize labels.toList = listed
  induction listed generalizing index with
  | nil => rfl
  | cons label rest ih =>
    exact ih { index with label := index.label.withdraw label element }

/-- A tombstoned relation leaves its type's posting and its equality postings. -/
theorem onTombstoneRelation_eq (index : OverlayIndex) (relation : RelationId)
    (relationType : Option RelationTypeId) (properties : BTreeMap PropertyKeyId PropertyValue) :
    index.onTombstoneRelation relation relationType properties =
      { index with
        relationType := index.relationType.withdrawAll (relationType.toList.map (·, relation))
        equality :=
          index.equality.withdrawAll (properties.toList.map (·, .relation relation)) } := by
  unfold OverlayIndex.onTombstoneRelation
  rw [withdrawSubjectProperties_eq]
  cases relationType <;> rfl

/-- A tombstoned incidence leaves both adjacency postings and its equality postings. -/
theorem onTombstoneIncidence_eq (index : OverlayIndex) (record : IncidenceRecord)
    (properties : BTreeMap PropertyKeyId PropertyValue) :
    index.onTombstoneIncidence record.id record.relation record.element properties =
      { index with
        elementIncidence := index.elementIncidence.withdraw record.element record.id
        relationIncidence := index.relationIncidence.withdraw record.relation record.id
        equality :=
          index.equality.withdrawAll (properties.toList.map (·, .incidence record.id)) } := by
  unfold OverlayIndex.onTombstoneIncidence
  rw [withdrawSubjectProperties_eq]

section Mutations

variable {base : BaseRecords} {overlay : Overlay}

/-- Editing a record overrides what the layers read of it. -/
theorem layered_editRecord {Record : Type} (base : BTreeMap UInt64 Record) (delta : Delta Record)
    (id : UInt64) (edit : Record → Record) :
    layered base (Overlay.editRecord delta base[id]? id edit).1 =
      override (layered base delta) id ((layered base delta id).map edit) := by
  funext probe
  rw [editRecord_eq]
  cases visible : layered base delta id with
  | some record => exact layered_insert base delta id probe _
  | none =>
    unfold override
    by_cases same : id = probe
    · subst same
      simp [visible]
    · simp [same]

/-- Setting a slot of the property delta sets the slot the view shows. -/
theorem property_nestedInsert (base : BaseRecords) (overlay : Overlay) (index : OverlayIndex)
    (subject : PropertySubject) (key : PropertyKeyId) (slot : Option PropertyValue) :
    (LayeredState.mk base { overlay with
      index, properties := nestedInsert overlay.properties subject key slot }).property =
      ((LayeredState.mk base overlay).contents.setSlot subject key slot).property := by
  funext probe other
  simp only [LayeredState.property, Contents.setSlot, LayeredState.contents, nestedGet_insert]
  by_cases same : subject = probe ∧ key = other <;> simp [same]

/-- Every mutation changes what the view shows exactly as its effect says. -/
theorem contents_apply {change : Change} {after : Overlay}
    (applied : change.apply base overlay = .ok after) :
    (LayeredState.mk base after).contents =
      change.effect (LayeredState.mk base overlay).contents := by
  cases change with
  | register entry =>
    obtain ⟨catalog, _, rfl⟩ := Overlay.registerEntry_eq_ok.mp applied
    rfl
  | createElement id =>
    cases applied
    exact congrArg (Contents.mk · _ _ _) (funext fun probe => layered_insert _ _ _ probe _)
  | createRelation id =>
    cases applied
    exact congrArg (Contents.mk _ · _ _) (funext fun probe => layered_insert _ _ _ probe _)
  | createIncidence record =>
    cases applied
    exact congrArg (Contents.mk _ _ · _) (funext fun probe => layered_insert _ _ _ probe _)
  | tombstoneElement id =>
    cases applied
    exact congr (congrArg (Contents.mk · _ _) (funext fun probe => layered_insert _ _ _ probe _))
      (funext fun probe => funext (property_maskProperties base overlay (.element id) probe))
  | tombstoneRelation id =>
    cases applied
    exact congr (congrArg (Contents.mk _ · _) (funext fun probe => layered_insert _ _ _ probe _))
      (funext fun probe => funext (property_maskProperties base overlay (.relation id) probe))
  | tombstoneIncidence id =>
    cases applied
    exact congr (congrArg (Contents.mk _ _ ·) (funext fun probe => layered_insert _ _ _ probe _))
      (funext fun probe => funext (property_maskProperties base overlay (.incidence id) probe))
  | addElementLabel element label =>
    cases applied
    exact congrArg (Contents.mk · _ _ _) (layered_editRecord _ _ element _)
  | addRelationLabel relation label =>
    cases applied
    exact congrArg (Contents.mk _ · _ _) (layered_editRecord _ _ relation _)
  | setRelationType relation relationType =>
    cases applied
    exact congrArg (Contents.mk _ · _ _) (layered_editRecord _ _ relation _)
  | setProperty subject key value =>
    cases applied
    exact congrArg (Contents.mk _ _ _) (property_nestedInsert base overlay _ subject key _)
  | removeProperty subject key =>
    cases applied
    exact congrArg (Contents.mk _ _ _) (property_nestedInsert base overlay _ subject key _)

/-- A subject's withdrawn postings are exactly the values it carried. -/
theorem mem_subjectPairs {subject probe : PropertySubject} {key : EqualityKey} :
    (key, probe) ∈ (overlay.visibleSubjectProperties base subject).toList.map (·, subject) ↔
      subject = probe ∧ (LayeredState.mk base overlay).contents.HasValue key probe := by
  rw [List.mem_map]
  constructor
  · rintro ⟨entry, member, same⟩
    cases same
    refine ⟨rfl, ?_⟩
    have read := mem_toList.mp member
    rwa [get_visibleSubjectProperties] at read
  · rintro ⟨rfl, carried⟩
    refine ⟨key, mem_toList.mpr ?_, rfl⟩
    rwa [get_visibleSubjectProperties]

variable {subject : PropertySubject}

/-- A subject's equality postings are withdrawn together with its properties. -/
theorem equality_masked {now : Contents}
    (tracks : overlay.index.equality.Tracks base.contents.HasValue
      (LayeredState.mk base overlay).contents.HasValue)
    (shows : ∀ probe key, now.property probe key =
      if subject = probe then none else (LayeredState.mk base overlay).property probe key) :
    (overlay.index.equality.withdrawAll
      ((overlay.visibleSubjectProperties base subject).toList.map (·, subject))).Tracks
      base.contents.HasValue now.HasValue := by
  refine (tracks.withdrawAll _).congr fun key probe => ?_
  rw [mem_subjectPairs]
  unfold Contents.HasValue
  rw [shows]
  by_cases same : subject = probe
  · subst same
    simp
  · simp [same, LayeredState.contents]

/-- A fresh element carries no label, so no posting changes. -/
theorem indexed_putElement {id : ElementId} (indexed : (LayeredState.mk base overlay).Indexed)
    (fresh : (LayeredState.mk base overlay).element id = none) :
    (LayeredState.mk base (overlay.putElement id)).Indexed where
  label := by
    refine indexed.label.congr fun label probe => ?_
    unfold Contents.HasLabel
    change (∃ record, layered base.elements (overlay.elements.insert id _) probe = some record ∧ _) ↔
      ∃ record, layered base.elements overlay.elements probe = some record ∧ _
    change layered base.elements overlay.elements id = none at fresh
    rw [layered_insert, override]
    by_cases same : id = probe
    · subst same
      simp [fresh]
    · simp [same]
  relationType := indexed.relationType
  equality := indexed.equality
  elementIncidence := indexed.elementIncidence
  relationIncidence := indexed.relationIncidence

/-- A fresh relation has no type, so no posting changes. -/
theorem indexed_putRelation {id : RelationId} (indexed : (LayeredState.mk base overlay).Indexed)
    (fresh : (LayeredState.mk base overlay).relation id = none) :
    (LayeredState.mk base (overlay.putRelation id)).Indexed where
  label := indexed.label
  relationType := by
    refine indexed.relationType.congr fun relationType probe => ?_
    unfold Contents.HasType
    change (∃ record, layered base.relations (overlay.relations.insert id _) probe = some record ∧ _) ↔
      ∃ record, layered base.relations overlay.relations probe = some record ∧ _
    change layered base.relations overlay.relations id = none at fresh
    rw [layered_insert, override]
    by_cases same : id = probe
    · subst same
      simp [fresh]
    · simp [same]
  equality := indexed.equality
  elementIncidence := indexed.elementIncidence
  relationIncidence := indexed.relationIncidence

/-- A fresh incidence joins the adjacency postings of its element and of its relation. -/
theorem indexed_putIncidence {record : IncidenceRecord}
    (indexed : (LayeredState.mk base overlay).Indexed)
    (fresh : (LayeredState.mk base overlay).incidence record.id = none) :
    (LayeredState.mk base (overlay.putIncidence record)).Indexed where
  label := indexed.label
  relationType := indexed.relationType
  equality := indexed.equality
  elementIncidence := by
    refine (indexed.elementIncidence.add record.element record.id).congr fun element probe => ?_
    unfold Contents.AtElement
    change (∃ found, layered base.incidences (overlay.incidences.insert record.id _) probe =
        some found ∧ _) ↔
      _ ∨ ∃ found, layered base.incidences overlay.incidences probe = some found ∧ _
    change layered base.incidences overlay.incidences record.id = none at fresh
    rw [layered_insert, override]
    by_cases same : record.id = probe
    · subst same
      simp [fresh]
    · simp [same]
  relationIncidence := by
    refine (indexed.relationIncidence.add record.relation record.id).congr fun relation probe => ?_
    unfold Contents.InRelation
    change (∃ found, layered base.incidences (overlay.incidences.insert record.id _) probe =
        some found ∧ _) ↔
      _ ∨ ∃ found, layered base.incidences overlay.incidences probe = some found ∧ _
    change layered base.incidences overlay.incidences record.id = none at fresh
    rw [layered_insert, override]
    by_cases same : record.id = probe
    · subst same
      simp [fresh]
    · simp [same]

/-- A tombstoned element leaves the postings of its labels and of its properties. -/
theorem indexed_tombstoneElement {id : ElementId}
    (indexed : (LayeredState.mk base overlay).Indexed) :
    (LayeredState.mk base (overlay.tombstoneElementInner base id)).Indexed := by
  have index : (overlay.tombstoneElementInner base id).index = overlay.index.onTombstoneElement id
    (overlay.visibleElementLabels base id)
    (overlay.visibleSubjectProperties base (.element id)) := rfl
  unfold LayeredState.Indexed
  simp only [index, onTombstoneElement_eq]
  refine ⟨?_, indexed.relationType, ?_, indexed.elementIncidence, indexed.relationIncidence⟩
  · refine (indexed.label.withdrawAll _).congr fun label probe => ?_
    have listed : (label, probe) ∈ (overlay.visibleElementLabels base id).toList.map (·, id) ↔
        id = probe ∧ (LayeredState.mk base overlay).contents.HasLabel label probe := by
      rw [List.mem_map]
      constructor
      · rintro ⟨other, member, same⟩
        cases same
        exact ⟨rfl, mem_visibleElementLabels.mp (Std.ExtTreeSet.mem_toList.mp member)⟩
      · rintro ⟨rfl, carried⟩
        exact ⟨label, Std.ExtTreeSet.mem_toList.mpr (mem_visibleElementLabels.mpr carried), rfl⟩
    rw [listed]
    unfold Contents.HasLabel
    change (∃ record, layered base.elements (overlay.elements.insert id none) probe = some record ∧
      _) ↔ _ ∧ ∃ record, layered base.elements overlay.elements probe = some record ∧ _
    rw [layered_insert, override]
    by_cases same : id = probe
    · subst same
      simp [LayeredState.contents, LayeredState.element]
    · simp [same]
  · exact equality_masked indexed.equality (property_maskProperties base overlay (.element id))

/-- A tombstoned relation leaves the postings of its type and of its properties. -/
theorem indexed_tombstoneRelation {id : RelationId}
    (indexed : (LayeredState.mk base overlay).Indexed) :
    (LayeredState.mk base (overlay.tombstoneRelationInner base id)).Indexed := by
  have index : (overlay.tombstoneRelationInner base id).index =
    overlay.index.onTombstoneRelation id (overlay.visibleRelationType base id)
      (overlay.visibleSubjectProperties base (.relation id)) := rfl
  unfold LayeredState.Indexed
  simp only [index, onTombstoneRelation_eq]
  refine ⟨indexed.label, ?_, ?_, indexed.elementIncidence, indexed.relationIncidence⟩
  · refine (indexed.relationType.withdrawAll _).congr fun relationType probe => ?_
    have listed : (relationType, probe) ∈
        (overlay.visibleRelationType base id).toList.map (·, id) ↔
          id = probe ∧ (LayeredState.mk base overlay).contents.HasType relationType probe := by
      rw [List.mem_map]
      constructor
      · rintro ⟨other, member, same⟩
        cases same
        exact ⟨rfl, visibleRelationType_eq_some.mp (Option.mem_toList.mp member)⟩
      · rintro ⟨rfl, carried⟩
        exact ⟨relationType, Option.mem_toList.mpr (visibleRelationType_eq_some.mpr carried), rfl⟩
    rw [listed]
    unfold Contents.HasType
    change (∃ record, layered base.relations (overlay.relations.insert id none) probe =
      some record ∧ _) ↔ _ ∧ ∃ record, layered base.relations overlay.relations probe =
        some record ∧ _
    rw [layered_insert, override]
    by_cases same : id = probe
    · subst same
      simp [LayeredState.contents, LayeredState.relation]
    · simp [same]
  · exact equality_masked indexed.equality (property_maskProperties base overlay (.relation id))

/-- A tombstoned incidence leaves both adjacency postings and those of its properties. -/
theorem indexed_tombstoneIncidence {id : IncidenceId}
    (indexed : (LayeredState.mk base overlay).Indexed)
    (keyed : (LayeredState.mk base overlay).contents.WellKeyed)
    (anchored : (LayeredState.mk base overlay).incidence id = none →
      ∀ key, (LayeredState.mk base overlay).property (.incidence id) key = none) :
    (LayeredState.mk base (overlay.tombstoneIncidenceInner base id)).Indexed := by
  have shows : ∀ probe, (LayeredState.mk base (overlay.tombstoneIncidenceInner base id)).incidence
      probe = if id = probe then none else (LayeredState.mk base overlay).incidence probe :=
    fun probe => layered_insert _ _ _ _ _
  have masked : (overlay.index.equality.withdrawAll
      ((overlay.visibleSubjectProperties base (.incidence id)).toList.map
        (·, .incidence id))).Tracks base.contents.HasValue
      (LayeredState.mk base (overlay.tombstoneIncidenceInner base id)).contents.HasValue :=
    equality_masked indexed.equality (property_maskProperties base overlay (.incidence id))
  unfold LayeredState.Indexed
  cases visible : overlay.visibleIncidence base id with
  | some record =>
    have index : (overlay.tombstoneIncidenceInner base id).index =
        overlay.index.onTombstoneIncidence id record.relation record.element
          (overlay.visibleSubjectProperties base (.incidence id)) := by
      simp only [Overlay.tombstoneIncidenceInner, Overlay.tombstoneSubjectProperties, visible]
    rw [visibleIncidence_eq] at visible
    obtain rfl : record.id = id := keyed.incidence visible
    simp only [index, onTombstoneIncidence_eq]
    refine ⟨indexed.label, indexed.relationType, masked, ?_, ?_⟩
    · refine (indexed.elementIncidence.withdraw _ _).congr fun element probe => ?_
      unfold Contents.AtElement
      simp only [LayeredState.contents, shows]
      by_cases same : record.id = probe
      · subst same
        simp [visible]
      · simp [same]
    · refine (indexed.relationIncidence.withdraw _ _).congr fun relation probe => ?_
      unfold Contents.InRelation
      simp only [LayeredState.contents, shows]
      by_cases same : record.id = probe
      · subst same
        simp [visible]
      · simp [same]
  | none =>
    -- An incidence that is not visible has no posting, and no property to mask either.
    have index : (overlay.tombstoneIncidenceInner base id).index = overlay.index := by
      simp only [Overlay.tombstoneIncidenceInner, Overlay.tombstoneSubjectProperties, visible]
    rw [visibleIncidence_eq] at visible
    have unchanged : (LayeredState.mk base (overlay.tombstoneIncidenceInner base id)).contents =
        (LayeredState.mk base overlay).contents := by
      have incidence : (LayeredState.mk base (overlay.tombstoneIncidenceInner base id)).incidence =
          (LayeredState.mk base overlay).incidence := by
        funext probe
        rw [shows]
        split
        · rename_i same
          rw [← same, visible]
        · rfl
      have property : (LayeredState.mk base (overlay.tombstoneIncidenceInner base id)).property =
          (LayeredState.mk base overlay).property := by
        funext probe key
        refine (property_maskProperties base overlay (.incidence id) probe key).trans ?_
        split
        · rename_i same
          rw [← same, anchored visible]
        · rfl
      unfold LayeredState.contents
      rw [incidence, property]
      rfl
    simp only [index, unchanged]
    exact indexed

/-- A label joins its posting when the element it is added to is visible. -/
theorem indexed_addElementLabel {element : ElementId} {label : LabelId}
    (indexed : (LayeredState.mk base overlay).Indexed) :
    (LayeredState.mk base (overlay.addElementLabelInner base element label)).Indexed := by
  have edited := editRecord_eq base.elements overlay.elements element
    fun record => { record with labels := record.labels.insert label }
  cases visible : layered base.elements overlay.elements element with
  | none =>
    have unchanged : overlay.addElementLabelInner base element label = overlay := by
      simp only [visible] at edited
      simp only [Overlay.addElementLabelInner, BaseRecords.element, edited]
      rfl
    rw [unchanged]
    exact indexed
  | some record =>
    have changed : overlay.addElementLabelInner base element label =
        { overlay with
          elements := overlay.elements.insert element
            (some { record with labels := record.labels.insert label })
          index := overlay.index.onAddElementLabel element label } := by
      simp only [visible] at edited
      simp only [Overlay.addElementLabelInner, BaseRecords.element, edited]
      rfl
    rw [changed]
    refine ⟨?_, indexed.relationType, indexed.equality, indexed.elementIncidence,
      indexed.relationIncidence⟩
    refine (indexed.label.add label element).congr fun probe id => ?_
    unfold Contents.HasLabel
    change (∃ found, layered base.elements (overlay.elements.insert element _) id = some found ∧ _) ↔
      _ ∨ ∃ found, layered base.elements overlay.elements id = some found ∧ _
    rw [layered_insert, override]
    by_cases same : element = id
    · subst same
      simp [visible]
    · simp [same]

/-- A relation's label is kept in its record only. -/
theorem indexed_addRelationLabel {relation : RelationId} {label : LabelId}
    (indexed : (LayeredState.mk base overlay).Indexed) :
    (LayeredState.mk base (overlay.addRelationLabelInner base relation label)).Indexed where
  label := indexed.label
  relationType := by
    refine indexed.relationType.congr fun relationType id => ?_
    unfold Contents.HasType
    change (∃ found, layered base.relations (Overlay.editRecord overlay.relations
        base.relations[relation]? relation _).1 id = some found ∧ _) ↔
      ∃ found, layered base.relations overlay.relations id = some found ∧ _
    rw [editRecord_eq]
    cases visible : layered base.relations overlay.relations relation with
    | none => rfl
    | some record =>
      -- The copied record has the labels changed and the type kept.
      simp only [layered_insert, override]
      by_cases same : relation = id
      · subst same
        simp [visible]
      · simp [same]
  equality := indexed.equality
  elementIncidence := indexed.elementIncidence
  relationIncidence := indexed.relationIncidence

/-- A relation that gets a type leaves the posting of its previous one. -/
theorem indexed_setRelationType {relation : RelationId} {relationType : RelationTypeId}
    (indexed : (LayeredState.mk base overlay).Indexed) :
    (LayeredState.mk base (overlay.setRelationTypeInner base relation relationType)).Indexed := by
  have edited := editRecord_eq base.relations overlay.relations relation
    fun record => { record with relationType := some relationType }
  cases visible : layered base.relations overlay.relations relation with
  | none =>
    have unchanged : overlay.setRelationTypeInner base relation relationType = overlay := by
      simp only [visible] at edited
      simp only [Overlay.setRelationTypeInner, BaseRecords.relation, edited]
      rfl
    rw [unchanged]
    exact indexed
  | some record =>
    have previous : overlay.visibleRelationType base relation = record.relationType := by
      cases typed : overlay.visibleRelationType base relation with
      | none =>
        cases kept : record.relationType with
        | none => rfl
        | some other =>
          have carried := visibleRelationType_eq_some.mpr ⟨record, visible, kept⟩
          rw [typed] at carried
          cases carried
      | some other =>
        obtain ⟨found, same, kept⟩ := visibleRelationType_eq_some.mp typed
        change layered base.relations overlay.relations relation = some found at same
        rw [visible] at same
        cases same
        exact kept.symm
    have changed : overlay.setRelationTypeInner base relation relationType =
        { overlay with
          relations := overlay.relations.insert relation
            (some { record with relationType := some relationType })
          index := overlay.index.onSetRelationType relation record.relationType relationType } := by
      simp only [visible] at edited
      simp only [Overlay.setRelationTypeInner, BaseRecords.relation, edited, previous]
      rfl
    rw [changed]
    have index : overlay.index.onSetRelationType relation record.relationType relationType =
        { overlay.index with
          relationType := overlay.index.relationType.move record.relationType relationType
            relation } := by
      unfold OverlayIndex.onSetRelationType PostingDelta.move
      cases record.relationType with
      | none => rfl
      | some other =>
        simp only
        split <;> rfl
    unfold LayeredState.Indexed
    simp only [index]
    refine ⟨indexed.label, ?_, indexed.equality, indexed.elementIncidence,
      indexed.relationIncidence⟩
    -- A relation has one type at a time, so every type is a rival of every other.
    have carried : ∀ probe, True → ((LayeredState.mk base overlay).contents.HasType probe relation ↔
        record.relationType = some probe) := by
      intro probe _
      rw [← visibleRelationType_eq_some, previous]
    refine (indexed.relationType.move (fun _ => True) trivial (fun _ _ => trivial) carried).congr
      fun probe id => ?_
    unfold Contents.HasType
    change (∃ found, layered base.relations (overlay.relations.insert relation _) id =
      some found ∧ _) ↔ _ ∨ _ ∧ ∃ found, layered base.relations overlay.relations id =
        some found ∧ _
    rw [layered_insert, override]
    by_cases same : relation = id <;> simp [same]

/-- A subject that gets a value leaves the posting of its previous one. -/
theorem indexed_setProperty {key : PropertyKeyId} {value : PropertyValue}
    (indexed : (LayeredState.mk base overlay).Indexed) :
    (LayeredState.mk base (overlay.setPropertyInner base subject key value)).Indexed := by
  have index : overlay.index.onSetProperty subject key (overlay.visibleProperty base subject key)
      value =
      { overlay.index with
        equality := overlay.index.equality.move
          ((overlay.visibleProperty base subject key).map (key, ·)) (key, value) subject } := by
    unfold OverlayIndex.onSetProperty PostingDelta.move
    cases overlay.visibleProperty base subject key with
    | none => rfl
    | some other =>
      simp only [Option.map_some, ne_eq, Prod.mk.injEq, true_and]
      split <;> rfl
  unfold LayeredState.Indexed
  simp only [Overlay.setPropertyInner, index]
  refine ⟨indexed.label, indexed.relationType, ?_, indexed.elementIncidence,
    indexed.relationIncidence⟩
  -- The values of one key are rivals: a subject has one of them at a time.
  have carried : ∀ probe : EqualityKey, key = probe.1 →
      ((LayeredState.mk base overlay).contents.HasValue probe subject ↔
        (overlay.visibleProperty base subject key).map (key, ·) = some probe) := by
    intro probe sameKey
    obtain ⟨probeKey, probe⟩ := probe
    obtain rfl : probeKey = key := sameKey.symm
    change overlay.visibleProperty base subject probeKey = some probe ↔ _
    cases overlay.visibleProperty base subject probeKey <;> simp
  have rivals : ∀ probe ∈ (overlay.visibleProperty base subject key).map (key, ·),
      key = probe.1 := by
    intro probe member
    obtain ⟨_, _, rfl⟩ := Option.map_eq_some_iff.mp member
    rfl
  refine (indexed.equality.move (fun probe => key = probe.1) rfl rivals carried).congr
    fun probe other => ?_
  unfold Contents.HasValue
  change (LayeredState.mk base { overlay with
      properties := nestedInsert overlay.properties subject key (some value) }).property other
        probe.1 = some probe.2 ↔ _ ∨ _ ∧
      (LayeredState.mk base overlay).property other probe.1 = some probe.2
  rw [property_nestedInsert]
  unfold Contents.setSlot
  dsimp only
  by_cases same : subject = other ∧ key = probe.1
  · rw [if_pos same]
    obtain ⟨rfl, rfl⟩ := same
    simp [Prod.ext_iff]
  · rw [if_neg same]
    have apart : ¬ (subject = other ∧ key = probe.1 ∧ (key, value) = probe) := by
      rintro ⟨one, two, _⟩
      exact same ⟨one, two⟩
    simp only [apart, same, not_false_iff, true_and, false_or]
    rfl

/-- A subject that loses a property leaves the posting of its previous value. -/
theorem indexed_removeProperty {key : PropertyKeyId}
    (indexed : (LayeredState.mk base overlay).Indexed) :
    (LayeredState.mk base (overlay.removePropertyInner base subject key)).Indexed := by
  have index : overlay.index.onRemoveProperty subject key
      (overlay.visibleProperty base subject key) =
      { overlay.index with
        equality := overlay.index.equality.withdrawAll
          ((overlay.visibleProperty base subject key).toList.map
            fun value => ((key, value), subject)) } := by
    unfold OverlayIndex.onRemoveProperty
    cases overlay.visibleProperty base subject key <;> rfl
  unfold LayeredState.Indexed
  simp only [Overlay.removePropertyInner, index]
  refine ⟨indexed.label, indexed.relationType, ?_, indexed.elementIncidence,
    indexed.relationIncidence⟩
  -- What is withdrawn is the value that the subject has at the key.
  have listed : ∀ probe other, (probe, other) ∈
      (overlay.visibleProperty base subject key).toList.map (fun value => ((key, value), subject)) ↔
        (subject = other ∧ key = probe.1) ∧
          (LayeredState.mk base overlay).contents.HasValue probe other := by
    intro probe other
    rw [List.mem_map]
    constructor
    · rintro ⟨value, member, same⟩
      cases same
      exact ⟨⟨rfl, rfl⟩, Option.mem_toList.mp member⟩
    · rintro ⟨⟨rfl, rfl⟩, carried⟩
      exact ⟨probe.2, Option.mem_toList.mpr carried, rfl⟩
  refine (indexed.equality.withdrawAll _).congr fun probe other => ?_
  rw [listed]
  unfold Contents.HasValue
  change (LayeredState.mk base { overlay with
      properties := nestedInsert overlay.properties subject key none }).property other
        probe.1 = some probe.2 ↔
      ¬ (_ ∧ (LayeredState.mk base overlay).property other probe.1 = some probe.2) ∧
        (LayeredState.mk base overlay).property other probe.1 = some probe.2
  rw [property_nestedInsert]
  unfold Contents.setSlot
  dsimp only
  by_cases same : subject = other ∧ key = probe.1
  · simp [same]
  · rw [if_neg same]
    simp only [same, false_and, not_false_iff, true_and]
    rfl

end Mutations

end Oxgraph
