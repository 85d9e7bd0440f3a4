import Oxgraph.Spec.Coherent

/-! The index-backed lookups answer exactly as the scans over the merged view. -/

namespace Oxgraph

open List (mem_filter mem_flatMap mem_map)

section Records

variable {Record : Type} {records : BTreeMap UInt64 Record} {delta : Delta Record}

/-- The records of a merge, in the order it emits them. -/
theorem merged_records (own : Record → UInt64)
    (baseKeyed : ∀ {id record}, records[id]? = some record → own record = id)
    (keyed : ∀ {id record}, layered records delta id = some record → own record = id) :
    (∀ record, record ∈ (mergeEntries (records.toList.map fun entry => (own entry.2, entry.2))
        delta.toList).map Prod.snd ↔ layered records delta (own record) = some record) ∧
      Ascending (((mergeEntries (records.toList.map fun entry => (own entry.2, entry.2))
        delta.toList).map Prod.snd).map own) := by
  have stream : (records.toList.map fun entry => (own entry.2, entry.2)) = records.toList := by
    refine (List.map_congr_left fun entry member => ?_).trans (List.map_id _)
    exact Prod.ext (baseKeyed (mem_toList.mp member)) rfl
  rw [stream]
  have merged : ∀ key record, (key, record) ∈ mergeEntries records.toList delta.toList ↔
      layered records delta key = some record := fun _ _ => mem_mergeEntries_toList records delta
  constructor
  · intro record
    rw [mem_map]
    constructor
    · rintro ⟨⟨key, _⟩, member, rfl⟩
      have visible := (merged _ _).mp member
      rwa [keyed visible]
    · intro visible
      exact ⟨_, (merged _ _).mpr visible, rfl⟩
  · rw [List.map_map]
    have keys : (mergeEntries records.toList delta.toList).map (own ∘ Prod.snd) =
        (mergeEntries records.toList delta.toList).map Prod.fst :=
      List.map_congr_left fun entry member => keyed ((merged entry.1 entry.2).mp member)
    rw [keys]
    exact ascending_mergeEntries (ascending_toList records) (ascending_toList delta)

end Records

section Scans

variable {view : LayeredState}

/-- The visible elements in id order. -/
theorem elements_spec (coherent : view.Coherent) :
    (∀ record, record ∈ view.elements ↔ view.element record.id = some record) ∧
      Ascending (view.elements.map ElementRecord.id) :=
  merged_records ElementRecord.id coherent.baseKeyed.element coherent.keyed.element

/-- The visible relations in id order. -/
theorem relations_spec (coherent : view.Coherent) :
    (∀ record, record ∈ view.relations ↔ view.relation record.id = some record) ∧
      Ascending (view.relations.map RelationRecord.id) :=
  merged_records RelationRecord.id coherent.baseKeyed.relation coherent.keyed.relation

/-- The visible incidences in id order. -/
theorem incidences_spec (coherent : view.Coherent) :
    (∀ record, record ∈ view.incidences ↔ view.incidence record.id = some record) ∧
      Ascending (view.incidences.map IncidenceRecord.id) :=
  merged_records IncidenceRecord.id coherent.baseKeyed.incidence coherent.keyed.incidence

/-- The visible properties, each exactly once. -/
theorem mem_properties {subject : PropertySubject} {key : PropertyKeyId} {value : PropertyValue} :
    ((subject, key), value) ∈ view.properties ↔ view.property subject key = some value := by
  unfold LayeredState.properties
  rw [mem_mergeEntries (ascending_nestedEntries _) (ascending_nestedEntries _), Merged,
    mem_nestedEntries, mem_nestedEntries]
  have mentioned : (subject, key) ∈ (nestedEntries view.overlay.properties).map Prod.fst ↔
      ∃ slot, nestedGet view.overlay.properties subject key = some slot := by
    simp only [mem_map, Prod.exists, exists_and_right, exists_eq_right, mem_nestedEntries]
  rw [mentioned]
  unfold LayeredState.property BaseRecords.property
  cases nestedGet view.overlay.properties subject key with
  | none => simp
  | some slot => simp

/-- The visible properties come in subject and key order. -/
theorem ascending_properties : Ascending (view.properties.map Prod.fst) :=
  ascending_mergeEntries (ascending_nestedEntries _) (ascending_nestedEntries _)

/-- The ids of the records a scan keeps stay in order. -/
theorem ascending_map_filter {Record : Type} {items : List Record} {own : Record → UInt64}
    (sorted : Ascending (items.map own)) (keep : Record → Bool) :
    Ascending ((items.filter keep).map own) :=
  List.Pairwise.sublist (List.filter_sublist.map own) sorted

/-- The subjects of one key's properties come in order. -/
theorem ascending_subjects (key : PropertyKeyId)
    (keep : (PropertySubject × PropertyKeyId) × PropertyValue → Bool)
    (own : ∀ entry, keep entry → entry.1.2 = key) :
    Ascending ((view.properties.filter keep).map fun entry => entry.1.1) := by
  have sorted : (view.properties.filter keep).Pairwise fun before after =>
      compare before.1 after.1 = .lt :=
    (List.pairwise_map.mp ascending_properties).filter keep
  refine List.pairwise_map.mpr (sorted.imp_of_mem ?_)
  intro before after memberBefore memberAfter order
  rw [compare_pair, own before (mem_filter.mp memberBefore).2,
    own after (mem_filter.mp memberAfter).2, Std.ReflOrd.compare_self] at order
  revert order
  cases compare before.1.1 after.1.1 <;> simp

end Scans

section Lookups

variable {view : LayeredState} (coherent : view.Coherent)
  (represents : view.base.index.Represents view.base.contents)

include coherent represents

/-- The label lookup lists exactly the visible elements that carry the label. -/
theorem elementsWithLabel_eq_scan (label : LabelId) :
    view.elementsWithLabel label = view.elementsWithLabelScan label := by
  obtain ⟨members, sorted⟩ := elements_spec coherent
  refine (ascending_mergePosting _ _ _).ext (ascending_map_filter sorted _) ?_
  intro id
  have merged := coherent.indexed.label.mem_merge (represents.label label) id
  refine merged.trans ?_
  unfold LayeredState.elementsWithLabelScan
  simp only [mem_map, mem_filter, members]
  constructor
  · rintro ⟨record, visible, carried⟩
    obtain rfl := coherent.keyed.element visible
    exact ⟨record, ⟨visible, by simpa using carried⟩, rfl⟩
  · rintro ⟨record, ⟨visible, carried⟩, rfl⟩
    exact ⟨record, visible, by simpa using carried⟩

/-- The type lookup lists exactly the visible relations of the type. -/
theorem relationsWithType_eq_scan (relationType : RelationTypeId) :
    view.relationsWithType relationType = view.relationsWithTypeScan relationType := by
  obtain ⟨members, sorted⟩ := relations_spec coherent
  refine (ascending_mergePosting _ _ _).ext (ascending_map_filter sorted _) ?_
  intro id
  have merged := coherent.indexed.relationType.mem_merge (represents.relationType relationType) id
  refine merged.trans ?_
  unfold LayeredState.relationsWithTypeScan
  simp only [mem_map, mem_filter, members]
  constructor
  · rintro ⟨record, visible, typed⟩
    obtain rfl := coherent.keyed.relation visible
    exact ⟨record, ⟨visible, by simpa using typed⟩, rfl⟩
  · rintro ⟨record, ⟨visible, typed⟩, rfl⟩
    exact ⟨record, visible, by simpa using typed⟩

omit represents in
/-- Reading back the ids a scan of the incidences kept gives the records it kept. -/
theorem filter_incidences_eq (keep : IncidenceRecord → Bool) {ids : List IncidenceId}
    (sorted : Ascending ids)
    (posted : ∀ id, id ∈ ids ↔ ∃ record, view.incidence id = some record ∧ keep record) :
    ids.filterMap view.incidence = view.incidences.filter keep := by
  obtain ⟨members, order⟩ := incidences_spec coherent
  have listed : ids = (view.incidences.filter keep).map IncidenceRecord.id := by
    refine sorted.ext (ascending_map_filter order keep) fun id => ?_
    rw [posted]
    simp only [mem_map, mem_filter, members]
    constructor
    · rintro ⟨record, visible, kept⟩
      obtain rfl := coherent.keyed.incidence visible
      exact ⟨record, ⟨visible, kept⟩, rfl⟩
    · rintro ⟨record, ⟨visible, kept⟩, rfl⟩
      exact ⟨record, visible, kept⟩
  have back : ∀ records : List IncidenceRecord,
      (∀ record ∈ records, view.incidence record.id = some record) →
        (records.map IncidenceRecord.id).filterMap view.incidence = records := by
    intro records visible
    induction records with
    | nil => rfl
    | cons record rest ih =>
      rw [List.map_cons, List.filterMap_cons_some (visible record (by simp)),
        ih fun other member => visible other (by simp [member])]
  rw [listed]
  refine back _ fun record member => ?_
  exact (members record).mp (mem_filter.mp member).1

/-- The element adjacency lookup lists exactly the visible incidences attached to it. -/
theorem elementIncidences_eq_scan (element : ElementId) :
    view.elementIncidences element = view.elementIncidencesScan element := by
  refine filter_incidences_eq coherent _ (ascending_mergePosting _ _ _) fun id => ?_
  have merged :=
    coherent.indexed.elementIncidence.mem_merge (represents.elementIncidence element) id
  refine merged.trans ?_
  simp only [decide_eq_true_iff]
  rfl

/-- The relation adjacency lookup lists exactly the visible incidences that belong to it. -/
theorem relationIncidences_eq_scan (relation : RelationId) :
    view.relationIncidences relation = view.relationIncidencesScan relation := by
  refine filter_incidences_eq coherent _ (ascending_mergePosting _ _ _) fun id => ?_
  have merged :=
    coherent.indexed.relationIncidence.mem_merge (represents.relationIncidence relation) id
  refine merged.trans ?_
  simp only [decide_eq_true_iff]
  rfl

/-- The merged equality posting holds exactly the subjects that carry the value. -/
theorem mem_propertyEqual (key : PropertyKeyId) (value : PropertyValue)
    (subject : PropertySubject) : subject ∈ view.propertyEqual key value ↔
      view.property subject key = some value :=
  coherent.indexed.equality.mem_merge (represents.equality key value) subject

/-- The equality lookup lists exactly the subjects whose value equals the probe. -/
theorem propertyEqual_eq_scan (key : PropertyKeyId) (value : PropertyValue) :
    view.propertyEqual key value = view.propertyEqualScan key value := by
  refine (ascending_mergePosting _ _ _).ext (ascending_subjects key _ ?_) fun subject => ?_
  · intro entry kept
    exact (of_decide_eq_true kept).1
  · refine (mem_propertyEqual coherent represents key value subject).trans ?_
    rw [← mem_properties]
    constructor
    · intro listed
      exact mem_map.mpr ⟨_, mem_filter.mpr ⟨listed, by simp⟩, rfl⟩
    · intro scanned
      obtain ⟨⟨⟨subject, other⟩, carried⟩, kept, rfl⟩ := mem_map.mp scanned
      obtain ⟨listed, same⟩ := mem_filter.mp kept
      obtain ⟨rfl, rfl⟩ := of_decide_eq_true same
      exact listed

variable {subject : PropertySubject}

omit coherent represents in
/-- The subjects a removal posting keeps. -/
theorem mem_keepUnremoved {removed : BTreeMap EqualityKey (BTreeSet PropertySubject)}
    {key : EqualityKey} {subjects : List PropertySubject} :
    subject ∈ OverlayIndex.keepUnremoved removed[key]? subjects ↔
      subject ∈ subjects ∧ subject ∉ posted removed key := by
  unfold OverlayIndex.keepUnremoved
  rw [mem_filter]
  cases found : removed[key]? with
  | none => simp [posted_of_get_none found]
  | some members =>
    rw [posted_of_get found]
    simp [← Std.ExtTreeSet.contains_iff_mem]

/-- The kept base postings and the added ones in a range hold the subjects with a value in it. -/
theorem mem_range_postings (key : PropertyKeyId) (min max : PropertyValue)
    (subject : PropertySubject) :
    (subject ∈ (view.base.index.rangePostings key min max).flatMap fun posting =>
        OverlayIndex.keepUnremoved view.overlay.index.equality.removed[posting.1]? posting.2) ∨
      (subject ∈ (mapRange view.overlay.index.equality.added (key, min) (key, max)).flatMap
        fun entry => entry.2.toList) ↔
      ∃ value, view.property subject key = some value ∧ compare value min ≠ .lt ∧
        compare value max ≠ .gt := by
  have carried (value : PropertyValue) :=
    @PostingDelta.Tracks.carries_iff _ _ _ _ _ _ _ _ _ coherent.indexed.equality (key, value) subject
  constructor
  · rintro (kept | added)
    · obtain ⟨⟨⟨other, value⟩, subjects⟩, listed, member⟩ := mem_flatMap.mp kept
      obtain ⟨present, unremoved⟩ := mem_keepUnremoved.mp member
      obtain ⟨rfl, above, below, based⟩ := (represents.range key min max _ subject).mp
        ⟨subjects, listed, present⟩
      exact ⟨value, (carried value).mp (.inl ⟨based, unremoved⟩), above, below⟩
    · obtain ⟨⟨⟨other, value⟩, members⟩, listed, member⟩ := mem_flatMap.mp added
      obtain ⟨read, rfl, above, below⟩ := mem_mapRange_pair.mp listed
      have present := exists_mem_posting.mp ⟨members, read, by simpa using member⟩
      exact ⟨value, (carried value).mp (.inr present), above, below⟩
  · rintro ⟨value, now, above, below⟩
    rcases (carried value).mpr now with ⟨based, unremoved⟩ | added
    · obtain ⟨subjects, listed, present⟩ := (represents.range key min max (key, value) subject).mpr
        ⟨rfl, above, below, based⟩
      exact .inl (mem_flatMap.mpr ⟨_, listed, mem_keepUnremoved.mpr ⟨present, unremoved⟩⟩)
    · obtain ⟨members, read, present⟩ := exists_mem_posting.mpr added
      exact .inr (mem_flatMap.mpr ⟨((key, value), members),
        mem_mapRange_pair.mpr ⟨read, rfl, above, below⟩, by simpa using present⟩)

/-- The range lookup lists exactly the subjects whose value falls in the range. -/
theorem propertyRange_eq_scan (key : PropertyKeyId) (min max : PropertyValue) :
    view.propertyRange key min max = view.propertyRangeScan key min max := by
  have scanned (subject : PropertySubject) : subject ∈ view.propertyRangeScan key min max ↔
      ∃ value, view.property subject key = some value ∧ compare value min ≠ .lt ∧
        compare value max ≠ .gt := by
    unfold LayeredState.propertyRangeScan
    rw [mem_map]
    constructor
    · rintro ⟨⟨⟨subject, other⟩, value⟩, kept, rfl⟩
      obtain ⟨listed, inside⟩ := mem_filter.mp kept
      obtain ⟨rfl, above, below⟩ := of_decide_eq_true inside
      exact ⟨value, mem_properties.mp listed, above, below⟩
    · rintro ⟨value, carried, above, below⟩
      refine ⟨((subject, key), value), mem_filter.mpr ⟨mem_properties.mpr carried, ?_⟩, rfl⟩
      exact decide_eq_true ⟨rfl, above, below⟩
  unfold LayeredState.propertyRange OverlayIndex.propertyRange
  split
  · -- No value is at least the upper and at most the lower of two swapped bounds.
    rename_i swapped
    refine (List.eq_nil_iff_forall_not_mem.mpr fun subject member => ?_).symm
    obtain ⟨value, _, above, below⟩ := (scanned subject).mp member
    have minValue : (compare min value).isLE := by
      rw [Std.OrientedOrd.eq_swap (a := min)]
      revert above
      cases compare value min <;> simp
    have valueMax : (compare value max).isLE := by
      revert below
      cases compare value max <;> simp
    have ordered := Std.TransOrd.isLE_trans minValue valueMax
    rw [swapped] at ordered
    cases ordered
  · refine (ascending_toList_set _).ext (ascending_subjects key _ ?_) fun subject => ?_
    · intro entry kept
      exact (of_decide_eq_true kept).1
    · rw [Std.ExtTreeSet.mem_toList, mem_collectSet, List.mem_append]
      exact (mem_range_postings coherent represents key min max subject).trans
        (scanned subject).symm

/-- The key lookup lists exactly the subjects that carry the key, with their values. -/
theorem propertyKeySubjects_eq_scan (key : PropertyKeyId) :
    view.propertyKeySubjects key = view.propertyKeySubjectsScan key := by
  have carried (subject : PropertySubject) (value : PropertyValue) :=
    @PostingDelta.Tracks.carries_iff _ _ _ _ _ _ _ _ _ coherent.indexed.equality (key, value) subject
  unfold LayeredState.propertyKeySubjects OverlayIndex.propertyKeySubjects
  generalize keptEq : ((view.base.index.keyPostings key).flatMap fun posting =>
    (OverlayIndex.keepUnremoved view.overlay.index.equality.removed[(key, posting.1)]?
      posting.2).map (·, posting.1)) = kept
  generalize addedEq : (((mapFrom view.overlay.index.equality.added (key, .boolean false)).takeWhile
    fun entry => entry.1.1 = key).flatMap fun entry =>
      entry.2.toList.map (·, entry.1.2)) = added
  have mem_kept (subject : PropertySubject) (value : PropertyValue) : (subject, value) ∈ kept ↔
      view.base.contents.HasValue (key, value) subject ∧
        subject ∉ posted view.overlay.index.equality.removed (key, value) := by
    rw [← keptEq, mem_flatMap]
    constructor
    · rintro ⟨⟨_, subjects⟩, listed, member⟩
      obtain ⟨_, keep, same⟩ := mem_map.mp member
      obtain ⟨rfl, rfl⟩ := Prod.mk.inj same
      obtain ⟨present, unremoved⟩ := mem_keepUnremoved.mp keep
      exact ⟨(represents.key key _ _).mp ⟨subjects, listed, present⟩, unremoved⟩
    · rintro ⟨based, unremoved⟩
      obtain ⟨subjects, listed, present⟩ := (represents.key key value subject).mpr based
      exact ⟨_, listed, mem_map.mpr ⟨subject, mem_keepUnremoved.mpr ⟨present, unremoved⟩, rfl⟩⟩
  have mem_added (subject : PropertySubject) (value : PropertyValue) : (subject, value) ∈ added ↔
      subject ∈ posted view.overlay.index.equality.added (key, value) := by
    rw [← addedEq, mem_flatMap, ← exists_mem_posting]
    constructor
    · rintro ⟨⟨⟨other, _⟩, members⟩, listed, member⟩
      obtain ⟨_, present, same⟩ := mem_map.mp member
      cases same
      obtain ⟨read, rfl⟩ := (mem_takeWhile_mapFrom PropertyValue.isLE_compare_false).mp listed
      exact ⟨members, read, by simpa using present⟩
    · rintro ⟨members, read, present⟩
      exact ⟨((key, value), members),
        (mem_takeWhile_mapFrom PropertyValue.isLE_compare_false).mpr ⟨read, rfl⟩,
        mem_map.mpr ⟨subject, by simpa using present, rfl⟩⟩
  have listed (subject : PropertySubject) (value : PropertyValue) :
      (subject, value) ∈ kept ++ added ↔ view.property subject key = some value := by
    rw [List.mem_append, mem_kept, mem_added]
    exact carried subject value
  have scanned (subject : PropertySubject) (value : PropertyValue) :
      (subject, value) ∈ view.propertyKeySubjectsScan key ↔
        view.property subject key = some value := by
    unfold LayeredState.propertyKeySubjectsScan
    rw [mem_map, ← mem_properties]
    constructor
    · rintro ⟨⟨⟨_, other⟩, _⟩, kept, same⟩
      cases same
      obtain ⟨present, own⟩ := mem_filter.mp kept
      obtain rfl := of_decide_eq_true own
      exact present
    · intro present
      exact ⟨_, mem_filter.mpr ⟨present, by simp⟩, rfl⟩
  have sorted : Ascending ((view.propertyKeySubjectsScan key).map Prod.fst) := by
    unfold LayeredState.propertyKeySubjectsScan
    rw [List.map_map]
    exact ascending_subjects key _ fun entry kept => of_decide_eq_true kept
  refine ext_of_ascending_keys (ascending_toList _) sorted fun item => ?_
  obtain ⟨subject, value⟩ := item
  -- A subject carries one value under the key, so its bindings agree.
  rw [mem_toList, get_ofList_of_agree, listed, scanned]
  intro subject value other first second
  rw [listed] at first second
  exact Option.some.inj (first.symm.trans second)

omit coherent represents in
/-- Intersecting keeps the accumulated subjects found in every posting. -/
theorem mem_intersectPostings {accumulator : BTreeSet PropertySubject}
    {postings : List (BTreeSet PropertySubject)} :
    subject ∈ OverlayIndex.intersectPostings accumulator postings ↔
      subject ∈ accumulator ∧ ∀ posting ∈ postings, subject ∈ posting := by
  induction postings generalizing accumulator with
  | nil => simp [OverlayIndex.intersectPostings]
  | cons posting rest ih =>
    unfold OverlayIndex.intersectPostings
    split
    · -- An empty accumulation stays empty.
      rename_i drained
      rw [Std.ExtTreeSet.isEmpty_iff.mp drained]
      simp
    · rw [ih, List.forall_mem_cons, ← and_assoc]
      simp

omit coherent represents in
/-- Intersecting non-empty postings from the smallest up keeps what they share. -/
theorem mem_intersect_smallest {postings : List (BTreeSet PropertySubject)}
    (nonempty : postings ≠ []) :
    subject ∈ (match postings.mergeSort fun left right => left.size ≤ right.size with
      | [] => []
      | first :: rest => (OverlayIndex.intersectPostings first rest).toList) ↔
      ∀ posting ∈ postings, subject ∈ posting := by
  have perm := List.mergeSort_perm postings fun left right => decide (left.size ≤ right.size)
  have members : (∀ posting ∈ postings.mergeSort fun left right => left.size ≤ right.size,
      subject ∈ posting) ↔ ∀ posting ∈ postings, subject ∈ posting :=
    ⟨fun all posting member => all posting (perm.mem_iff.mpr member),
      fun all posting member => all posting (perm.mem_iff.mp member)⟩
  rw [← members]
  cases order : postings.mergeSort fun left right => left.size ≤ right.size with
  | nil =>
    rw [order] at perm
    exact absurd perm.symm.eq_nil nonempty
  | cons first rest => rw [Std.ExtTreeSet.mem_toList, mem_intersectPostings, List.forall_mem_cons]

omit coherent represents in
/-- A composite lookup lists its subjects in order. -/
theorem ascending_propertyCompositeEqual (index : OverlayIndex) (base : BaseIndex)
    (pairs : List (PropertyKeyId × PropertyValue)) :
    Ascending (index.propertyCompositeEqual base pairs) := by
  unfold OverlayIndex.propertyCompositeEqual
  dsimp only
  split
  · exact ascending_nil
  · exact ascending_toList_set _

omit coherent represents in
/-- The grouped properties read as the view does. -/
theorem nestedGet_propertiesBySubject (subject : PropertySubject) (key : PropertyKeyId) :
    nestedGet view.propertiesBySubject subject key = view.property subject key := by
  apply Option.ext
  intro value
  rw [← mem_properties]
  refine nestedGet_group ?_
  rintro ⟨subject, key⟩ value other first second
  rw [mem_properties] at first second
  exact Option.some.inj (first.symm.trans second)

/-- The composite lookup of a non-empty tuple lists exactly the subjects that match it. -/
theorem typedPropertyCompositeEqual_eq_scan (keys : List PropertyKeyId)
    (values : List PropertyValue) (nonempty : keys ≠ []) :
    view.typedPropertyCompositeEqual keys values =
      view.typedPropertyCompositeEqualScan keys values := by
  unfold LayeredState.typedPropertyCompositeEqual LayeredState.typedPropertyCompositeEqualScan
  cases valid : view.validateTuple keys values with
  | error error => rfl
  | ok _ =>
    -- The tuple passed its arity check, so it has a first pair.
    have pairs : keys.zip values ≠ [] := by
      unfold LayeredState.validateTuple at valid
      split at valid
      · cases valid
      · rename_i arity
        rw [ne_eq, List.zip_eq_nil_iff, not_or]
        refine ⟨nonempty, fun absent => nonempty ?_⟩
        rw [absent] at arity
        exact List.length_eq_zero_iff.mp (not_not.mp arity)
    refine congrArg Except.ok ?_
    have perKey : ((keys.zip values).map fun pair =>
        collectSet (view.overlay.index.propertyEqual view.base.index pair.1 pair.2)) ≠ [] := by
      simpa using pairs
    have found (subject : PropertySubject) :
        subject ∈ view.overlay.index.propertyCompositeEqual view.base.index (keys.zip values) ↔
          ∀ pair ∈ keys.zip values, view.property subject pair.1 = some pair.2 := by
      refine (mem_intersect_smallest perKey).trans ?_
      rw [List.forall_mem_map]
      refine forall₂_congr fun pair _ => ?_
      rw [mem_collectSet]
      exact mem_propertyEqual coherent represents pair.1 pair.2 subject
    refine Ascending.ext (ascending_propertyCompositeEqual _ _ _) ?_ fun subject => ?_
    · exact List.Pairwise.sublist (List.filter_sublist.map _) (ascending_toList _)
    · rw [found, mem_map]
      have read (pair : PropertyKeyId × PropertyValue) :=
        @nestedGet_propertiesBySubject view subject pair.1
      constructor
      · intro carried
        obtain ⟨pair, rest, listed⟩ := List.exists_cons_of_ne_nil pairs
        have first := carried pair (by simp [listed])
        rw [← read, nestedGet, Option.bind_eq_some_iff] at first
        obtain ⟨entries, present, _⟩ := first
        refine ⟨(subject, entries), mem_filter.mpr ⟨mem_toList.mpr present, ?_⟩, rfl⟩
        rw [List.all_eq_true]
        intro pair member
        have each := carried pair member
        rw [← read, nestedGet, present, Option.bind_some] at each
        exact decide_eq_true each
      · rintro ⟨⟨subject, entries⟩, kept, rfl⟩ pair member
        obtain ⟨listed, matched⟩ := mem_filter.mp kept
        rw [← read, nestedGet, mem_toList.mp listed, Option.bind_some]
        exact of_decide_eq_true (List.all_eq_true.mp matched pair member)

end Lookups

/-- No member of a posting is both added and removed. -/
def PostingDelta.Apart {K M : Type} [Ord K] [Std.TransOrd K] [Ord M] [Std.TransOrd M]
    (delta : PostingDelta K M) : Prop :=
  ∀ key member, member ∈ posted delta.added key → member ∉ posted delta.removed key

/-- The incremental index of a view answers every probe as a scan of the view does. -/
structure LayeredState.Exact (view : LayeredState) : Prop where
  elementsWithLabel : ∀ label, view.elementsWithLabel label = view.elementsWithLabelScan label
  relationsWithType : ∀ relationType,
    view.relationsWithType relationType = view.relationsWithTypeScan relationType
  elementIncidences : ∀ element,
    view.elementIncidences element = view.elementIncidencesScan element
  relationIncidences : ∀ relation,
    view.relationIncidences relation = view.relationIncidencesScan relation
  propertyEqual : ∀ key value, view.propertyEqual key value = view.propertyEqualScan key value
  propertyRange : ∀ key min max,
    view.propertyRange key min max = view.propertyRangeScan key min max
  propertyKeySubjects : ∀ key, view.propertyKeySubjects key = view.propertyKeySubjectsScan key
  typedPropertyCompositeEqual : ∀ keys values, keys ≠ [] →
    view.typedPropertyCompositeEqual keys values = view.typedPropertyCompositeEqualScan keys values
  label : view.overlay.index.label.Apart
  relationType : view.overlay.index.relationType.Apart
  equality : view.overlay.index.equality.Apart
  elementIncidence : view.overlay.index.elementIncidence.Apart
  relationIncidence : view.overlay.index.relationIncidence.Apart

/-- A sound view is exact. -/
theorem LayeredState.Sound.exact {view : LayeredState} (sound : view.Sound) : view.Exact where
  elementsWithLabel := elementsWithLabel_eq_scan sound.coherent sound.represents
  relationsWithType := relationsWithType_eq_scan sound.coherent sound.represents
  elementIncidences := elementIncidences_eq_scan sound.coherent sound.represents
  relationIncidences := relationIncidences_eq_scan sound.coherent sound.represents
  propertyEqual := propertyEqual_eq_scan sound.coherent sound.represents
  propertyRange := propertyRange_eq_scan sound.coherent sound.represents
  propertyKeySubjects := propertyKeySubjects_eq_scan sound.coherent sound.represents
  typedPropertyCompositeEqual :=
    typedPropertyCompositeEqual_eq_scan sound.coherent sound.represents
  label _ _ := sound.coherent.indexed.label.disjoint
  relationType _ _ := sound.coherent.indexed.relationType.disjoint
  equality _ _ := sound.coherent.indexed.equality.disjoint
  elementIncidence _ _ := sound.coherent.indexed.elementIncidence.disjoint
  relationIncidence _ _ := sound.coherent.indexed.relationIncidence.disjoint

end Oxgraph
