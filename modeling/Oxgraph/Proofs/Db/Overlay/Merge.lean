import Oxgraph.Db.Backing
import Oxgraph.Lib.Result
import Oxgraph.Proofs.Db.Overlay.Lookup

/-! The merged iterators list exactly what the merged point reads return. -/

namespace Oxgraph

/-- Every record sits under its own id, in the base maps and in what the view shows. -/
structure LayeredState.Keyed (view : LayeredState) : Prop where
  base : view.base.contents.WellKeyed
  merged : view.contents.WellKeyed

/-- A coherent view is keyed, so every view a writer reaches is. -/
theorem LayeredState.Coherent.toKeyed {view : LayeredState} (coherent : view.Coherent) :
    view.Keyed :=
  ⟨coherent.baseKeyed, coherent.keyed⟩

/-- Inserting decoded records under their own ids keeps a record map keyed. -/
theorem foldlM_insert_keyed {Wire Record : Type} {own : Record → UInt64} {id : Wire → UInt64}
    {decode : Wire → Except DbError Record} {wires : List Wire}
    {start records : BTreeMap UInt64 Record}
    (decoded : ∀ {wire record}, decode wire = .ok record → own record = id wire)
    (keyed : ∀ {key record}, start[key]? = some record → own record = key)
    (folded : wires.foldlM (fun records wire => do
      return records.insert (id wire) (← decode wire)) start = .ok records) :
    ∀ {key record}, records[key]? = some record → own record = key := by
  induction wires generalizing start with
  | nil =>
    cases folded
    exact keyed
  | cons wire rest ih =>
    rw [List.foldlM_cons] at folded
    obtain ⟨next, inserted, folded⟩ := bind_eq_ok.mp folded
    obtain ⟨record, found, stored⟩ := bind_eq_ok.mp inserted
    cases stored
    refine ih ?_ folded
    intro key probe read
    rw [get_insert] at read
    split at read
    · -- The record just decoded carries the id it was inserted under.
      rename_i same
      cases read
      rw [decoded found, same]
    · exact keyed read

/-- The records of an opened base sit under their own ids. -/
theorem BaseRecords.open_wellKeyed {view : BaseView} {base : BaseRecords}
    (opened : BaseRecords.open view = .ok base) : base.contents.WellKeyed := by
  obtain ⟨records, decoded, rest⟩ := bind_eq_ok.mp opened
  cases rest
  obtain ⟨elements, elementsFolded, decoded⟩ := bind_eq_ok.mp decoded
  obtain ⟨relations, relationsFolded, decoded⟩ := bind_eq_ok.mp decoded
  obtain ⟨properties, _, decoded⟩ := bind_eq_ok.mp decoded
  cases decoded
  have decodedElement {wire : ElementWire} {record : ElementRecord}
      (found : decodeElement view wire = .ok record) : record.id = wire.id := by
    obtain ⟨labels, _, made⟩ := bind_eq_ok.mp found
    cases made
    rfl
  have decodedRelation {wire : RelationWire} {record : RelationRecord}
      (found : decodeRelation view wire = .ok record) : record.id = wire.id := by
    obtain ⟨labels, _, made⟩ := bind_eq_ok.mp found
    cases made
    rfl
  refine ⟨foldlM_insert_keyed decodedElement (by simp) elementsFolded,
    foldlM_insert_keyed decodedRelation (by simp) relationsFolded, ?_⟩
  · -- Incidences decode without failing, so their fold is the monadic one.
    refine @foldlM_insert_keyed IncidenceWire _ IncidenceRecord.id IncidenceWire.id
      (fun wire => .ok (decodeIncidence wire)) view.incidences ∅ _ ?_ (by simp) List.foldlM_pure
    rintro wire record ⟨⟩
    rfl

/-- Merged records, each paired with its own id, enumerate the layered reads. -/
theorem enumerates_records {Record : Type} {records : BTreeMap UInt64 Record}
    {delta : Delta Record} (own : Record → UInt64)
    (baseKeyed : ∀ {id record}, records[id]? = some record → own record = id)
    (keyed : ∀ {id record}, layered records delta id = some record → own record = id) :
    Enumerates (((mergeEntries (records.toList.map fun entry => (own entry.2, entry.2))
        delta.toList).map Prod.snd).map fun record => (own record, record))
      (layered records delta) := by
  obtain ⟨members, sorted⟩ := merged_records own baseKeyed keyed
  constructor
  · rw [List.map_map]
    exact sorted
  · intro id record
    rw [List.mem_map]
    constructor
    · rintro ⟨listed, member, same⟩
      cases same
      exact (members record).mp member
    · intro visible
      -- A visible record sits under its own id, so its pair is the one listed.
      have same := keyed visible
      refine ⟨record, (members record).mpr ?_, by rw [same]⟩
      rw [same]
      exact visible

section Views

variable {view : LayeredState}

/-- The visible properties enumerate the property reads. -/
theorem enumerates_properties :
    Enumerates view.properties fun slot => view.property slot.1 slot.2 where
  ascending := ascending_properties
  mem _ _ := mem_properties

/-- A subject's map of base values, with the overlay's entries applied, reads the visible values. -/
theorem enumerates_subjectProperties (subject : PropertySubject) :
    Enumerates (view.subjectProperties subject) (view.property subject) := by
  unfold LayeredState.subjectProperties
  have based (key : PropertyKeyId) :
      (view.base.properties.getD subject ∅)[key]? = view.base.property subject key := by
    unfold BaseRecords.property nestedGet
    rw [Std.ExtTreeMap.getD_eq_getD_getElem?]
    cases view.base.properties[subject]? <;> simp
  have merged {delta : List (PropertyKeyId × Option PropertyValue)}
      (reads : ∀ key, (applyDelta (view.base.properties.getD subject ∅) delta)[key]? =
        view.property subject key) :
      Enumerates (applyDelta (view.base.properties.getD subject ∅) delta).toList
        (view.property subject) := by
    rw [← funext reads]
    exact enumerates_toList _
  cases overlaid : view.overlay.properties[subject]? with
  | none =>
    refine merged fun key => ?_
    unfold LayeredState.property nestedGet
    rw [overlaid]
    exact based key
  | some keys =>
    refine merged fun key => ?_
    unfold LayeredState.property nestedGet
    rw [overlaid, get_applyDelta_toList]
    unfold layered
    simp only [Option.bind_some]
    cases keys[key]? with
    | none => exact based key
    | some entry => rfl

/--
The merged iterators agree with the merged point reads.

Each lists every key its point read answers, once, in strictly ascending order.
The properties of one subject are those listed for it.
-/
theorem merged_iteration (keyed : view.Keyed) :
    Enumerates (view.elements.map fun record => (record.id, record)) view.element ∧
    Enumerates (view.relations.map fun record => (record.id, record)) view.relation ∧
    Enumerates (view.incidences.map fun record => (record.id, record)) view.incidence ∧
    Enumerates view.properties (fun slot => view.property slot.1 slot.2) ∧
    ∀ subject, view.subjectProperties subject =
      (view.properties.filter fun entry => entry.1.1 = subject).map fun entry =>
        (entry.1.2, entry.2) := by
  refine ⟨?_, ?_, ?_, enumerates_properties, fun subject => ?_⟩
  · exact enumerates_records ElementRecord.id keyed.base.element keyed.merged.element
  · exact enumerates_records RelationRecord.id keyed.base.relation keyed.merged.relation
  · exact enumerates_records IncidenceRecord.id keyed.base.incidence keyed.merged.incidence
  · -- Both sides enumerate the reads of the subject, and only one list does.
    apply (enumerates_subjectProperties subject).unique
    exact enumerates_properties.fiber subject

end Views

/-- A base of two elements under an overlay that masks the first and adds a third. -/
def maskedView : LayeredState where
  base := { BaseRecords.empty with
    elements := ((∅ : BTreeMap ElementId ElementRecord).insert 1 ⟨1, ∅⟩).insert 2 ⟨2, ∅⟩ }
  overlay := { Overlay.empty .initial .empty with
    elements := ((∅ : Delta ElementRecord).insert 1 none).insert 3 (some ⟨3, ∅⟩) }

/-- The records of the masked view sit under their own ids. -/
theorem maskedView_keyed : maskedView.Keyed := by
  have based {id : ElementId} {record : ElementRecord}
      (found : maskedView.base.element id = some record) : record.id = id := by
    change (((∅ : BTreeMap ElementId ElementRecord).insert 1 ⟨1, ∅⟩).insert 2 ⟨2, ∅⟩)[id]? =
      some record at found
    rw [get_insert, get_insert] at found
    grind
  have shown {id : ElementId} {record : ElementRecord}
      (found : maskedView.element id = some record) : record.id = id := by
    have reads : maskedView.overlay.elements[id]? = if 3 = id then some (some ⟨3, ∅⟩)
        else if 1 = id then some none else (∅ : Delta ElementRecord)[id]? := by
      show (((∅ : Delta ElementRecord).insert 1 none).insert 3 (some ⟨3, ∅⟩))[id]? = _
      rw [get_insert, get_insert]
    have entries := @based id
    unfold LayeredState.element layered at found
    unfold BaseRecords.element at entries
    grind
  refine ⟨⟨based, ?_, ?_⟩, ⟨shown, ?_, ?_⟩⟩ <;> rintro id record found <;> exact absurd found
    (by simp [maskedView, BaseRecords.contents, BaseRecords.empty, BaseRecords.relation,
      BaseRecords.incidence, LayeredState.contents, LayeredState.relation, LayeredState.incidence,
      layered, Overlay.empty])

/-- The masked view iterates as it reads. -/
theorem maskedView_iteration :
    Enumerates (maskedView.elements.map fun record => (record.id, record)) maskedView.element ∧
    Enumerates (maskedView.relations.map fun record => (record.id, record)) maskedView.relation ∧
    Enumerates (maskedView.incidences.map fun record => (record.id, record))
      maskedView.incidence ∧
    Enumerates maskedView.properties (fun slot => maskedView.property slot.1 slot.2) ∧
    ∀ subject, maskedView.subjectProperties subject =
      (maskedView.properties.filter fun entry => entry.1.1 = subject).map fun entry =>
        (entry.1.2, entry.2) :=
  merged_iteration maskedView_keyed

end Oxgraph
