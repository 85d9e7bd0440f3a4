import Oxgraph.Proofs.Db.Database.Writer
import Oxgraph.Proofs.Db.Overlay.Coherent

/-! Every run of a writer keeps its view coherent. -/

namespace Oxgraph

/-- What a layered read shows is a key of one of its layers. -/
theorem mem_of_layered {Record : Type} {records : BTreeMap UInt64 Record} {delta : Delta Record}
    {id : UInt64} {record : Record} (visible : layered records delta id = some record) :
    id ∈ records ∨ id ∈ delta := by
  unfold layered at visible
  rw [Std.ExtTreeMap.mem_iff_isSome_getElem?, Std.ExtTreeMap.mem_iff_isSome_getElem?]
  cases found : delta[id]? with
  | some entry => exact .inr rfl
  | none =>
    rw [found] at visible
    exact .inl (Option.isSome_iff_exists.mpr ⟨record, visible⟩)

namespace LayeredState.Coherent

variable {view : LayeredState} (coherent : view.Coherent)

include coherent

/-- A visible element is below the element watermark. -/
theorem element_lt {id : ElementId} {record : ElementRecord}
    (visible : view.element id = some record) : id < view.nextIds.element :=
  @coherent.bounded .element id (mem_of_layered visible)

/-- A visible relation is below the relation watermark. -/
theorem relation_lt {id : RelationId} {record : RelationRecord}
    (visible : view.relation id = some record) : id < view.nextIds.relation :=
  @coherent.bounded .relation id (mem_of_layered visible)

/-- A visible incidence is below the incidence watermark. -/
theorem incidence_lt {id : IncidenceId} {record : IncidenceRecord}
    (visible : view.incidence id = some record) : id < view.nextIds.incidence :=
  @coherent.bounded .incidence id (mem_of_layered visible)

end LayeredState.Coherent

/-- A visible subject is present in the contents. -/
theorem LayeredState.has_of_contains {view : LayeredState} {subject : PropertySubject}
    (visible : view.contains subject = true) : view.contents.Has subject := by
  cases subject <;> exact visible

/-- What a mutator has checked is what a mutation relies on. -/
theorem Change.Allowed.known {change : Change} {view : LayeredState}
    (allowed : change.Allowed view) (coherent : view.Coherent) : change.Known view where
  masks {family id} masked := by
    cases change with
    | tombstoneElement _ | tombstoneRelation _ => exact allowed.elim
    | tombstoneIncidence _ =>
      cases masked
      obtain ⟨record, visible⟩ := Option.isSome_iff_exists.mp (show (view.incidence id).isSome from
        allowed)
      exact coherent.incidence_lt visible
    | _ => cases masked
  sets := by
    rintro subject key value rfl
    exact LayeredState.has_of_contains allowed.1

/-- Tombstoning known incidences takes known steps. -/
theorem tombstoneIncidences_steps {base : BaseRecords} {ids : List IncidenceId}
    {writer : WriteOverlay} (known : ∀ id ∈ ids, id < writer.next.incidence) :
    Relation.ReflTransGen (DeltaStep base Change.Known) writer
      (Writer.tombstoneIncidences base ids writer) := by
  induction ids generalizing writer with
  | nil => exact .refl
  | cons id rest ih =>
    have first : DeltaStep base Change.Known writer (writer.tombstoneIncidence base id) := by
      refine WriteOverlay.mutate_step (.tombstoneIncidence id) ⟨?_, ?_⟩ rfl rfl rfl
      · rintro family masked ⟨⟩
        exact known id (by simp)
      · rintro subject key value ⟨⟩
    exact .head first (ih fun other member => known other (by simp [member]))

/-- A guarded step is a run of known steps. -/
theorem GuardedStep.known_steps {base : BaseRecords} {before after : WriteOverlay}
    (step : GuardedStep base before after)
    (coherent : (LayeredState.mk base before.toOverlay).Coherent) :
    Relation.ReflTransGen (DeltaStep base Change.Known) before after := by
  -- The cascade masks incidences that the view shows, which are below the watermark.
  have listed {ids : List IncidenceId} : ∀ id ∈
      (ids.filterMap (LayeredState.mk base before.toOverlay).incidence).map IncidenceRecord.id,
      id < before.next.incidence := by
    intro id member
    obtain ⟨record, found, rfl⟩ := List.mem_map.mp member
    obtain ⟨id, _, visible⟩ := List.mem_filterMap.mp found
    rw [coherent.keyed.incidence visible]
    exact coherent.incidence_lt visible
  cases step with
  | delta step => exact .single (step.mono fun change allowed => allowed.known coherent)
  | tombstoneElement id visible =>
    obtain ⟨record, present⟩ := Option.isSome_iff_exists.mp visible
    have first : DeltaStep base Change.Known before (before.tombstoneElement base id) := by
      refine WriteOverlay.mutate_step (.tombstoneElement id) ⟨?_, ?_⟩ rfl rfl rfl
      · rintro family masked ⟨⟩
        exact coherent.element_lt present
      · rintro subject key value ⟨⟩
    exact .head first (tombstoneIncidences_steps listed)
  | tombstoneRelation id visible =>
    obtain ⟨record, present⟩ := Option.isSome_iff_exists.mp visible
    have first : DeltaStep base Change.Known before (before.tombstoneRelation base id) := by
      refine WriteOverlay.mutate_step (.tombstoneRelation id) ⟨?_, ?_⟩ rfl rfl rfl
      · rintro family masked ⟨⟩
        exact coherent.relation_lt present
      · rintro subject key value ⟨⟩
    exact .head first (tombstoneIncidences_steps listed)

/-- A run of known steps keeps the view coherent. -/
theorem LayeredState.Coherent.steps {base : BaseRecords} {before after : WriteOverlay}
    (coherent : (LayeredState.mk base before.toOverlay).Coherent)
    (steps : Relation.ReflTransGen (DeltaStep base Change.Known) before after) :
    (LayeredState.mk base after.toOverlay).Coherent := by
  induction steps with
  | refl => exact coherent
  | tail _ step ih => exact step.coherent ih

namespace Writer

variable {before after : Writer}

/-- A writer never changes what it is layered over. -/
theorem Step.parent_eq (steps : Relation.ReflTransGen Step before after) :
    after.parent = before.parent ∧ after.transactionId = before.transactionId := by
  induction steps with
  | refl => exact ⟨rfl, rfl⟩
  | tail _ step ih =>
    obtain ⟨delta, _, rfl⟩ := step
    exact ih

/-- From a coherent view, a run of the writer is a run of known steps of its delta. -/
theorem Step.known_steps (steps : Relation.ReflTransGen Step before after)
    (coherent : before.merged.Coherent) :
    Relation.ReflTransGen (DeltaStep before.base Change.Known) before.delta after.delta := by
  induction steps with
  | refl => exact .refl
  | @tail middle last prior step ih =>
    obtain ⟨delta, guarded, rfl⟩ := step
    have same : middle.base = before.base := congrArg Snapshot.baseRecords (parent_eq prior).1
    rw [same] at guarded
    exact ih.trans (guarded.known_steps (coherent.steps ih))

end Writer

end Oxgraph
