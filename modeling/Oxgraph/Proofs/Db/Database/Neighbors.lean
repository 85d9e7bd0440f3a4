import Oxgraph.Proofs.Db.Traversal.Search
import Oxgraph.Spec.Walk

/-! Neighbour lookups agree with a projection exactly when incidence ids do not mislead. -/

namespace Oxgraph

/-- Extending a set by the items of those of a list that pass a test. -/
theorem mem_foldl_extendSet {T K : Type} [Ord K] [Std.TransOrd K] [Std.LawfulEqOrd K]
    {test : T → Bool} {found : T → List K} {items : List T} {set : BTreeSet K} {probe : K} :
    probe ∈ items.foldl (fun set item =>
        if !test item then set else extendSet set (found item)) set ↔
      probe ∈ set ∨ ∃ item ∈ items, test item = true ∧ probe ∈ found item := by
  induction items generalizing set with
  | nil => simp
  | cons item rest ih =>
    rw [List.foldl_cons, ih, List.exists_mem_cons_iff, ← or_assoc]
    -- The head extends the set exactly when it passes the test.
    refine or_congr_left ?_
    cases test item <;> simp [mem_extendSet]

section Views

variable {view : LayeredState} (sound : view.Sound)

include sound

/-- The incidences listed for an element are the visible ones attached to it. -/
theorem mem_elementIncidences_iff {element : ElementId} {record : IncidenceRecord} :
    record ∈ view.elementIncidences element ↔
      view.incidence record.id = some record ∧ record.element = element := by
  obtain ⟨members, _⟩ := incidences_spec sound.coherent
  -- The index lists what a scan of all incidences would.
  rw [elementIncidences_eq_scan sound.coherent sound.represents]
  unfold LayeredState.elementIncidencesScan
  rw [List.mem_filter, members, decide_eq_true_iff]

/-- The incidences listed for a relation are the visible ones that belong to it. -/
theorem mem_relationIncidences_iff {relation : RelationId} {record : IncidenceRecord} :
    record ∈ view.relationIncidences relation ↔
      view.incidence record.id = some record ∧ record.relation = relation := by
  obtain ⟨members, _⟩ := incidences_spec sound.coherent
  rw [relationIncidences_eq_scan sound.coherent sound.represents]
  unfold LayeredState.relationIncidencesScan
  rw [List.mem_filter, members, decide_eq_true_iff]

end Views

namespace Reader

variable {reader : Reader} (sound : reader.snapshot.view.Sound)
  {definition : GraphProjectionDefinition} {relationType : RelationTypeId}
  (only : ∀ other, other ∈ definition.relationTypes ↔ other = relationType)

include sound only

variable {element other : ElementId}

/-- The neighbours of an element share a relation of the type with it, in the order asked for. -/
theorem mem_neighbors {direction : Direction} :
    other ∈ reader.neighbors element relationType direction ↔ other ≠ element ∧
      ∃ near far, reader.snapshot.view.incidence near.id = some near ∧
        reader.snapshot.view.incidence far.id = some far ∧ near.relation = far.relation ∧
        near.relation ∈ reader.snapshot.view.Selected definition ∧
        near.element = element ∧ far.element = other ∧
        followDirection direction near.id far.id = true := by
  unfold neighbors
  dsimp only
  -- The set is extended once for each incidence of the element, so membership is per incidence.
  rw [Std.ExtTreeSet.mem_toList, mem_foldl_extendSet]
  simp only [mem_elementIncidences_iff sound, List.mem_map, List.mem_filter,
    mem_relationIncidences_iff sound, decide_eq_true_eq]
  constructor
  · rintro (never | ⟨near, ⟨visible, rfl⟩, selected, far, ⟨⟨⟨there, same⟩, apart⟩, follows⟩, rfl⟩)
    · exact absurd never Std.ExtTreeSet.not_mem_empty
    · have chosen : near.relation ∈ reader.snapshot.view.Selected definition := by
        unfold LayeredState.Selected LayeredState.SelectedBy
        simp only [only, Set.mem_ofPred_eq]
        cases found : reader.snapshot.view.relation near.relation with
        | none => simp [found] at selected
        | some record => simpa [found] using selected
      exact ⟨apart, near, far, visible, there, same.symm, chosen, rfl, rfl, follows⟩
  · rintro ⟨apart, near, far, visible, there, same, selected, rfl, rfl, follows⟩
    unfold LayeredState.Selected LayeredState.SelectedBy at selected
    simp only [only, Set.mem_ofPred_eq] at selected
    refine .inr ⟨near, ⟨visible, rfl⟩, ?_, far, ⟨⟨⟨there, same.symm⟩, apart⟩, follows⟩, rfl⟩
    cases found : reader.snapshot.view.relation near.relation with
    | none => simp [found] at selected
    | some record => simpa [found] using selected

/-- The outgoing neighbours of an element are those attached after it. -/
theorem mem_neighbors_outgoing :
    other ∈ reader.neighbors element relationType .outgoing ↔
      reader.snapshot.view.AttachedBefore definition element other ∧ other ≠ element := by
  rw [mem_neighbors sound only, and_comm]
  refine and_congr_left fun _ => exists_congr fun near => exists_congr fun far => ?_
  unfold LayeredState.Attached followDirection
  simp only [decide_eq_true_eq]
  tauto

/-- The incoming neighbours of an element are those attached before it. -/
theorem mem_neighbors_incoming :
    other ∈ reader.neighbors element relationType .incoming ↔
      reader.snapshot.view.AttachedBefore definition other element ∧ other ≠ element := by
  rw [mem_neighbors sound only, and_comm]
  refine and_congr_left fun _ => ?_
  unfold LayeredState.AttachedBefore LayeredState.Attached followDirection
  constructor
  · -- The roles of near and far are exchanged: the neighbour's incidence is the earlier one.
    rintro ⟨near, far, visible, there, same, selected, at_, other_, follows⟩
    exact ⟨far, near, ⟨there, visible, same.symm, same ▸ selected, of_decide_eq_true follows⟩,
      other_, at_⟩
  · rintro ⟨far, near, ⟨there, visible, same, selected, before⟩, other_, at_⟩
    exact ⟨near, far, visible, there, same.symm, same ▸ selected, at_, other_,
      decide_eq_true before⟩

end Reader

namespace GraphProjection.Faithful

variable {view : LayeredState} {definition : GraphProjectionDefinition}
  {projection : GraphProjection} (faithful : projection.Faithful view definition)

include faithful

/-- The rows of a projection lead one step along a direction. -/
theorem mem_along {direction : Direction} {element other : ElementId} :
    other ∈ projection.Along direction element ↔
      view.StepsTo definition direction element other := by
  constructor
  · rintro ⟨near, far, found, inRow, there⟩
    obtain ⟨next, same, step⟩ := (faithful.mem_rowsAlong (faithful.elementIds.mp found)).mp inRow
    cases there.symm.trans same
    exact step
  · intro step
    -- Both ends of a step are projected, so the rows know them under local IDs.
    obtain ⟨nearProjected, farProjected⟩ := projected_of_stepsTo step
    obtain ⟨near, here⟩ := faithful.exists_local nearProjected
    obtain ⟨far, there⟩ := faithful.exists_local farProjected
    exact ⟨near, far, faithful.elementIds.mpr here,
      (faithful.mem_rowsAlong here).mpr ⟨other, there, step⟩, there⟩

end GraphProjection.Faithful

/-- The one incidence that may play a role plays it for its element. -/
theorem LayeredState.Plays.sole {view : LayeredState} {relation : RelationId} {role : RoleId}
    {record : IncidenceRecord} (plays : view.Plays relation role record)
    (some_ : ∃ element, view.SoleEndpoint relation role element) :
    view.SoleEndpoint relation role record.element := by
  obtain ⟨_, sole, only, _⟩ := some_
  obtain rfl := (only record).mp plays
  exact ⟨record, only, rfl⟩

/-- Where selected relations have two ends each, order agrees with roles exactly when it fits. -/
theorem LayeredState.attachedBefore_iff_leads_iff {view : LayeredState}
    {definition : GraphProjectionDefinition} (binary : view.Binary definition)
    {source target : ElementId} (apart : target ≠ source) :
    (view.AttachedBefore definition source target ↔ view.Leads definition source target) ↔
      view.OrderFits definition source target := by
  -- An incidence with the source role and one with the target role make an edge.
  have leads {start stop : IncidenceRecord} (here : view.incidence start.id = some start)
      (there : view.incidence stop.id = some stop) (same : start.relation = stop.relation)
      (selected : start.relation ∈ view.Selected definition)
      (startRole : start.role = definition.sourceRole)
      (stopRole : stop.role = definition.targetRole) :
      view.Leads definition start.element stop.element := by
    obtain ⟨hasSource, hasTarget⟩ := binary start.relation selected
    have starts : view.Plays start.relation definition.sourceRole start := ⟨here, rfl, startRole⟩
    have stops : view.Plays start.relation definition.targetRole stop :=
      ⟨there, same.symm, stopRole⟩
    exact ⟨start.relation, selected, starts.sole hasSource, stops.sole hasTarget⟩
  constructor
  · intro agree
    constructor
    case late =>
      -- The relation leads from source to target, so by agreement some pair is in order.
      rintro earlier later ⟨here, there, same, selected, _⟩ targetRole rfl sourceRole rfl
      exact agree.mpr (leads there here same.symm (same ▸ selected) sourceRole targetRole)
    case stray =>
      intro earlier later attached first second _
      exact agree.mp ⟨earlier, later, attached, first, second⟩
  · intro fits
    constructor
    · rintro ⟨earlier, later, attached, rfl, rfl⟩
      -- Incidences in the two roles make an edge; any others need an edge beside them.
      by_cases roles : earlier.role = definition.sourceRole ∧ later.role = definition.targetRole
      · obtain ⟨here, there, same, selected, _⟩ := attached
        exact leads here there same selected roles.1 roles.2
      · exact fits.stray earlier later attached rfl rfl roles
    · rintro ⟨relation, selected, ⟨start, starts, rfl⟩, stop, stops, rfl⟩
      obtain ⟨here, rfl, startRole⟩ := (starts start).mpr rfl
      obtain ⟨there, same, stopRole⟩ := (stops stop).mpr rfl
      -- The two incidences are different, so one was created before the other.
      rcases lt_trichotomy start.id.toNat stop.id.toNat with before | equal | after
      · exact ⟨start, stop, ⟨here, there, same.symm, selected, UInt64.lt_iff_toNat_lt.mpr before⟩,
          rfl, rfl⟩
      · rw [UInt64.toNat_inj.mp equal] at here
        cases here.symm.trans there
        exact absurd rfl apart
      · exact fits.late stop start ⟨there, here, same, same ▸ selected,
          UInt64.lt_iff_toNat_lt.mpr after⟩ stopRole rfl startRole rfl

/--
A reader's neighbours of an element agree with a projection over the type, in both directions,
exactly when no order of incidences at the element misleads about the edges there.
-/
theorem neighbors_agree {reader : Reader} (sound : reader.snapshot.view.Sound)
    {definition : GraphProjectionDefinition} {relationType : RelationTypeId}
    (only : ∀ other, other ∈ definition.relationTypes ↔ other = relationType)
    {projection : GraphProjection}
    (built : GraphProjection.fromState reader.snapshot.view definition = pure projection)
    (element : ElementId) :
    (reader.AgreesAlong projection relationType .outgoing element ∧
      reader.AgreesAlong projection relationType .incoming element) ↔
    ∀ other ≠ element, reader.snapshot.view.OrderFits definition element other ∧
      reader.snapshot.view.OrderFits definition other element := by
  obtain ⟨exists_iff, always, _⟩ := projection_faithful sound definition
  have faithful := always projection built
  -- A projection is built only of relations with one source and one target each.
  obtain ⟨binary, _⟩ := exists_iff.mp ⟨projection, built⟩
  unfold Reader.AgreesAlong
  simp only [Reader.mem_neighbors_outgoing sound only, Reader.mem_neighbors_incoming sound only,
    faithful.mem_along, LayeredState.StepsTo, and_congr_left_iff, ← forall_and]
  refine forall_congr' fun other => ?_
  refine imp_congr_right fun apart => and_congr ?_ ?_
  · exact LayeredState.attachedBefore_iff_leads_iff binary apart
  · exact LayeredState.attachedBefore_iff_leads_iff binary apart.symm

/-- A store of one relation from the second element to the first, its target attached first. -/
def targetFirstWriter : Writer :=
  WriterOp.runAll [.registerRole "source", .registerRole "target", .registerRelationType "edge",
      .createElement, .createElement, .createRelation, .setRelationType 1 1,
      .createIncidence 1 1 2, .createIncidence 1 2 1]
    ⟨⟨0, 0, .empty .initial .empty, .empty⟩, .fromOverlay (.empty .initial .empty), 1⟩

/-- A reader of the store. -/
def targetFirstReader : Reader :=
  ⟨{ targetFirstWriter.parent with overlay := targetFirstWriter.delta.freeze }⟩

theorem targetFirstReader_sound : targetFirstReader.snapshot.view.Sound :=
  Writer.Step.sound (WriterOp.runAll_steps _ _) LayeredState.sound_empty

/-- The projection over the relations of the first type. -/
def firstTypeDefinition : GraphProjectionDefinition :=
  { edgesDefinition with relationTypes := collectSet [1] }

/-- At the second element order and roles agree exactly when they fit there. -/
theorem neighbors_agree_targetFirst : ∃ projection,
    GraphProjection.fromState targetFirstReader.snapshot.view firstTypeDefinition =
      pure projection ∧
    ((targetFirstReader.AgreesAlong projection 1 .outgoing 2 ∧
        targetFirstReader.AgreesAlong projection 1 .incoming 2) ↔
      ∀ other ≠ 2,
        targetFirstReader.snapshot.view.OrderFits firstTypeDefinition 2 other ∧
          targetFirstReader.snapshot.view.OrderFits firstTypeDefinition other 2) := by
  obtain ⟨projection, built, _⟩ := Fallible.exists_of_returns
    (show (GraphProjection.fromState targetFirstReader.snapshot.view firstTypeDefinition).returns
      (fun _ => true) = true by decide +kernel)
  refine ⟨projection, built, neighbors_agree targetFirstReader_sound (fun other => ?_) built 2⟩
  show other ∈ collectSet [1] ↔ _
  rw [mem_collectSet, List.mem_singleton]

/-- The projection leads from the second element to the first, which is no outgoing neighbour. -/
theorem neighbors_targetFirst_disagree : ∃ projection,
    GraphProjection.fromState targetFirstReader.snapshot.view firstTypeDefinition =
      pure projection ∧
    (2 : ElementId) ∈ projection.elements ∧
    targetFirstReader.neighbors 2 1 .outgoing = [] ∧
    ¬ targetFirstReader.AgreesAlong projection 1 .outgoing 2 := by
  obtain ⟨projection, built, facts⟩ := Fallible.exists_of_returns
    (show (GraphProjection.fromState targetFirstReader.snapshot.view firstTypeDefinition).returns
      (fun projection => (2 : ElementId) ∈ projection.elements ∧
        projection.localElementId 2 = some 0 ∧ (1 : ProjectionElementId) ∈
          projection.rowsAlong .outgoing 0 ∧ projection.canonicalElementId 1 = some 1) = true
      by decide +kernel)
  obtain ⟨listed, near, inRow, far⟩ := of_decide_eq_true facts
  have none : targetFirstReader.neighbors 2 1 .outgoing = [] := by decide +kernel
  refine ⟨projection, built, listed, none, fun agrees => ?_⟩
  have neighbor := (agrees 1).mpr ⟨⟨0, 1, near, inRow, far⟩, by decide⟩
  rw [none] at neighbor
  cases neighbor

end Oxgraph
