import Oxgraph.Lib.BreadthFirst
import Oxgraph.Lib.Numbering
import Oxgraph.Spec.Projection
import Oxgraph.Proofs.Csr.Frozen
import Oxgraph.Proofs.Db.Overlay.Lookup
import Oxgraph.Spec.Coherent

/-! A graph projection is a faithful multigraph of the relations it selects. -/

namespace Oxgraph

open Layout

-- Endpoints.

/-- The elements of the incidences with a role. -/
def elementsIn (role : RoleId) (items : List IncidenceRecord) : List ElementId :=
  (items.filter fun item => item.role = role).map IncidenceRecord.element

/-- A slot takes the element of an incidence with its role, if it was empty. -/
theorem updateEndpoint_eq_ok {slot next : Option ElementId} {incidence : IncidenceRecord}
    {role : RoleId} {name : String} :
    updateEndpoint slot incidence role name = .ok next ↔
      next.toList = slot.toList ++ elementsIn role [incidence] := by
  unfold updateEndpoint
  by_cases same : incidence.role = role
  · have single : elementsIn role [incidence] = [incidence.element] := by simp [elementsIn, same]
    rw [if_neg (not_not.mpr same), single]
    cases slot <;> cases next <;> constructor <;> intro whole <;> cases whole <;> rfl
  · have none : elementsIn role [incidence] = [] := by simp [elementsIn, same]
    rw [if_pos same, none]
    cases slot <;> cases next <;> constructor <;> intro whole <;> cases whole <;> rfl

/-- A list of at most one item is that of an option. -/
theorem exists_toList {T : Type} {items : List T} (short : items.length ≤ 1) :
    ∃ slot : Option T, slot.toList = items := by
  match items, short with
  | [], _ => exact ⟨none, rfl⟩
  | [item], _ => exact ⟨some item, rfl⟩

/-- The slots of a relation end with the elements of its two roles. -/
theorem endpoints_fold {sourceRole targetRole : RoleId} {items : List IncidenceRecord}
    {slots ends : Option ElementId × Option ElementId} :
    items.foldlM (fun (slots : Option ElementId × Option ElementId) incidence => do
        let source ← updateEndpoint slots.1 incidence sourceRole "source"
        let target ← updateEndpoint slots.2 incidence targetRole "target"
        return (source, target)) slots = .ok ends ↔
      ends.1.toList = slots.1.toList ++ elementsIn sourceRole items ∧
        ends.2.toList = slots.2.toList ++ elementsIn targetRole items := by
  induction items generalizing slots with
  | nil =>
    obtain ⟨source, target⟩ := slots
    obtain ⟨lastSource, lastTarget⟩ := ends
    cases source <;> cases target <;> cases lastSource <;> cases lastTarget <;>
      simp [elementsIn, pure, Except.pure, eq_comm]
  | cons incidence rest ih =>
    -- Each role takes from the head what it has there, and then from the rest.
    have split (role : RoleId) : elementsIn role (incidence :: rest) =
        elementsIn role [incidence] ++ elementsIn role rest := by
      unfold elementsIn
      rw [← List.map_append, ← List.filter_append]
      rfl
    rw [List.foldlM_cons, bind_eq_ok]
    simp only [ih, split, ← List.append_assoc]
    constructor
    · rintro ⟨⟨source, target⟩, updated, sources, targets⟩
      obtain ⟨_, first, others⟩ := bind_eq_ok.mp updated
      obtain ⟨_, second, done⟩ := bind_eq_ok.mp others
      cases done
      rw [← updateEndpoint_eq_ok.mp first, ← updateEndpoint_eq_ok.mp second]
      exact ⟨sources, targets⟩
    · rintro ⟨sources, targets⟩
      -- What an option lists is at most one element, so the first update had room.
      have short {slot : Option ElementId} {before after : List ElementId}
          (whole : slot.toList = before ++ after) : before.length ≤ 1 := by
        have length := congrArg List.length whole
        rw [List.length_append] at length
        have := slot.length_toList_le
        omega
      obtain ⟨source, first⟩ := exists_toList (short sources)
      obtain ⟨target, second⟩ := exists_toList (short targets)
      refine ⟨(source, target), ?_, by rw [first, sources], by rw [second, targets]⟩
      exact bind_eq_ok.mpr ⟨_, updateEndpoint_eq_ok.mpr first, bind_eq_ok.mpr
        ⟨_, updateEndpoint_eq_ok.mpr second, rfl⟩⟩

/-- Some items of a list without repeats are one item exactly when nothing else is among them. -/
theorem filter_eq_singleton {T : Type} {items : List T} (distinct : items.Nodup) {keep : T → Bool}
    {item : T} : items.filter keep = [item] ↔
      ∀ other, (other ∈ items ∧ keep other = true) ↔ other = item := by
  constructor
  · intro single other
    rw [← List.mem_filter, single, List.mem_singleton]
  · intro only
    -- Without repeats, a list is known up to order by its items, and one item has one order.
    refine List.perm_singleton.mp ((List.perm_ext_iff_of_nodup (distinct.filter keep)
      (List.nodup_singleton item)).mpr fun other => ?_)
    rw [List.mem_filter, only, List.mem_singleton]

section Views

variable {view : LayeredState} (coherent : view.Coherent)
  (represents : view.base.index.Represents view.base.contents)

include coherent represents

/-- A relation has one endpoint of a role exactly when one visible incidence plays it. -/
theorem elementsIn_eq_singleton (relation : RelationId) (role : RoleId) (element : ElementId) :
    elementsIn role (view.relationIncidences relation) = [element] ↔
      view.SoleEndpoint relation role element := by
  obtain ⟨members, order⟩ := incidences_spec coherent
  have distinct : view.incidences.Nodup := List.Nodup.of_map _ order.nodup
  rw [relationIncidences_eq_scan coherent represents]
  unfold elementsIn LayeredState.relationIncidencesScan LayeredState.SoleEndpoint
  -- Filtering by relation and then by role is filtering by both.
  rw [List.filter_filter, List.map_eq_singleton_iff]
  refine exists_congr fun record => and_congr_left fun _ => ?_
  rw [filter_eq_singleton distinct]
  refine forall_congr' fun other => iff_congr ?_ Iff.rfl
  unfold LayeredState.Plays
  rw [members]
  simp only [Bool.and_eq_true, decide_eq_true_eq]
  exact and_congr_right fun _ => and_comm

/-- A relation has endpoints exactly when one visible incidence plays each of the two roles. -/
theorem graphEndpoints_eq_ok {relation : RelationId} {sourceRole targetRole : RoleId}
    {source target : ElementId} :
    graphEndpoints view relation sourceRole targetRole = .ok (source, target) ↔
      view.SoleEndpoint relation sourceRole source ∧
        view.SoleEndpoint relation targetRole target := by
  rw [← elementsIn_eq_singleton coherent represents, ← elementsIn_eq_singleton coherent represents]
  unfold graphEndpoints
  rw [bind_eq_ok]
  simp only [endpoints_fold]
  constructor
  · rintro ⟨⟨first, second⟩, ⟨sources, targets⟩, done⟩
    -- A relation with an empty slot is refused.
    cases first with
    | none => cases second <;> cases done
    | some first =>
      cases second with
      | none => cases done
      | some second =>
        cases done
        exact ⟨sources.symm, targets.symm⟩
  · rintro ⟨sources, targets⟩
    exact ⟨(some source, some target), ⟨sources.symm, targets.symm⟩, rfl⟩

end Views

/-- A relation has at most one sole endpoint of a role. -/
theorem LayeredState.SoleEndpoint.unique {view : LayeredState} {relation : RelationId}
    {role : RoleId} {first second : ElementId} (one : view.SoleEndpoint relation role first)
    (other : view.SoleEndpoint relation role second) : first = second := by
  obtain ⟨record, only, rfl⟩ := one
  obtain ⟨record', only', rfl⟩ := other
  rw [(only' record).mp ((only record).mpr rfl)]

-- Collecting.

/-- The local index of an ID is its number. -/
@[simp] theorem localIndex_eq (id : UInt32) : localIndex id = id.toNat := by
  unfold localIndex
  rw [toUsize_eq]
  rfl

theorem projectionElementId_eq_ok {index : Nat} {id : ProjectionElementId} :
    projectionElementId index = .ok id ↔ id.toNat = index := by
  unfold projectionElementId
  rw [← show fromUsize index = some id ↔ id.toNat = index from fromUsize_eq_some]
  cases (fromUsize index : Option UInt32) <;> simp

theorem projectionRelationId_eq_ok {index : Nat} {id : ProjectionRelationId} :
    projectionRelationId index = .ok id ↔ id.toNat = index := by
  unfold projectionRelationId
  rw [← show fromUsize index = some id ↔ id.toNat = index from fromUsize_eq_some]
  cases (fromUsize index : Option UInt32) <;> simp

namespace GraphProjectionBuilder

/-- What interning an element leaves: it is entered among the elements, and nothing else changes. -/
structure Interns (before : GraphProjectionBuilder) (canonical : ElementId)
    (id : ProjectionElementId) (after : GraphProjectionBuilder) : Prop extends
    Enters UInt32.toNat before.elements canonical id after.elements after.elementIndex where
  rest : after = { before with elements := after.elements, elementIndex := after.elementIndex }

variable {before after : GraphProjectionBuilder} {canonical : ElementId} {id : ProjectionElementId}

/-- Interning numbers the element. -/
theorem interns (numbered : Numbered UInt32.toNat before.elements before.elementIndex)
    (interned : before.internElement canonical = .ok (id, after)) :
    before.Interns canonical id after := by
  unfold internElement at interned
  split at interned
  · rename_i known found
    cases interned
    exact ⟨numbered.enters_found found, rfl⟩
  · rename_i absent
    obtain ⟨fresh, allocated, done⟩ := bind_eq_ok.mp interned
    cases done
    -- The fresh number is the position just past the elements so far.
    have next := projectionElementId_eq_ok.mp allocated
    exact ⟨numbered.enters_absent (fun _ _ => UInt32.toNat_inj.mp) absent next, rfl⟩

/-- Interning a new element needs a number for it. -/
theorem exists_internElement
    (numbered : Numbered UInt32.toNat before.elements before.elementIndex)
    (room : canonical ∉ before.elements → before.elements.length < 2 ^ 32) :
    ∃ id after, before.internElement canonical = .ok (id, after) := by
  -- A known element needs no number of its own.
  by_cases member : canonical ∈ before.elements
  · obtain ⟨id, found⟩ := numbered.mem_iff.mp member
    unfold internElement
    rw [found]
    exact ⟨_, _, rfl⟩
  · have fits := room member
    have allocated : projectionElementId before.elements.length =
        .ok (UInt32.ofNat before.elements.length) :=
      projectionElementId_eq_ok.mpr (UInt32.toNat_ofNat_of_lt' fits)
    unfold internElement
    rw [numbered.absent member]
    exact ⟨_, _, bind_eq_ok.mpr ⟨_, allocated, rfl⟩⟩

variable {view : LayeredState} {definition : GraphProjectionDefinition}

/-- A builder that holds the ends of the relations it collected. -/
structure Collected (view : LayeredState) (definition : GraphProjectionDefinition)
    (builder : GraphProjectionBuilder) : Prop where
  defined : builder.definition = definition
  relations : Numbered UInt32.toNat builder.relations builder.relationIndex
  elements : Numbered UInt32.toNat builder.elements builder.elementIndex
  endpoints : List.Forall₂ (fun id (pair : ProjectionElementId × ProjectionElementId) =>
    (∃ source, builder.elements[pair.1.toNat]? = some source ∧
      view.SoleEndpoint id definition.sourceRole source) ∧
    ∃ target, builder.elements[pair.2.toNat]? = some target ∧
      view.SoleEndpoint id definition.targetRole target) builder.relations builder.endpoints
  members : ∀ element, element ∈ builder.elements ↔ ∃ id ∈ builder.relations,
    view.SoleEndpoint id definition.sourceRole element ∨
      view.SoleEndpoint id definition.targetRole element

theorem collected_new : Collected view definition (new definition) :=
  ⟨rfl, .nil, .nil, .nil, by simp [new]⟩

section Push

variable (coherent : view.Coherent) (represents : view.base.index.Represents view.base.contents)

include coherent represents

variable {record : RelationRecord}

/-- A pushed relation is collected with its ends. -/
theorem Collected.push (collected : Collected view definition before)
    (fresh : record.id ∉ before.relations) (pushed : pushRelation view before record = .ok after) :
    Collected view definition after ∧ after.relations = before.relations ++ [record.id] := by
  obtain ⟨⟨source, target⟩, ends, rest⟩ := bind_eq_ok.mp pushed
  obtain ⟨⟨sourceId, middle⟩, first, rest⟩ := bind_eq_ok.mp rest
  obtain ⟨⟨targetId, last⟩, second, rest⟩ := bind_eq_ok.mp rest
  obtain ⟨edge, allocated, done⟩ := bind_eq_ok.mp rest
  cases done
  rw [collected.defined] at ends
  obtain ⟨sourceEnd, targetEnd⟩ := (graphEndpoints_eq_ok coherent represents).mp ends
  have one := interns collected.elements first
  have two := interns one.numbered second
  -- Interning touches the elements alone.
  have sameRelations : last.relations = before.relations := by rw [two.rest, one.rest]
  have sameIndex : last.relationIndex = before.relationIndex := by rw [two.rest, one.rest]
  have sameEndpoints : last.endpoints = before.endpoints := by rw [two.rest, one.rest]
  have sameDefinition : last.definition = before.definition := by rw [two.rest, one.rest]
  have grown := one.grown.trans two.grown
  refine ⟨⟨?_, ?_, two.numbered, ?_, fun element => ?_⟩, ?_⟩
  · exact sameDefinition.trans collected.defined
  · show Numbered UInt32.toNat (last.relations ++ [record.id])
      (last.relationIndex.insert record.id edge)
    rw [sameRelations, sameIndex]
    refine collected.relations.push (fun _ _ => UInt32.toNat_inj.mp) fresh ?_
    rw [projectionRelationId_eq_ok.mp allocated, sameRelations]
  · show List.Forall₂ _ (last.relations ++ [record.id])
      (last.endpoints ++ [(sourceId, targetId)])
    rw [sameRelations, sameEndpoints]
    refine List.rel_append ?_ (.cons ⟨⟨source, ?_, sourceEnd⟩, target, two.located, targetEnd⟩ .nil)
    · -- The pairs before keep their ends, since no element changes its number.
      refine collected.endpoints.imp ?_
      rintro id pair ⟨⟨source, here, starts⟩, target, there, stops⟩
      exact ⟨⟨source, getElem?_of_isPrefix grown here, starts⟩,
        target, getElem?_of_isPrefix grown there, stops⟩
    · exact getElem?_of_isPrefix two.grown one.located
  · show element ∈ last.elements ↔ ∃ id ∈ last.relations ++ [record.id], _
    rw [two.members, one.members, collected.members, sameRelations]
    constructor
    · -- An element was there before, or is one of the two ends just interned.
      rintro ((⟨id, member, ends⟩ | rfl) | rfl)
      · exact ⟨id, List.mem_append_left _ member, ends⟩
      · exact ⟨record.id, by simp, .inl sourceEnd⟩
      · exact ⟨record.id, by simp, .inr targetEnd⟩
    · rintro ⟨id, member, ends⟩
      rcases List.mem_append.mp member with before | new
      · exact .inl (.inl ⟨id, before, ends⟩)
      · obtain rfl := List.mem_singleton.mp new
        -- The ends of the new relation are the two that were interned for it.
        rcases ends with starts | stops
        · exact .inl (.inr (starts.unique sourceEnd))
        · exact .inr (stops.unique targetEnd)
  · show last.relations ++ [record.id] = _
    rw [sameRelations]

/-- Pushing the first of distinct relations leaves distinct ones to be pushed after it. -/
theorem Collected.pushHead (collected : Collected view definition before)
    {rest : List RelationRecord}
    (fresh : (before.relations ++ (record :: rest).map RelationRecord.id).Nodup)
    (pushed : pushRelation view before record = .ok after) :
    Collected view definition after ∧ after.relations = before.relations ++ [record.id] ∧
      before.relations ++ (record :: rest).map RelationRecord.id =
        after.relations ++ rest.map RelationRecord.id := by
  have new : record.id ∉ before.relations := fun member =>
    (List.nodup_append.mp fresh).2.2 _ member _ (by simp) rfl
  obtain ⟨collectedAfter, relations⟩ := collected.push coherent represents new pushed
  refine ⟨collectedAfter, relations, ?_⟩
  rw [relations]
  simp

/-- Relations pushed one after the other are all collected. -/
theorem Collected.pushAll {records : List RelationRecord}
    (collected : Collected view definition before)
    (fresh : (before.relations ++ records.map RelationRecord.id).Nodup)
    (pushed : records.foldlM (pushRelation view) before = .ok after) :
    Collected view definition after ∧
      after.relations = before.relations ++ records.map RelationRecord.id := by
  induction records generalizing before with
  | nil =>
    cases pushed
    exact ⟨collected, by simp⟩
  | cons record rest ih =>
    obtain ⟨middle, first, others⟩ := bind_eq_ok.mp pushed
    obtain ⟨collectedMiddle, _, follow⟩ := collected.pushHead coherent represents fresh first
    rw [follow] at fresh ⊢
    exact ih collectedMiddle fresh others

/-- A relation with both ends is pushed when the numbers suffice. -/
theorem Collected.exists_push (collected : Collected view definition before)
    {pool : Finset ElementId} (few : pool.card ≤ 2 ^ 32)
    (known : ∀ element ∈ before.elements, element ∈ pool) {source target : ElementId}
    (starts : view.SoleEndpoint record.id definition.sourceRole source)
    (stops : view.SoleEndpoint record.id definition.targetRole target)
    (sourceKnown : source ∈ pool) (targetKnown : target ∈ pool)
    (room : before.relations.length < 2 ^ 32) :
    ∃ after, pushRelation view before record = .ok after := by
  have ends := (graphEndpoints_eq_ok coherent represents).mpr ⟨starts, stops⟩
  -- A new element of the pool leaves the elements before it short of the whole.
  have free {builder : GraphProjectionBuilder} {element : ElementId}
      (numbered : Numbered UInt32.toNat builder.elements builder.elementIndex)
      (inside : ∀ element ∈ builder.elements, element ∈ pool) (member : element ∈ pool)
      (new : element ∉ builder.elements) : builder.elements.length < 2 ^ 32 := by
    have part : insert element builder.elements.toFinset ⊆ pool := by
      intro other listed
      rcases Finset.mem_insert.mp listed with rfl | old
      · exact member
      · exact inside other (List.mem_toFinset.mp old)
    have count := Finset.card_le_card part
    rw [Finset.card_insert_of_notMem (by simpa using new),
      List.toFinset_card_of_nodup numbered.nodup] at count
    omega
  obtain ⟨sourceId, middle, first⟩ := exists_internElement collected.elements
    (free collected.elements known sourceKnown)
  have one := interns collected.elements first
  -- The source may take a number itself, but the target still finds one left.
  have insideMiddle : ∀ element ∈ middle.elements, element ∈ pool := by
    intro element member
    rcases (one.members element).mp member with old | rfl
    · exact known element old
    · exact sourceKnown
  obtain ⟨targetId, last, second⟩ := exists_internElement one.numbered
    (free one.numbered insideMiddle targetKnown)
  have two := interns one.numbered second
  have same : last.relations = before.relations := by rw [two.rest, one.rest]
  have allocated : projectionRelationId last.relations.length =
      .ok (UInt32.ofNat last.relations.length) := by
    rw [same]
    exact projectionRelationId_eq_ok.mpr (UInt32.toNat_ofNat_of_lt' room)
  rw [← collected.defined] at ends
  exact ⟨_, bind_eq_ok.mpr ⟨_, ends, bind_eq_ok.mpr ⟨_, first, bind_eq_ok.mpr ⟨_, second,
    bind_eq_ok.mpr ⟨_, allocated, rfl⟩⟩⟩⟩⟩

/-- Relations with both ends are all pushed when the numbers suffice. -/
theorem Collected.exists_pushAll {records : List RelationRecord}
    (collected : Collected view definition before) {pool : Finset ElementId}
    (few : pool.card ≤ 2 ^ 32) (known : ∀ element ∈ before.elements, element ∈ pool)
    (ends : ∀ record ∈ records,
      (∃ source ∈ pool, view.SoleEndpoint record.id definition.sourceRole source) ∧
        ∃ target ∈ pool, view.SoleEndpoint record.id definition.targetRole target)
    (fresh : (before.relations ++ records.map RelationRecord.id).Nodup)
    (room : before.relations.length + records.length ≤ 2 ^ 32) :
    ∃ after, records.foldlM (pushRelation view) before = .ok after := by
  induction records generalizing before with
  | nil => exact ⟨before, rfl⟩
  | cons record rest ih =>
    rw [List.length_cons] at room
    obtain ⟨⟨source, sourceKnown, starts⟩, target, targetKnown, stops⟩ := ends record (by simp)
    obtain ⟨middle, first⟩ := collected.exists_push coherent represents few known starts stops
      sourceKnown targetKnown (by omega)
    obtain ⟨collectedMiddle, relations, follow⟩ :=
      collected.pushHead coherent represents fresh first
    rw [follow] at fresh
    -- The elements interned are ends of relations already pushed, so all lie in the pool.
    have inside : ∀ element ∈ middle.elements, element ∈ pool := by
      intro element member
      obtain ⟨id, listed, plays⟩ := (collectedMiddle.members element).mp member
      rw [relations, List.mem_append, List.mem_singleton] at listed
      rcases listed with old | rfl
      · exact known element ((collected.members element).mpr ⟨id, old, plays⟩)
      · rcases plays with one | other
        · exact one.unique starts ▸ sourceKnown
        · exact other.unique stops ▸ targetKnown
    obtain ⟨after, others⟩ := ih collectedMiddle inside
      (fun other member => ends other (List.mem_cons_of_mem _ member)) fresh (by
        rw [relations, List.length_append, List.length_singleton]
        omega)
    exact ⟨after, bind_eq_ok.mpr ⟨middle, first, others⟩⟩

end Push

end GraphProjectionBuilder

end Oxgraph
