import Oxgraph.Proofs.Db.Catalog
import Oxgraph.Proofs.Db.Overlay.Index
import Oxgraph.Proofs.Db.Overlay.Replay

/-! Every step of a writer keeps its view coherent. -/

namespace Oxgraph

/-- Every mutation leaves each record under its own id. -/
theorem Contents.WellKeyed.effect {contents : Contents} (keyed : contents.WellKeyed)
    (change : Change) : (change.effect contents).WellKeyed := by
  -- An override either reads the record that was put, or leaves the old one.
  have overridden {Record : Type} {read : UInt64 → Option Record} {own : Record → UInt64}
      {key : UInt64} {slot : Option Record} (before : ∀ {id record}, read id = some record →
        own record = id) (put : ∀ record, slot = some record → own record = key) :
      ∀ {id record}, override read key slot id = some record → own record = id := by
    intro id record found
    unfold override at found
    split at found
    · rename_i same
      subst same
      exact put record found
    · exact before found
  have edited {Record : Type} {read : UInt64 → Option Record} {own : Record → UInt64}
      {key : UInt64} {edit : Record → Record} (before : ∀ {id record}, read id = some record →
        own record = id) (keeps : ∀ record, own (edit record) = own record) :
      ∀ record, (read key).map edit = some record → own record = key := by
    intro record found
    obtain ⟨old, present, rfl⟩ := Option.map_eq_some_iff.mp found
    rw [keeps]
    exact before present
  obtain ⟨element, relation, incidence⟩ := keyed
  cases change with
  | createElement id =>
    exact ⟨overridden element (by rintro _ ⟨⟩; rfl), relation, incidence⟩
  | createRelation id =>
    exact ⟨element, overridden relation (by rintro _ ⟨⟩; rfl), incidence⟩
  | createIncidence record =>
    exact ⟨element, relation, overridden incidence (by rintro _ ⟨⟩; rfl)⟩
  | tombstoneElement id =>
    exact ⟨overridden element (by rintro _ ⟨⟩), relation, incidence⟩
  | tombstoneRelation id =>
    exact ⟨element, overridden relation (by rintro _ ⟨⟩), incidence⟩
  | tombstoneIncidence id =>
    exact ⟨element, relation, overridden incidence (by rintro _ ⟨⟩)⟩
  | addElementLabel id label =>
    refine ⟨overridden element ?_, relation, incidence⟩
    exact edited element fun _ => rfl
  | addRelationLabel id label =>
    refine ⟨element, overridden relation ?_, incidence⟩
    exact edited relation fun _ => rfl
  | setRelationType id relationType =>
    refine ⟨element, overridden relation ?_, incidence⟩
    exact edited relation fun _ => rfl
  | setProperty | removeProperty | register => exact ⟨element, relation, incidence⟩

/-- A mutation that sets properties only on present subjects leaves every property anchored. -/
theorem Contents.Anchored.effect {contents : Contents} (anchored : contents.Anchored)
    (change : Change)
    (sets : ∀ {subject key value}, change = .setProperty subject key value →
      contents.Has subject) : (change.effect contents).Anchored := by
  intro subject key value found
  cases change with
  | setProperty own ownKey ownValue =>
    change (if own = subject ∧ ownKey = key then some ownValue else contents.property subject key) =
      some value at found
    have present : contents.Has subject := by
      split at found
      · rename_i same
        rw [← same.1]
        exact sets rfl
      · exact anchored found
    cases subject <;> exact present
  | removeProperty own ownKey =>
    change (if own = subject ∧ ownKey = key then none else contents.property subject key) =
      some value at found
    have present : contents.Has subject := by
      split at found
      · cases found
      · exact anchored found
    cases subject <;> exact present
  | tombstoneElement id =>
    change (if PropertySubject.element id = subject then none else contents.property subject key) =
      some value at found
    split at found
    · cases found
    · rename_i apart
      have present := anchored found
      cases subject with
      | element other =>
        change (override contents.element id none other).isSome
        rw [override, if_neg (fun same => apart (congrArg _ same))]
        exact present
      | relation other => exact present
      | incidence other => exact present
  | tombstoneRelation id =>
    change (if PropertySubject.relation id = subject then none else contents.property subject key) =
      some value at found
    split at found
    · cases found
    · rename_i apart
      have present := anchored found
      cases subject with
      | element other => exact present
      | relation other =>
        change (override contents.relation id none other).isSome
        rw [override, if_neg (fun same => apart (congrArg _ same))]
        exact present
      | incidence other => exact present
  | tombstoneIncidence id =>
    change (if PropertySubject.incidence id = subject then none
      else contents.property subject key) = some value at found
    split at found
    · cases found
    · rename_i apart
      have present := anchored found
      cases subject with
      | element other => exact present
      | relation other => exact present
      | incidence other =>
        change (override contents.incidence id none other).isSome
        rw [override, if_neg (fun same => apart (congrArg _ same))]
        exact present
  | createElement | createRelation | createIncidence | addElementLabel | addRelationLabel
  | setRelationType | register =>
    -- These leave the properties alone and every present record present.
    have present : contents.Has subject := anchored found
    cases subject <;> simp only [Contents.Has, Change.effect, override] at present ⊢ <;>
      first
      | exact present
      | (split
         · simp_all
         · exact present)

section Apply

variable {base : BaseRecords} {overlay after : Overlay} {change : Change}

/-- A mutation leaves the watermark alone. -/
theorem next_apply (applied : change.apply base overlay = .ok after) : after.next = overlay.next := by
  have moved := apply_setNextIds change base overlay overlay.next
  change change.apply base overlay = _ at moved
  rw [applied] at moved
  injection moved with same
  have own := congrArg Overlay.next same
  exact own

/-- Only a registration changes the catalog. -/
theorem catalog_apply (applied : change.apply base overlay = .ok after) :
    after.catalog = overlay.catalog ∨
      ∃ entry, change = .register entry ∧ entry.insert overlay.catalog = .ok after.catalog := by
  cases change with
  | register entry =>
    obtain ⟨catalog, inserted, rfl⟩ := Overlay.registerEntry_eq_ok.mp applied
    exact .inr ⟨entry, rfl, inserted⟩
  | _ =>
    cases applied
    exact .inl rfl

/-- An insertion into a delta uses its own key besides the keys used before. -/
theorem mem_delta_insert {Record : Type} {delta : Delta Record} {key id : UInt64}
    {entry : Option Record} (member : id ∈ delta.insert key entry) : key = id ∨ id ∈ delta := by
  rw [Std.ExtTreeMap.mem_insert] at member
  exact member.imp_left Std.LawfulEqOrd.eq_of_compare

/-- An edit uses no key that neither layer used before. -/
theorem mem_editRecord {Record : Type} {base : BTreeMap UInt64 Record} {delta : Delta Record}
    {key id : UInt64} {edit : Record → Record}
    (member : id ∈ (Overlay.editRecord delta base[key]? key edit).1) : id ∈ base ∨ id ∈ delta := by
  rw [editRecord_eq] at member
  cases visible : layered base delta key with
  | none =>
    rw [visible] at member
    exact .inr member
  | some record =>
    rw [visible] at member
    rcases mem_delta_insert member with rfl | old
    · -- The edited record was visible, so one of the layers has its key.
      unfold layered at visible
      cases present : delta[key]? with
      | some entry =>
        exact .inr (Std.ExtTreeMap.mem_iff_isSome_getElem?.mpr (by rw [present]; rfl))
      | none =>
        simp only [present] at visible
        exact .inl (Std.ExtTreeMap.mem_iff_isSome_getElem?.mpr (by rw [visible]; rfl))
    · exact .inr old

/-- A mutation puts no id in use but the one it creates or masks. -/
theorem holds_apply (applied : change.apply base overlay = .ok after) {family : IdFamily}
    {id : UInt64} (holds : (LayeredState.mk base after).Holds family id) :
    (LayeredState.mk base overlay).Holds family id ∨ change.creates = some (family, id) ∨
      change.masks = some (family, id) := by
  have put {Record : Type} {records : BTreeMap UInt64 Record} {delta : Delta Record}
      {key : UInt64} {entry : Option Record} (member : id ∈ records ∨ id ∈ delta.insert key entry) :
      (id ∈ records ∨ id ∈ delta) ∨ key = id := by
    rcases member with based | inserted
    · exact .inl (.inl based)
    · exact (mem_delta_insert inserted).symm.imp_left .inr
  have edited {Record : Type} {records : BTreeMap UInt64 Record} {delta : Delta Record}
      {key : UInt64} {edit : Record → Record}
      (member : id ∈ records ∨ id ∈ (Overlay.editRecord delta records[key]? key edit).1) :
      id ∈ records ∨ id ∈ delta := member.elim .inl mem_editRecord
  cases change with
  | register entry =>
    -- The records stay, and the catalog registers one entry more.
    obtain ⟨catalog, inserted, rfl⟩ := Overlay.registerEntry_eq_ok.mp applied
    have registered (registers : catalog.Registers family id) :
        entry.handle = (family, id) ∨ overlay.catalog.Registers family id :=
      Registration.registers_insert inserted registers
    cases family with
    | element | relation | incidence => exact .inl holds
    | role | label | relationType | propertyKey | projection | index =>
      exact (registered holds).symm.imp_right fun own => .inl (congrArg some own)
  | createElement own =>
    cases applied
    cases family with
    | element =>
      rcases put (show id ∈ base.elements ∨ id ∈ overlay.elements.insert _ _ from holds)
        with old | rfl
      · exact .inl old
      · exact .inr (.inl rfl)
    | _ => exact .inl holds
  | createRelation own =>
    cases applied
    cases family with
    | relation =>
      rcases put (show id ∈ base.relations ∨ id ∈ overlay.relations.insert _ _ from holds)
        with old | rfl
      · exact .inl old
      · exact .inr (.inl rfl)
    | _ => exact .inl holds
  | createIncidence record =>
    cases applied
    cases family with
    | incidence =>
      rcases put (show id ∈ base.incidences ∨ id ∈ overlay.incidences.insert _ _ from holds)
        with old | rfl
      · exact .inl old
      · exact .inr (.inl rfl)
    | _ => exact .inl holds
  | tombstoneElement own =>
    cases applied
    cases family with
    | element =>
      rcases put (show id ∈ base.elements ∨ id ∈ overlay.elements.insert _ _ from holds)
        with old | rfl
      · exact .inl old
      · exact .inr (.inr rfl)
    | _ => exact .inl holds
  | tombstoneRelation own =>
    cases applied
    cases family with
    | relation =>
      rcases put (show id ∈ base.relations ∨ id ∈ overlay.relations.insert _ _ from holds)
        with old | rfl
      · exact .inl old
      · exact .inr (.inr rfl)
    | _ => exact .inl holds
  | tombstoneIncidence own =>
    cases applied
    cases family with
    | incidence =>
      rcases put (show id ∈ base.incidences ∨ id ∈ overlay.incidences.insert _ _ from holds)
        with old | rfl
      · exact .inl old
      · exact .inr (.inr rfl)
    | _ => exact .inl holds
  | addElementLabel own label =>
    cases applied
    cases family with
    | element =>
      exact .inl (edited (show id ∈ base.elements ∨
        id ∈ (Overlay.editRecord overlay.elements base.elements[own]? own _).1 from holds))
    | _ => exact .inl holds
  | addRelationLabel own label | setRelationType own relationType =>
    cases applied
    cases family with
    | relation =>
      exact .inl (edited (show id ∈ base.relations ∨
        id ∈ (Overlay.editRecord overlay.relations base.relations[own]? own _).1 from holds))
    | _ => exact .inl holds
  | setProperty | removeProperty =>
    cases applied
    exact .inl holds

/-- A mutation that creates a fresh id keeps the catalog well formed. -/
theorem catalog_wellFormed_apply (applied : change.apply base overlay = .ok after)
    (wellFormed : overlay.catalog.WellFormed)
    (fresh : ∀ {family id}, change.creates = some (family, id) →
      ¬ (LayeredState.mk base overlay).Holds family id) : after.catalog.WellFormed := by
  rcases catalog_apply applied with same | ⟨entry, rfl, inserted⟩
  · rwa [same]
  · refine (Registration.wellFormed_insert inserted ?_).1 wellFormed
    have unused := fresh (show (Change.register entry).creates = some (entry.handle.1, _) from rfl)
    cases entry <;> exact unused

/-- A mutation that creates a fresh id keeps the index in step. -/
theorem indexed_apply (applied : change.apply base overlay = .ok after)
    (coherent : (LayeredState.mk base overlay).Coherent)
    (fresh : ∀ {family id}, change.creates = some (family, id) →
      ¬ (LayeredState.mk base overlay).Holds family id) :
    (LayeredState.mk base after).Indexed := by
  -- An id that was never handed out has no record to hide.
  have hidden {Record : Type} {records : BTreeMap UInt64 Record} {delta : Delta Record}
      {id : UInt64} (unused : ¬ (id ∈ records ∨ id ∈ delta)) : layered records delta id = none := by
    rw [not_or] at unused
    unfold layered
    rw [Std.ExtTreeMap.getElem?_eq_none unused.2, Std.ExtTreeMap.getElem?_eq_none unused.1]
  have indexed := coherent.indexed
  cases change with
  | register entry =>
    obtain ⟨catalog, _, rfl⟩ := Overlay.registerEntry_eq_ok.mp applied
    exact indexed
  | createElement id =>
    cases applied
    exact indexed_putElement indexed (hidden (fresh
      (show (Change.createElement id).creates = some (.element, id) from rfl)))
  | createRelation id =>
    cases applied
    exact indexed_putRelation indexed (hidden (fresh
      (show (Change.createRelation id).creates = some (.relation, id) from rfl)))
  | createIncidence record =>
    cases applied
    exact indexed_putIncidence indexed (hidden (fresh
      (show (Change.createIncidence record).creates = some (.incidence, record.id) from rfl)))
  | tombstoneElement id =>
    cases applied
    exact indexed_tombstoneElement indexed
  | tombstoneRelation id =>
    cases applied
    exact indexed_tombstoneRelation indexed
  | tombstoneIncidence id =>
    cases applied
    -- An incidence that is gone has no property, so its postings are gone as well.
    refine indexed_tombstoneIncidence indexed coherent.keyed ?_
    intro absent key
    cases found : (LayeredState.mk base overlay).property (.incidence id) key with
    | none => rfl
    | some value =>
      have present : ((LayeredState.mk base overlay).incidence id).isSome :=
        coherent.anchored found
      rw [absent] at present
      cases present
  | addElementLabel element label =>
    cases applied
    exact indexed_addElementLabel indexed
  | addRelationLabel relation label =>
    cases applied
    exact indexed_addRelationLabel indexed
  | setRelationType relation relationType =>
    cases applied
    exact indexed_setRelationType indexed
  | setProperty subject key value =>
    cases applied
    exact indexed_setProperty indexed
  | removeProperty subject key =>
    cases applied
    exact indexed_removeProperty indexed

/-- A known mutation that creates a fresh id below the watermark keeps a view coherent. -/
theorem coherent_apply (applied : change.apply base overlay = .ok after)
    (coherent : (LayeredState.mk base overlay).Coherent)
    (known : change.Known ⟨base, overlay⟩)
    (fresh : ∀ {family id}, change.creates = some (family, id) →
      ¬ (LayeredState.mk base overlay).Holds family id)
    (below : ∀ {family id}, change.creates = some (family, id) → id < overlay.next.get family) :
    (LayeredState.mk base after).Coherent where
  bounded {family id} holds := by
    change id < after.next.get family
    rw [next_apply applied]
    rcases holds_apply applied holds with old | created | masked
    · exact coherent.bounded old
    · exact below created
    · exact known.masks masked
  baseKeyed := coherent.baseKeyed
  keyed := by
    rw [contents_apply applied]
    exact coherent.keyed.effect change
  catalog := catalog_wellFormed_apply applied coherent.catalog fresh
  anchored := by
    rw [contents_apply applied]
    exact Contents.Anchored.effect coherent.anchored change known.sets
  indexed := indexed_apply applied coherent fresh

/-- Raising the watermark keeps a view coherent. -/
theorem LayeredState.Coherent.raise (coherent : (LayeredState.mk base overlay).Coherent)
    {next : NextIds} (above : overlay.next ≤ next) :
    (LayeredState.mk base { overlay with next }).Coherent where
  bounded {family id} holds := by
    have below : id < overlay.next.get family :=
      coherent.bounded (show (LayeredState.mk base overlay).Holds family id from holds)
    exact UInt64.lt_of_lt_of_le below (above family)
  baseKeyed := coherent.baseKeyed
  keyed := coherent.keyed
  catalog := coherent.catalog
  anchored := coherent.anchored
  indexed := coherent.indexed

end Apply

/-- Every step that makes a known change keeps the writer's view coherent. -/
theorem DeltaStep.coherent {base : BaseRecords} {before after : WriteOverlay}
    (step : DeltaStep base Change.Known before after)
    (coherent : (LayeredState.mk base before.toOverlay).Coherent) :
    (LayeredState.mk base after.toOverlay).Coherent := by
  cases step with
  | @create _ change drawn _ guard creates fits applied =>
    have raised := coherent.raise (NextIds.le_set fits)
    refine coherent_apply applied raised ⟨?_, guard.sets⟩ ?_ ?_
    · intro family id masked
      -- A mutation that creates an id masks none.
      cases change <;> cases masked <;> cases creates
    · intro family id created holds
      rw [creates] at created
      cases created
      have old : (LayeredState.mk base before.toOverlay).Holds drawn (before.next.get drawn) := holds
      exact UInt64.lt_irrefl _ (coherent.bounded old)
    · intro family id created
      rw [creates] at created
      cases created
      have grown := toNat_of_checkedNext fits
      rw [NextIds.get_set, if_pos rfl, UInt64.lt_iff_toNat_lt]
      omega
  | mutate change guard creates applied =>
    refine coherent_apply applied coherent guard ?_ ?_ <;>
      · intro family id created
        rw [creates] at created
        cases created
  | burn family fits interned => exact coherent.raise (NextIds.le_set fits)

end Oxgraph
