import Oxgraph.Proofs.Db.Database.Integrity

/-! The catalog only grows, and its definitions refer to what it registers. -/

namespace Oxgraph

namespace Catalog.Grows

variable {first second : Catalog}

/-- What a projection definition refers to stays registered. -/
theorem projection (grows : second.Grows first) {definition : ProjectionDefinition}
    (registered : definition.Registered first) : definition.Registered second := by
  cases definition with
  | graph graph =>
    obtain ⟨source, target, types⟩ := registered
    exact ⟨isSome grows.roles.entries source, isSome grows.roles.entries target,
      fun id member => isSome grows.relationTypes.entries (types id member)⟩
  | hypergraph hyper =>
    obtain ⟨sources, targets, types⟩ := registered
    exact ⟨fun id member => isSome grows.roles.entries (sources id member),
      fun id member => isSome grows.roles.entries (targets id member),
      fun id member => isSome grows.relationTypes.entries (types id member)⟩

/-- What an index definition refers to stays registered. -/
theorem index (grows : second.Grows first) {definition : IndexDefinition}
    (registered : definition.Registered first) : definition.Registered second := by
  cases definition with
  | label id => exact isSome grows.labels.entries registered
  | relationType id => exact isSome grows.relationTypes.entries registered
  | propertyEquality key | propertyRange key => exact isSome grows.propertyKeys.entries registered
  | compositeEquality keys =>
    exact fun key member => isSome grows.propertyKeys.entries (registered key member)
  | projection id => exact isSome grows.projections.entries registered

end Catalog.Grows

namespace Registration

variable {entry : Registration} {catalog after : Catalog}

/-- A registration that refers to what is registered keeps the catalog closed. -/
theorem closed_insert (inserted : entry.insert catalog = .ok after) (closed : catalog.Closed)
    (fresh : ¬ catalog.Registers entry.handle.1 entry.handle.2) (own : entry.Closed catalog) :
    after.Closed := by
  have grows := (wellFormed_insert inserted fresh).2
  cases entry with
  | role id name | label id name | relationType id name | propertyKey definition =>
    obtain ⟨table, added, rfl⟩ := map_eq_ok inserted
    exact ⟨fun found => grows.projection (closed.projections found),
      fun found => grows.index (closed.indexes found)⟩
  | projection id definition =>
    obtain ⟨table, added, rfl⟩ := map_eq_ok inserted
    refine ⟨?_, fun found => grows.index (closed.indexes found)⟩
    intro probe entry found
    have read := (NameTable.get_insert added probe).symm.trans found
    split at read
    · cases read
      exact grows.projection own
    · exact grows.projection (closed.projections read)
  | index id name definition =>
    obtain ⟨table, added, rfl⟩ := map_eq_ok inserted
    refine ⟨fun found => grows.projection (closed.projections found), ?_⟩
    intro probe entry found
    have read := (NameTable.get_insert added probe).symm.trans found
    split at read
    · cases read
      exact grows.index own
    · exact grows.index (closed.indexes read)

end Registration

/-- A change under a fresh id grows the catalog, and keeps it closed when it is allowed. -/
theorem grows_apply {change : Change} {base : BaseRecords} {overlay after : Overlay}
    (applied : change.apply base overlay = .ok after)
    (fresh : ∀ {family id}, change.creates = some (family, id) →
      ¬ overlay.catalog.Registers family id) :
    after.catalog.Grows overlay.catalog ∧ ∀ {view : LayeredState},
      view.catalog = overlay.catalog → change.Allowed view → overlay.catalog.Closed →
        after.catalog.Closed := by
  rcases catalog_apply applied with same | ⟨entry, rfl, inserted⟩
  · rw [same]
    exact ⟨.refl _, fun _ _ closed => closed⟩
  · have unused := fresh (show (Change.register entry).creates =
      some (entry.handle.1, entry.handle.2) from rfl)
    refine ⟨(Registration.wellFormed_insert inserted unused).2, ?_⟩
    intro view same allowed closed
    change entry.Closed view.catalog at allowed
    rw [same] at allowed
    exact Registration.closed_insert inserted closed unused allowed

/-- An allowed step of the delta grows the catalog and keeps it closed. -/
theorem DeltaStep.grows {base : BaseRecords} {before after : WriteOverlay}
    (step : DeltaStep base Change.Allowed before after)
    (coherent : (LayeredState.mk base before.toOverlay).Coherent) :
    after.catalog.Grows before.catalog ∧ (before.catalog.Closed → after.catalog.Closed) := by
  cases step with
  | @create overlay change drawn next guard creates fits applied =>
    have fresh {family : IdFamily} {id : UInt64} (created : change.creates = some (family, id)) :
        ¬ before.catalog.Registers family id := by
      rw [creates] at created
      cases created
      intro registers
      exact UInt64.lt_irrefl _ (coherent.bounded (LayeredState.holds_of_registers registers))
    obtain ⟨grows, closed⟩ := grows_apply applied fresh
    exact ⟨grows, closed rfl guard⟩
  | @mutate overlay change guard creates applied =>
    have fresh {family : IdFamily} {id : UInt64} (created : change.creates = some (family, id)) :
        ¬ before.catalog.Registers family id := by
      rw [creates] at created
      cases created
    obtain ⟨grows, closed⟩ := grows_apply applied fresh
    exact ⟨grows, closed rfl guard⟩
  | burn family fits interned => exact ⟨.refl _, fun closed => closed⟩

/-- A guarded step grows the catalog and keeps it closed. -/
theorem GuardedStep.grows {base : BaseRecords} {before after : WriteOverlay}
    (step : GuardedStep base before after)
    (coherent : (LayeredState.mk base before.toOverlay).Coherent) :
    after.catalog.Grows before.catalog ∧ (before.catalog.Closed → after.catalog.Closed) := by
  cases step with
  | delta step => exact step.grows coherent
  | tombstoneElement id visible =>
    -- A cascade leaves the catalog alone.
    obtain ⟨_, catalog, _⟩ := tombstoneIncidences_view base
      (((LayeredState.mk base before.toOverlay).elementIncidences id).map IncidenceRecord.id)
      (before.tombstoneElement base id)
    rw [catalog]
    exact ⟨.refl _, fun closed => closed⟩
  | tombstoneRelation id visible =>
    obtain ⟨_, catalog, _⟩ := tombstoneIncidences_view base
      (((LayeredState.mk base before.toOverlay).relationIncidences id).map IncidenceRecord.id)
      (before.tombstoneRelation base id)
    rw [catalog]
    exact ⟨.refl _, fun closed => closed⟩

/-- Every run of a writer grows the catalog and keeps it closed. -/
theorem Writer.Step.grows {before after : Writer} (steps : Relation.ReflTransGen Step before after)
    (sound : before.merged.Sound) : after.merged.catalog.Grows before.merged.catalog ∧
      (before.merged.catalog.Closed → after.merged.catalog.Closed) := by
  induction steps with
  | refl => exact ⟨.refl _, fun closed => closed⟩
  | @tail middle last prior step ih =>
    obtain ⟨delta, guarded, rfl⟩ := step
    have here := guarded.grows (Step.sound prior sound).coherent
    exact ⟨ih.1.trans here.1, fun closed => here.2 (ih.2 closed)⟩

/-- The catalog of a created store is closed. -/
theorem Catalog.closed_empty : Catalog.empty.Closed := by
  constructor <;> simp [Catalog.empty, Catalog.projection, Catalog.index, NameTable.empty]

end Oxgraph
