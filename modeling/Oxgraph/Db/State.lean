import Oxgraph.Db.Error

/-! Canonical record values and the nine-value id-allocator watermark. -/

namespace Oxgraph

/-- The labels carried by one record. -/
abbrev LabelSet := BTreeSet LabelId

/-- One visible canonical element. -/
structure ElementRecord where
  -- Stable element identifier.
  id : ElementId
  -- Labels assigned to this element.
  labels : LabelSet

/-- One visible canonical relation. -/
structure RelationRecord where
  -- Stable relation identifier.
  id : RelationId
  -- Optional relation type.
  relationType : Option RelationTypeId
  -- Labels assigned to this relation.
  labels : LabelSet

/-- One visible incidence in canonical database coordinates. -/
structure IncidenceRecord where
  -- Stable incidence id.
  id : IncidenceId
  -- Stable relation id containing the incidence.
  relation : RelationId
  -- Stable element id participating in the relation.
  element : ElementId
  -- Structural role of the incidence.
  role : RoleId
  deriving DecidableEq, Repr

/-- The nine monotonic id allocators. -/
structure NextIds where
  element : ElementId
  relation : RelationId
  incidence : IncidenceId
  role : RoleId
  label : LabelId
  relationType : RelationTypeId
  propertyKey : PropertyKeyId
  projection : ProjectionId
  index : IndexId
  deriving DecidableEq, Repr

namespace NextIds

/-- The watermark of an empty store: every allocator starts at `1`. -/
def initial : NextIds := ⟨1, 1, 1, 1, 1, 1, 1, 1, 1⟩

/-- The next candidate of one family's allocator. -/
def get (next : NextIds) : IdFamily → UInt64
  | .element => next.element
  | .relation => next.relation
  | .incidence => next.incidence
  | .role => next.role
  | .label => next.label
  | .relationType => next.relationType
  | .propertyKey => next.propertyKey
  | .projection => next.projection
  | .index => next.index

/-- The watermark with one family's allocator moved. -/
def set (next : NextIds) (family : IdFamily) (id : UInt64) : NextIds :=
  match family with
  | .element => { next with element := id }
  | .relation => { next with relation := id }
  | .incidence => { next with incidence := id }
  | .role => { next with role := id }
  | .label => { next with label := id }
  | .relationType => { next with relationType := id }
  | .propertyKey => { next with propertyKey := id }
  | .projection => { next with projection := id }
  | .index => { next with index := id }

/-- Returns the elementwise maximum of two watermarks, allocator by allocator. -/
def elementwiseMax (left right : NextIds) : NextIds where
  element := max left.element right.element
  relation := max left.relation right.relation
  incidence := max left.incidence right.incidence
  role := max left.role right.role
  label := max left.label right.label
  relationType := max left.relationType right.relationType
  propertyKey := max left.propertyKey right.propertyKey
  projection := max left.projection right.projection
  index := max left.index right.index

/-- One watermark is at or below another when each of its allocators is. -/
instance : LE NextIds := ⟨fun left right => ∀ family, left.get family ≤ right.get family⟩

/-- Watermarks are equal when every allocator agrees. -/
@[ext] theorem ext_get {left right : NextIds}
    (agree : ∀ family, left.get family = right.get family) : left = right := by
  cases left
  cases right
  simp only [mk.injEq]
  exact ⟨agree .element, agree .relation, agree .incidence, agree .role, agree .label,
    agree .relationType, agree .propertyKey, agree .projection, agree .index⟩

/-- Moving one allocator is visible to its own family only. -/
@[simp] theorem get_set (next : NextIds) (family other : IdFamily) (id : UInt64) :
    (next.set family id).get other = if family = other then id else next.get other := by
  cases family <;> cases other <;> rfl

/-- Each allocator of the maximum is the maximum of the allocators. -/
@[simp] theorem get_elementwiseMax (left right : NextIds) (family : IdFamily) :
    (elementwiseMax left right).get family = max (left.get family) (right.get family) := by
  cases family <;> rfl

theorem le_refl (next : NextIds) : next ≤ next := fun _ => UInt64.le_refl _

theorem le_trans {first second third : NextIds} (before : first ≤ second) (after : second ≤ third) :
    first ≤ third :=
  fun family => UInt64.le_trans (before family) (after family)

/-- Drawing the next id moves a watermark up. -/
theorem le_set {next : NextIds} {family : IdFamily} {id : UInt64}
    (fits : checkedNext (next.get family) = some id) : next ≤ next.set family id := by
  intro other
  rw [get_set]
  split
  · rename_i same
    subst same
    have grown := toNat_of_checkedNext fits
    rw [UInt64.le_iff_toNat_le]
    omega
  · exact UInt64.le_refl _

/-- The maximum with a watermark already above is that watermark. -/
theorem elementwiseMax_of_le {left right : NextIds} (below : left ≤ right) :
    elementwiseMax left right = right := by
  ext family
  rw [get_elementwiseMax]
  have order := below family
  rw [UInt64.le_iff_toNat_le] at order
  simp only [max]
  split
  · rfl
  · rename_i above
    rw [UInt64.le_iff_toNat_le] at above
    omega

end NextIds

end Oxgraph
