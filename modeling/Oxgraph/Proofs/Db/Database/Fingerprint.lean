import Oxgraph.Spec.Schema
import Oxgraph.Proofs.Layout.Digest

/-!
What the fingerprint of a schema hashes, against what the schema declares.

Every item has a token that tells its shape. The sorted tokens then tell the multiset of shapes.
-/

namespace Oxgraph

/-- Maps that tell the same entries apart leave the same lists equal up to order. -/
theorem perm_map_iff_of_kernel {A B C : Type} [Nonempty B] [Nonempty C] {name : A → B}
    {shape : A → C} (kernel : ∀ left right, name left = name right ↔ shape left = shape right)
    {left right : List A} :
    (left.map name).Perm (right.map name) ↔ (left.map shape).Perm (right.map shape) := by
  -- Each map is the other one behind a translation.
  have fromShape : name.FactorsThrough shape := fun _ _ same => (kernel _ _).mpr same
  have fromName : shape.FactorsThrough name := fun _ _ same => (kernel _ _).mp same
  obtain ⟨toName, names⟩ := (Function.factorsThrough_iff name).mp fromShape
  obtain ⟨toShape, shapes⟩ := (Function.factorsThrough_iff shape).mp fromName
  constructor
  · intro perm
    rw [shapes, ← List.map_map, ← List.map_map]
    exact perm.map toShape
  · intro perm
    rw [names, ← List.map_map, ← List.map_map]
    exact perm.map toName

/-- An item of a kind is read back from itself. -/
theorem partialInv_own {A B : Type} {kind : A → B}
    (apart : ∀ first second, kind first = kind second → first = second) (item : A) :
    Function.partialInv kind (kind item) = some item :=
  Function.partialInv_left apart item

/-- No item of one kind is read from one of another. -/
theorem partialInv_other {A B C : Type} {kind : A → B} {other : C → B}
    (apart : ∀ first second, kind first ≠ other second) (item : C) :
    Function.partialInv kind (other item) = none :=
  dif_neg fun ⟨first, same⟩ => apart first item same

/-- Joined names tell the names, and not their order. -/
theorem joinSorted_eq_iff {left right : List String} :
    joinSorted left = joinSorted right ↔ (left : Multiset String) = right := by
  rw [joinSorted, joinSorted, Layout.encodeCompositeKey_inj.eq_iff, ascending_eq_iff,
    Multiset.coe_eq_coe]

theorem PropertyFamily.debug_injective : Function.Injective debug := by
  intro left right same
  cases left <;> cases right <;> first | rfl | exact absurd same (by decide)

theorem PropertyType.debug_injective : Function.Injective debug := by
  intro left right same
  cases left <;> cases right <;> first | rfl | exact absurd same (by decide)

/-- One declared item, without the order of the names in it. -/
inductive ItemShape where
  | role (name : String)
  | label (name : String)
  | relationType (name : String)
  | key (declared : String × PropertyFamily × PropertyType)
  | equalityIndex (declared : String × String)
  | graphProjection (shape : String × String × String × Multiset String)
  | hypergraphProjection (shape : String × Multiset String × Multiset String × Multiset String)

namespace Declaration

/-- What an item declares. -/
def shape : Declaration → ItemShape
  | .role name => .role name
  | .label name => .label name
  | .relationType name => .relationType name
  | .key declared => .key declared
  | .equalityIndex declared => .equalityIndex declared
  | .graphProjection spec => .graphProjection spec.shape
  | .hypergraphProjection spec => .hypergraphProjection spec.shape

/-- The fields that the token of an item encodes, its tag first. -/
def fields : Declaration → List String
  | .role name => ["role", name]
  | .label name => ["label", name]
  | .relationType name => ["rtype", name]
  | .key declared =>
    ["key", declared.1, declared.2.1.debug, declared.2.2.debug]
  | .equalityIndex declared => ["eqidx", declared.1, declared.2]
  | .graphProjection spec =>
    ["gproj", spec.name, spec.sourceRole, spec.targetRole, joinSorted spec.relationTypes]
  | .hypergraphProjection spec =>
    ["hproj", spec.name, joinSorted spec.relationTypes, joinSorted spec.sourceRoles,
      joinSorted spec.targetRoles]

/-- Items have the same fields exactly when they declare the same. -/
theorem fields_eq_iff (left right : Declaration) :
    left.fields = right.fields ↔ left.shape = right.shape := by
  -- Tags tell items of different kinds apart, and fields those of one kind.
  cases left <;> cases right <;>
    simp [fields, shape, GraphProjectionSpec.shape, HypergraphProjectionSpec.shape,
      joinSorted_eq_iff, PropertyFamily.debug_injective.eq_iff,
      PropertyType.debug_injective.eq_iff, Prod.ext_iff]

end Declaration

namespace Schema

/-- The tokens of a schema are those of the items it declares. -/
theorem tokens_eq (schema : Schema) :
    schema.tokens =
      schema.declarations.map fun item => Layout.encodeCompositeKey item.fields := by
  simp only [tokens, declarations, List.map_append, List.map_map, Function.comp_def,
    Declaration.fields]

/-- What a schema declares, kind by kind. -/
theorem shapes_eq (schema : Schema) :
    schema.declarations.map Declaration.shape =
      schema.roles.map .role ++ schema.labels.map .label ++
        schema.relationTypes.map .relationType ++ schema.keys.map .key ++
        schema.equalityIndexes.map .equalityIndex ++
        (schema.graphProjections.map GraphProjectionSpec.shape).map .graphProjection ++
        (schema.hypergraphProjections.map HypergraphProjectionSpec.shape).map
          .hypergraphProjection := by
  simp only [declarations, List.map_append, List.map_map, Function.comp_def, Declaration.shape]

/-- Schemas have one shape exactly when they declare items of the same shapes. -/
theorem sameShape_iff {left right : Schema} :
    left.SameShape right ↔
      (left.declarations.map Declaration.shape).Perm
        (right.declarations.map Declaration.shape) := by
  constructor
  · intro same
    rw [shapes_eq, shapes_eq]
    have graphs := Multiset.coe_eq_coe.mp same.graphProjections
    have hypergraphs := Multiset.coe_eq_coe.mp same.hypergraphProjections
    exact ((((((Multiset.coe_eq_coe.mp same.roles).map _).append
      ((Multiset.coe_eq_coe.mp same.labels).map _)).append
      ((Multiset.coe_eq_coe.mp same.relationTypes).map _)).append
      ((Multiset.coe_eq_coe.mp same.keys).map _)).append
      ((Multiset.coe_eq_coe.mp same.equalityIndexes).map _)).append (graphs.map _)
      |>.append (hypergraphs.map _)
  · intro perm
    rw [shapes_eq, shapes_eq] at perm
    -- The items of a kind are those that its own constructor is undone on.
    have ofKind {A : Type} (kind : A → ItemShape) := perm.filterMap (Function.partialInv kind)
    simp only [List.filterMap_append] at ofKind
    refine ⟨Multiset.coe_eq_coe.mpr ?_, Multiset.coe_eq_coe.mpr ?_, Multiset.coe_eq_coe.mpr ?_,
      Multiset.coe_eq_coe.mpr ?_, Multiset.coe_eq_coe.mpr ?_, Multiset.coe_eq_coe.mpr ?_,
      Multiset.coe_eq_coe.mpr ?_⟩
    · simpa [partialInv_own, partialInv_other] using ofKind ItemShape.role
    · simpa [partialInv_own, partialInv_other] using ofKind ItemShape.label
    · simpa [partialInv_own, partialInv_other] using ofKind ItemShape.relationType
    · simpa [partialInv_own, partialInv_other] using ofKind ItemShape.key
    · simpa [partialInv_own, partialInv_other] using ofKind ItemShape.equalityIndex
    · simpa [partialInv_own, partialInv_other] using ofKind ItemShape.graphProjection
    · simpa [partialInv_own, partialInv_other] using ofKind ItemShape.hypergraphProjection

/-- What a fingerprint hashes tells the shapes of the declared items, and not their order. -/
theorem fingerprintItems_eq_iff {left right : Schema} :
    left.fingerprintItems = right.fingerprintItems ↔
      (left.declarations.map Declaration.shape).Perm
        (right.declarations.map Declaration.shape) := by
  rw [fingerprintItems, fingerprintItems, ascending_eq_iff, tokens_eq, tokens_eq]
  have : Nonempty ItemShape := ⟨.role ""⟩
  refine perm_map_iff_of_kernel fun first second => ?_
  rw [Layout.encodeCompositeKey_inj.eq_iff, Declaration.fields_eq_iff]

end Schema

/-- Composite keys never conflate field lists, nor fingerprints what schemas declare. -/
theorem keys_never_conflate :
    Function.Injective Layout.encodeCompositeKey ∧
      ∀ left right : List Declaration,
        (Schema.declared left).fingerprintItems = (Schema.declared right).fingerprintItems ↔
          (Schema.declared left).SameShape (Schema.declared right) :=
  ⟨Layout.encodeCompositeKey_inj, fun _ _ =>
    Schema.fingerprintItems_eq_iff.trans Schema.sameShape_iff.symm⟩

end Oxgraph
