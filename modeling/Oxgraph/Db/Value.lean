import Oxgraph.Lib.TreeMap

/-! Canonical identifiers, typed property values, and the subjects that own properties. -/

namespace Oxgraph

-- Stable canonical element identifier.
abbrev ElementId := UInt64
-- Stable canonical relation identifier.
abbrev RelationId := UInt64
-- Stable canonical incidence identifier.
abbrev IncidenceId := UInt64
-- Stable canonical structural role identifier.
abbrev RoleId := UInt64
-- Stable catalog label identifier.
abbrev LabelId := UInt64
-- Stable catalog relation-type identifier.
abbrev RelationTypeId := UInt64
-- Stable catalog property-key identifier.
abbrev PropertyKeyId := UInt64
-- Stable catalog projection identifier.
abbrev ProjectionId := UInt64
-- Stable catalog index identifier.
abbrev IndexId := UInt64
-- Monotonic committed transaction sequence.
abbrev CommitSeq := UInt64
-- Monotonic writer transaction identifier.
abbrev TransactionId := UInt64

/-- Canonical id family, for errors that name one. -/
inductive IdFamily where
  | element | relation | incidence | role | label | relationType | propertyKey | projection | index
  deriving DecidableEq, Repr

/-- Returns the next identifier if it fits. -/
def checkedNext (id : UInt64) : Option UInt64 :=
  if id.toNat + 1 < UInt64.size then some (id + 1) else none

/-- The identifier after one that has a successor is one larger. -/
theorem toNat_of_checkedNext {id next : UInt64} (fits : checkedNext id = some next) :
    next.toNat = id.toNat + 1 := by
  unfold checkedNext at fits
  split at fits
  · rename_i small
    cases fits
    rw [UInt64.toNat_add, UInt64.toNat_one]
    exact Nat.mod_eq_of_lt small
  · cases fits

/-- Supported scalar property types. -/
inductive PropertyType where
  | boolean | integer | text
  deriving DecidableEq, Repr

/-- Subject family accepted by a property key. -/
inductive PropertyFamily where
  | element | relation | incidence
  deriving DecidableEq, Repr

/-- One typed property value. -/
inductive PropertyValue where
  | boolean (flag : Bool)
  | integer (number : Int64)
  | text (string : String)
  deriving DecidableEq, Repr

namespace PropertyValue

/-- Returns this value's type tag. -/
def valueType : PropertyValue → PropertyType
  | .boolean _ => .boolean
  | .integer _ => .integer
  | .text _ => .text

/-- The declaration order of the variants, which the derived order ranks first. -/
def rank : PropertyValue → Nat
  | .boolean _ => 0
  | .integer _ => 1
  | .text _ => 2

/-- Values of one type compare by payload, values of different types by declaration order. -/
instance : Ord PropertyValue where
  compare left right :=
    match left, right with
    | .boolean left, .boolean right => compare left right
    | .integer left, .integer right => compare left right
    | .text left, .text right => compare left right
    | left, right => compare left.rank right.rank

@[simp] theorem compare_boolean (left right : Bool) :
    compare (boolean left) (boolean right) = compare left right := rfl

@[simp] theorem compare_integer (left right : Int64) :
    compare (integer left) (integer right) = compare left right := rfl

@[simp] theorem compare_text (left right : String) :
    compare (text left) (text right) = compare left right := rfl

@[simp] theorem compare_boolean_integer (flag : Bool) (number : Int64) :
    compare (boolean flag) (integer number) = .lt := rfl

@[simp] theorem compare_boolean_text (flag : Bool) (string : String) :
    compare (boolean flag) (text string) = .lt := rfl

@[simp] theorem compare_integer_boolean (number : Int64) (flag : Bool) :
    compare (integer number) (boolean flag) = .gt := rfl

@[simp] theorem compare_integer_text (number : Int64) (string : String) :
    compare (integer number) (text string) = .lt := rfl

@[simp] theorem compare_text_boolean (string : String) (flag : Bool) :
    compare (text string) (boolean flag) = .gt := rfl

@[simp] theorem compare_text_integer (string : String) (number : Int64) :
    compare (text string) (integer number) = .gt := rfl

/-- The order on values is oriented and transitive, as each payload order is. -/
instance : Std.TransOrd PropertyValue where
  eq_swap {left right} := by
    cases left <;> cases right <;> simp <;> exact Std.OrientedOrd.eq_swap
  isLE_trans {first second third} before after := by
    cases first <;> cases second <;> cases third <;> simp at before after ⊢ <;>
      exact Std.TransOrd.isLE_trans before after

/-- Only equal values compare as equal. -/
instance : Std.LawfulEqOrd PropertyValue where
  compare_self {value} := by
    cases value <;> simp [Std.ReflOrd.compare_self]
  eq_of_compare {left right} same := by
    cases left <;> cases right <;> simp at same ⊢ <;> exact same

/-- `false` is the least value. -/
theorem isLE_compare_false (value : PropertyValue) : (compare (.boolean false) value).isLE := by
  cases value with
  | boolean flag => cases flag <;> rfl
  | integer number => rfl
  | text string => rfl

end PropertyValue

/-- Subject that can own properties. -/
inductive PropertySubject where
  | element (id : ElementId)
  | relation (id : RelationId)
  | incidence (id : IncidenceId)
  deriving DecidableEq, Repr

namespace PropertySubject

/-- Returns the property family for this subject. -/
def family : PropertySubject → PropertyFamily
  | .element _ => .element
  | .relation _ => .relation
  | .incidence _ => .incidence

/-- The declaration order of the variants, which is also the order of their wire kind tags. -/
def rank : PropertySubject → UInt32
  | .element _ => 0
  | .relation _ => 1
  | .incidence _ => 2

/-- The canonical id of the subject within its family. -/
def id : PropertySubject → UInt64
  | .element id | .relation id | .incidence id => id

/-- Subjects compare by variant, then by id. -/
instance : Ord PropertySubject where
  compare left right := (compare left.rank right.rank).then (compare left.id right.id)

/-- A subject is determined by its variant and id. -/
theorem ext_rank {left right : PropertySubject} (rank : left.rank = right.rank)
    (id : left.id = right.id) : left = right := by
  cases left <;> cases right <;> simp_all [PropertySubject.rank, PropertySubject.id]

/-- Comparing subjects is comparing their `(variant, id)` pairs. -/
theorem compare_eq_pair (left right : PropertySubject) :
    compare left right = compare (left.rank, left.id) (right.rank, right.id) := rfl

/-- The order on subjects is the lexicographic order on their `(variant, id)` pairs. -/
instance : Std.TransOrd PropertySubject where
  eq_swap {left right} := by
    rw [compare_eq_pair, compare_eq_pair right]
    exact Std.OrientedOrd.eq_swap
  isLE_trans {first second third} before after := by
    rw [compare_eq_pair] at before after ⊢
    exact Std.TransOrd.isLE_trans before after

/-- Only equal subjects compare as equal. -/
instance : Std.LawfulEqOrd PropertySubject where
  compare_self {subject} := by
    rw [compare_eq_pair]
    exact Std.ReflOrd.compare_self
  eq_of_compare {left right} same := by
    rw [compare_eq_pair] at same
    have pair := Std.LawfulEqOrd.eq_of_compare same
    exact ext_rank (congrArg Prod.fst pair) (congrArg Prod.snd pair)

end PropertySubject

end Oxgraph
