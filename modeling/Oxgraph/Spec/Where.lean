import Oxgraph.Db.Query.Where

/-! The grammar of a `WHERE` predicate, the operation a tree stands for, and how a tree prints. -/

namespace Oxgraph

/-- The nonterminals of the grammar, the loosest first. -/
inductive Nonterminal where
  | or | and | factor
  deriving DecidableEq, Repr

/--
`Derives level tokens tree`: the tokens are derivable from the nonterminal, and read as the tree.

    or     := and ( OR and )*
    and    := factor ( AND factor )*
    factor := "(" or ")" | key op value

A repetition reads to the left: each further operand takes all that stands before it.
-/
inductive Derives : Nonterminal → List String → LogicalPredicate → Prop
  | conjunction {tokens tree} (whole : Derives .and tokens tree) : Derives .or tokens tree
  | or {left keyword right first second} (before : Derives .or left first)
      (spelled : toAsciiUppercase keyword = "OR") (after : Derives .and right second) :
      Derives .or (left ++ keyword :: right) (.or first second)
  | factor {tokens tree} (whole : Derives .factor tokens tree) : Derives .and tokens tree
  | and {left keyword right first second} (before : Derives .and left first)
      (spelled : toAsciiUppercase keyword = "AND") (after : Derives .factor right second) :
      Derives .and (left ++ keyword :: right) (.and first second)
  | group {tokens tree} (inner : Derives .or tokens tree) :
      Derives .factor ("(" :: (tokens ++ [")"])) tree
  | comparison {key : String} (op : CompareOp) (value : String) (bare : key ≠ "(") :
      Derives .factor [key, op.spelling, value] (.compare key op value)

namespace LogicalPredicate

/-- The operation a whole predicate stands for: one equality is an equality lookup. -/
def operation : LogicalPredicate → LogicalOp
  | .compare key .eq value => .elementPropertyEqual key value
  | tree => .elementWhere tree

/-- The tokens of a tree, with parentheses around every operand. -/
def printed : LogicalPredicate → List String
  | .compare key op value => [key, op.spelling, value]
  | .and left right => "(" :: (left.printed ++ [")"]) ++ "AND" :: "(" :: (right.printed ++ [")"])
  | .or left right => "(" :: (left.printed ++ [")"]) ++ "OR" :: "(" :: (right.printed ++ [")"])

/-- Whether every key differs from the opening parenthesis. -/
def Bare : LogicalPredicate → Prop
  | .compare key _ _ => key ≠ "("
  | .and left right => left.Bare ∧ right.Bare
  | .or left right => left.Bare ∧ right.Bare

instance decidableBare : (tree : LogicalPredicate) → Decidable tree.Bare
  | .compare key _ _ => inferInstanceAs (Decidable (key ≠ "("))
  | .and left right =>
    have := decidableBare left
    have := decidableBare right
    inferInstanceAs (Decidable (left.Bare ∧ right.Bare))
  | .or left right =>
    have := decidableBare left
    have := decidableBare right
    inferInstanceAs (Decidable (left.Bare ∧ right.Bare))

/-- The tree behind an operation on elements that satisfy a predicate. -/
def ofOperation : LogicalOp → Option LogicalPredicate
  | .elementPropertyEqual key value => some (.compare key .eq value)
  | .elementWhere tree => some tree
  | _ => none

/-- The operation of a tree keeps the tree. -/
theorem ofOperation_operation (tree : LogicalPredicate) :
    ofOperation tree.operation = some tree := by
  cases tree with
  | compare key op value => cases op <;> rfl
  | and | or => rfl

/-- A tree is known from its operation. -/
theorem operation_injective {first second : LogicalPredicate}
    (same : first.operation = second.operation) : first = second := by
  have trees := congrArg ofOperation same
  simpa only [ofOperation_operation, Option.some.injEq] using trees

end LogicalPredicate

-- What a predicate means.

/-- The relation an operator stands for, between a carried value and a literal. -/
def CompareOp.Relates (actual literal : PropertyValue) : CompareOp → Prop
  | .eq => actual = literal
  | .lt => compare actual literal = .lt
  | .le => compare actual literal = .lt ∨ actual = literal
  | .gt => compare literal actual = .lt
  | .ge => compare literal actual = .lt ∨ actual = literal

/-- Whether an element's visible properties satisfy a predicate. -/
def LogicalPredicate.Satisfies (view : LayeredState) (element : ElementId) :
    LogicalPredicate → Prop
  | .compare key op value => ∃ keyId literal actual,
      view.catalog.propertyKeyId key = some keyId ∧ parseValueToken value = .ok literal ∧
        view.property (.element element) keyId = some actual ∧ op.Relates actual literal
  | .and left right => left.Satisfies view element ∧ right.Satisfies view element
  | .or left right => left.Satisfies view element ∨ right.Satisfies view element

-- What is derivable.

/-- No key of a derivable predicate is an opening parenthesis. -/
theorem Derives.bare {level : Nonterminal} {tokens : List String} {tree : LogicalPredicate}
    (derived : Derives level tokens tree) : tree.Bare := by
  induction derived with
  | conjunction _ ih | factor _ ih | group _ ih => exact ih
  | or _ _ _ first second | and _ _ _ first second => exact ⟨first, second⟩
  | comparison op value bare => exact bare

/-- A printed tree derives the tree, when no key is an opening parenthesis. -/
theorem derives_printed {tree : LogicalPredicate} (bare : tree.Bare) :
    Derives .or tree.printed tree := by
  induction tree with
  | compare key op value => exact .conjunction (.factor (.comparison op value bare))
  | and left right first second =>
    -- Each operand is a group, so both are factors.
    have before := Derives.group (first bare.1)
    have after := Derives.group (second bare.2)
    exact .conjunction (.and (.factor before) (by decide) after)
  | or left right first second =>
    have before := Derives.group (first bare.1)
    have after := Derives.group (second bare.2)
    exact .or (.conjunction (.factor before)) (by decide) (.factor after)

end Oxgraph
