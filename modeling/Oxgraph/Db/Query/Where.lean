import Oxgraph.Db.Query.Token
import Oxgraph.Db.Traversal

/-! The logical query tree, and the recursive-descent parser of its `WHERE` predicates. -/

namespace Oxgraph

/-- Comparison operators a predicate supports. -/
inductive CompareOp where
  | eq | lt | le | gt | ge
  deriving DecidableEq, Repr

/-- Whether an ordering of an actual value against a literal satisfies the operator. -/
def CompareOp.matchesOrdering : CompareOp → Ordering → Bool
  | .eq, ordering => ordering = .eq
  | .lt, ordering => ordering = .lt
  | .le, ordering => ordering = .lt || ordering = .eq
  | .gt, ordering => ordering = .gt
  | .ge, ordering => ordering = .gt || ordering = .eq

/-- The operator's token. -/
def CompareOp.spelling : CompareOp → String
  | .eq => "="
  | .lt => "<"
  | .le => "<="
  | .gt => ">"
  | .ge => ">="

/-- Boolean predicate tree over property comparisons. -/
inductive LogicalPredicate where
  | compare (key : String) (op : CompareOp) (value : String)
  | and (left right : LogicalPredicate)
  | or (left right : LogicalPredicate)
  deriving DecidableEq, Repr

/-- Logical query operation, before names are bound. -/
inductive LogicalOp where
  | elementScan
  | relationScan
  | incidenceScan
  | catalogScan
  | elementLabelScan (label : String)
  | relationTypeScan (relationType : String)
  | elementPropertyEqual (key value : String)
  | graphWalk (projection element : String) (options : Walk)
  | elementWhere (predicate : LogicalPredicate)
  deriving DecidableEq, Repr

/-- A predicate parsed from a position on, and the cursor past it. -/
structure ParsedPredicate (start : Nat) where
  predicate : LogicalPredicate
  cursor : Nat
  advanced : start < cursor

/-- An advanced cursor leaves no more tokens, and a call of lower rank then makes progress. -/
theorem lex_of_advanced {bound start next low high : Nat} (advanced : start < next)
    (lower : low < high) : Prod.Lex (· < ·) (· < ·) (bound - next, low) (bound - start, high) := by
  rcases Nat.lt_or_ge start bound with inside | outside
  · exact Prod.Lex.left _ _ (by omega)
  · have same : bound - next = bound - start := by omega
    rw [same]
    exact Prod.Lex.right _ lower

-- A comparison takes three tokens.
theorem cursor_lt_advanced (cursor : Nat) : cursor < cursor + 3 := by
  omega

/-- Parses a comparison operator. -/
def parseCompareOp (token : String) : Except DbError CompareOp :=
  if token = "=" then .ok .eq
  else if token = "<" then .ok .lt
  else if token = "<=" then .ok .le
  else if token = ">" then .ok .gt
  else if token = ">=" then .ok .ge
  else .error (.unsupported "comparison operator must be =, <, <=, >, or >=")

section Parse

variable (tokens upper : List String)

/-- Parses a key, an operator and a value. -/
def parseComparison (cursor : Nat) : Except DbError (ParsedPredicate cursor) :=
  match tokens[cursor]? with
  | none => .error (.unsupported "expected property key in WHERE predicate")
  | some key =>
    match tokens[cursor + 1]? with
    | none => .error (.unsupported "expected comparison operator in WHERE predicate")
    | some operator =>
      match tokens[cursor + 2]? with
      | none => .error (.unsupported "expected value in WHERE predicate")
      | some value => do
        let op ← parseCompareOp operator
        return ⟨.compare key op value, cursor + 3, cursor_lt_advanced cursor⟩

mutual

/-- Parses an `OR` chain of conjunctions. -/
def parsePredicateOr (cursor : Nat) : Except DbError (ParsedPredicate cursor) := do
  let left ← parsePredicateAnd cursor
  parseOrs left
termination_by (tokens.length + upper.length - cursor, 4)
decreasing_by
  · exact Prod.Lex.right _ (by omega)
  · exact lex_of_advanced left.advanced (by omega)

/-- Extends a disjunction while an `OR` follows. -/
def parseOrs {start : Nat} (left : ParsedPredicate start) :
    Except DbError (ParsedPredicate start) :=
  if _ : upper[left.cursor]? = some "OR" then do
    let right ← parsePredicateAnd (left.cursor + 1)
    parseOrs ⟨.or left.predicate right.predicate, right.cursor,
      Nat.lt_trans left.advanced (Nat.lt_trans (Nat.lt_succ_self _) right.advanced)⟩
  else .ok left
termination_by (tokens.length + upper.length - left.cursor, 0)
decreasing_by
  · obtain ⟨inside, _⟩ := List.getElem?_eq_some_iff.mp ‹upper[left.cursor]? = some "OR"›
    exact Prod.Lex.left _ _ (by omega)
  · obtain ⟨inside, _⟩ := List.getElem?_eq_some_iff.mp ‹upper[left.cursor]? = some "OR"›
    have advanced := right.advanced
    exact Prod.Lex.left _ _ (by omega)

/-- Parses an `AND` chain of factors. -/
def parsePredicateAnd (cursor : Nat) : Except DbError (ParsedPredicate cursor) := do
  let left ← parsePredicateFactor cursor
  parseAnds left
termination_by (tokens.length + upper.length - cursor, 3)
decreasing_by
  · exact Prod.Lex.right _ (by omega)
  · exact lex_of_advanced left.advanced (by omega)

/-- Extends a conjunction while an `AND` follows. -/
def parseAnds {start : Nat} (left : ParsedPredicate start) :
    Except DbError (ParsedPredicate start) :=
  if _ : upper[left.cursor]? = some "AND" then do
    let right ← parsePredicateFactor (left.cursor + 1)
    parseAnds ⟨.and left.predicate right.predicate, right.cursor,
      Nat.lt_trans left.advanced (Nat.lt_trans (Nat.lt_succ_self _) right.advanced)⟩
  else .ok left
termination_by (tokens.length + upper.length - left.cursor, 0)
decreasing_by
  · obtain ⟨inside, _⟩ := List.getElem?_eq_some_iff.mp ‹upper[left.cursor]? = some "AND"›
    exact Prod.Lex.left _ _ (by omega)
  · obtain ⟨inside, _⟩ := List.getElem?_eq_some_iff.mp ‹upper[left.cursor]? = some "AND"›
    have advanced := right.advanced
    exact Prod.Lex.left _ _ (by omega)

/-- Parses a parenthesized predicate, or a comparison. -/
def parsePredicateFactor (cursor : Nat) : Except DbError (ParsedPredicate cursor) :=
  if opening : tokens[cursor]? = some "(" then do
    let inner ← parsePredicateOr (cursor + 1)
    if tokens[inner.cursor]? ≠ some ")" then
      .error (.unsupported "unbalanced parentheses in WHERE predicate")
    else
      return ⟨inner.predicate, inner.cursor + 1, by have := inner.advanced; omega⟩
  else parseComparison tokens cursor
termination_by (tokens.length + upper.length - cursor, 2)
decreasing_by
  obtain ⟨inside, _⟩ := List.getElem?_eq_some_iff.mp opening
  exact Prod.Lex.left _ _ (by omega)

end

/-- Parses a whole `WHERE` predicate; a single equality is an equality lookup. -/
def parseElementWhere : Except DbError LogicalOp := do
  let parsed ← parsePredicateOr tokens upper 0
  if parsed.cursor ≠ tokens.length then
    .error (.unsupported "trailing tokens after WHERE predicate")
  else
    match parsed.predicate with
    | .compare key .eq value => return .elementPropertyEqual key value
    | predicate => return .elementWhere predicate

end Parse

end Oxgraph
