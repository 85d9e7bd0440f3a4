import Oxgraph.Db.Query.Plan
import Oxgraph.Proofs.Db.Query.Where
import Oxgraph.Proofs.Db.Overlay.Lookup
import Oxgraph.Proofs.Db.Database.Reconcile

/-! Every plan of a `WHERE` query lists the elements that satisfy its predicate. -/

namespace Oxgraph

-- White space.

/-- White space alone ends a run and starts none. -/
theorem splitRuns_whitespace {run spaces : List Char} (blank : ∀ char ∈ spaces, isWhitespace char) :
    splitRuns run spaces = if run.isEmpty then [] else [run] := by
  induction spaces generalizing run with
  | nil => rfl
  | cons char rest ih =>
    have here := blank char List.mem_cons_self
    -- The first blank ends the run, and the rest starts from an empty one.
    have later := @ih [] fun other member => blank other (List.mem_cons_of_mem _ member)
    simp [splitRuns, here, later]

/-- White space at the end changes no run. -/
theorem splitRuns_append_whitespace {run text spaces : List Char}
    (blank : ∀ char ∈ spaces, isWhitespace char) :
    splitRuns run (text ++ spaces) = splitRuns run text := by
  induction text generalizing run with
  | nil => exact splitRuns_whitespace blank
  | cons char rest ih =>
    simp only [List.cons_append, splitRuns, ih]

/-- White space at the start changes no run. -/
theorem splitRuns_dropWhile (text : List Char) :
    splitRuns [] (text.dropWhile isWhitespace) = splitRuns [] text := by
  induction text with
  | nil => rfl
  | cons char rest ih =>
    by_cases blank : isWhitespace char
    · simp [blank, splitRuns, ih]
    · simp [blank]

/-- A trimmed text has the same tokens. -/
theorem splitWhitespace_trim (text : String) :
    splitWhitespace (trim text) = splitWhitespace text := by
  have ending (chars : List Char) : splitRuns [] (chars.reverse.dropWhile isWhitespace).reverse =
      splitRuns [] chars := by
    -- What stands past the kept characters is white space.
    have parts : chars = (chars.reverse.dropWhile isWhitespace).reverse ++
        (chars.reverse.takeWhile isWhitespace).reverse := by
      rw [← List.reverse_append, List.takeWhile_append_dropWhile, List.reverse_reverse]
    conv_rhs => rw [parts]
    refine (splitRuns_append_whitespace fun char member => ?_).symm
    exact List.all_eq_true.mp List.all_takeWhile char (List.mem_reverse.mp member)
  unfold splitWhitespace trim
  rw [String.toList_ofList, ending, splitRuns_dropWhile]

-- Predicates.

/-- An operator selects the orderings its relation has. -/
theorem matchesOrdering_iff (op : CompareOp) (actual literal : PropertyValue) :
    op.matchesOrdering (compare actual literal) ↔ op.Relates actual literal := by
  have equal : actual = literal ↔ compare actual literal = .eq :=
    Std.LawfulEqOrd.compare_eq_iff_eq.symm
  -- The source compares the actual value with the literal, so `>` reads the order backwards.
  have swapped : compare literal actual = .lt ↔ compare actual literal = .gt := by
    rw [Std.OrientedOrd.eq_swap (a := literal)]
    cases compare actual literal <;> simp
  unfold CompareOp.Relates
  rw [swapped, equal]
  cases op <;> simp [CompareOp.matchesOrdering]

/-- A comparison binds to the key of its name and the value of its literal. -/
theorem bindComparison_eq_ok {view : LayeredState} {key text : String} {keyId : PropertyKeyId}
    {value : PropertyValue} :
    bindComparison view key text = .ok (keyId, value) ↔
      view.catalog.propertyKeyId key = some keyId ∧ parseValueToken text = .ok value ∧
        view.validateLookupValueForFamily keyId .element value = .ok () := by
  unfold bindComparison
  split
  · rename_i absent
    simp [absent]
  · rename_i found present
    simp only [present, Option.some.injEq]
    constructor
    · -- Each check of the source in turn: the name, the literal, and its family and type.
      intro bound
      obtain ⟨literal, parsed, rest⟩ := bind_eq_ok.mp bound
      obtain ⟨valid, done⟩ := seq_eq_ok.mp rest
      cases done
      exact ⟨rfl, mapError_eq_ok.mp parsed, valid⟩
    · rintro ⟨rfl, parsed, valid⟩
      exact bind_eq_ok.mpr ⟨value, mapError_eq_ok.mpr parsed, seq_eq_ok.mpr ⟨valid, rfl⟩⟩

/-- A bound predicate evaluates to whether the element satisfies the tree it binds. -/
theorem evaluate_iff_satisfies {view : LayeredState} {tree : LogicalPredicate}
    {bound : BoundPredicate} (binds : bindPredicate view tree = .ok bound) (element : ElementId) :
    bound.evaluate view element ↔ tree.Satisfies view element := by
  induction tree generalizing bound with
  | compare key op text =>
    obtain ⟨⟨keyId, value⟩, resolved, done⟩ := bind_eq_ok.mp binds
    cases done
    obtain ⟨named, parsed, _⟩ := bindComparison_eq_ok.mp resolved
    unfold BoundPredicate.evaluate LogicalPredicate.Satisfies
    rw [Option.any_eq_true]
    constructor
    · rintro ⟨actual, carried, selected⟩
      exact ⟨keyId, value, actual, named, parsed, carried, (matchesOrdering_iff op _ _).mp selected⟩
    · rintro ⟨keyId', value', actual, named', parsed', carried, related⟩
      -- The name and the literal determine the key and the value.
      obtain rfl := Option.some.inj (named.symm.trans named')
      obtain rfl := Except.ok.inj (parsed.symm.trans parsed')
      exact ⟨actual, carried, (matchesOrdering_iff op _ _).mpr related⟩
  | and left right first second =>
    obtain ⟨left, bindsLeft, rest⟩ := bind_eq_ok.mp binds
    obtain ⟨right, bindsRight, done⟩ := bind_eq_ok.mp rest
    cases done
    unfold BoundPredicate.evaluate LogicalPredicate.Satisfies
    rw [Bool.and_eq_true, first bindsLeft, second bindsRight]
  | or left right first second =>
    obtain ⟨left, bindsLeft, rest⟩ := bind_eq_ok.mp binds
    obtain ⟨right, bindsRight, done⟩ := bind_eq_ok.mp rest
    cases done
    unfold BoundPredicate.evaluate LogicalPredicate.Satisfies
    rw [Bool.or_eq_true, first bindsLeft, second bindsRight]

section Plans

variable {view : LayeredState}

/-- The filtering plan lists the visible elements on which its predicate evaluates to true. -/
theorem filterElements_spec (coherent : view.Coherent) (bound : BoundPredicate) :
    ∃ ids : List ElementId,
      filterElements view bound = { rows := ids.map fun id => .single (.element id) } ∧
      Ascending ids ∧ ∀ id, id ∈ ids ↔ (view.element id).isSome ∧ bound.evaluate view id := by
  obtain ⟨members, sorted⟩ := elements_spec coherent
  refine ⟨(view.elements.filter fun record => bound.evaluate view record.id).map ElementRecord.id,
    ?_, ascending_map_filter sorted _, fun id => ?_⟩
  · rw [List.map_map]
    rfl
  · simp only [List.mem_map, List.mem_filter, members]
    constructor
    · rintro ⟨record, ⟨visible, satisfied⟩, rfl⟩
      exact ⟨by rw [visible]; rfl, satisfied⟩
    · rintro ⟨visible, satisfied⟩
      obtain ⟨record, found⟩ := Option.isSome_iff_exists.mp visible
      -- A record is stored under its own id.
      obtain rfl := coherent.keyed.element found
      exact ⟨record, ⟨found, satisfied⟩, rfl⟩

/-- The element behind a subject, if it is one. -/
def PropertySubject.asElement : PropertySubject → Option ElementId
  | .element id => some id
  | .relation _ | .incidence _ => none

/-- The elements among ascending subjects ascend. -/
theorem ascending_asElement {subjects : List PropertySubject} (sorted : Ascending subjects) :
    Ascending (subjects.filterMap PropertySubject.asElement) := by
  refine List.Pairwise.filterMap _ ?_ sorted
  intro before after order first isFirst second isSecond
  cases before <;> cases isFirst
  cases after <;> cases isSecond
  -- Elements share one rank, so they compare as their ids.
  simpa [PropertySubject.compare_eq_pair, compare_pair, PropertySubject.rank,
    PropertySubject.id] using order

/-- On one equality the indexed plan answers as the filtering plan. -/
theorem scanElementsWithProperty_eq_filter (sound : view.Sound) {key : String}
    {keyId : PropertyKeyId} {value : PropertyValue}
    (valid : view.validateLookupValueForFamily keyId .element value = .ok ()) :
    scanElementsWithProperty view keyId value =
      .ok (filterElements view (.compare key keyId .eq value)) := by
  obtain ⟨ids, rows, sorted, listed⟩ :=
    filterElements_spec sound.coherent (.compare key keyId .eq value)
  have posted := mem_propertyEqual sound.coherent sound.represents keyId value
  have order : Ascending (view.propertyEqual keyId value) := ascending_mergePosting _ _ _
  have same : (view.propertyEqual keyId value).filterMap PropertySubject.asElement = ids := by
    -- Both lists ascend, so they are one list when they have the same items.
    refine (ascending_asElement order).ext sorted fun id => ?_
    have carries : id ∈ (view.propertyEqual keyId value).filterMap PropertySubject.asElement ↔
        view.property (.element id) keyId = some value := by
      rw [List.mem_filterMap]
      constructor
      · rintro ⟨subject, member, isElement⟩
        cases subject <;> cases isElement
        exact (posted _).mp member
      · intro carried
        exact ⟨.element id, (posted _).mpr carried, rfl⟩
    rw [carries, listed]
    unfold BoundPredicate.evaluate
    rw [Option.any_eq_true]
    constructor
    · intro carried
      -- Whoever carries a property is visible.
      refine ⟨(sound.integrity.property carried).1, value, carried, ?_⟩
      exact (matchesOrdering_iff .eq _ _).mpr rfl
    · rintro ⟨_, actual, carried, selected⟩
      have equal : actual = value := (matchesOrdering_iff .eq _ _).mp selected
      rw [carried, equal]
  unfold scanElementsWithProperty LayeredState.typedPropertyEqualForFamily
  rw [valid, rows, ← same, List.map_filterMap]
  refine congrArg (fun rows => Except.ok (QueryResult.mk rows)) ?_
  refine List.filterMap_congr fun subject _ => ?_
  cases subject <;> rfl

/-- A `WHERE` query prepares to a plan that lists the elements satisfying its one tree. -/
theorem execute_operation (sound : view.Sound) {tree : LogicalPredicate} {plan : QueryPlan}
    (lowers : bindAndLower view tree.operation = .ok plan) :
    ∃ ids : List ElementId,
      plan.execute view = pure { rows := ids.map fun id => .single (.element id) } ∧
      Ascending ids ∧
      ∀ id, id ∈ ids ↔ (view.element id).isSome ∧ tree.Satisfies view id := by
  -- Either plan answers as the filter of the bound tree.
  have filtered : ∃ bound, bindPredicate view tree = .ok bound ∧
      plan.execute view = pure (filterElements view bound) := by
    have general (predicate : LogicalPredicate)
        (lowered : bindAndLower view (.elementWhere predicate) = .ok plan) :
        ∃ bound, bindPredicate view predicate = .ok bound ∧
          plan.execute view = pure (filterElements view bound) := by
      obtain ⟨bound, binds, done⟩ := bind_eq_ok.mp lowered
      cases done
      exact ⟨bound, binds, rfl⟩
    cases tree with
    | compare key op text =>
      cases op with
      -- One equality is the only shape that takes the index.
      | eq =>
        obtain ⟨⟨keyId, value⟩, resolved, done⟩ := bind_eq_ok.mp lowers
        cases done
        refine ⟨.compare key keyId .eq value, bind_eq_ok.mpr ⟨_, resolved, rfl⟩, ?_⟩
        have valid := (bindComparison_eq_ok.mp resolved).2.2
        show Fallible.ofResult (scanElementsWithProperty view keyId value) = _
        rw [scanElementsWithProperty_eq_filter sound valid]
        rfl
      | lt | le | gt | ge => exact general _ lowers
    | and | or => exact general _ lowers
  obtain ⟨bound, binds, executes⟩ := filtered
  obtain ⟨ids, rows, sorted, listed⟩ := filterElements_spec sound.coherent bound
  refine ⟨ids, by rw [executes, rows], sorted, fun id => ?_⟩
  rw [listed, evaluate_iff_satisfies binds]

/-- A `WHERE` query prepares exactly to the lowered plan of a tree its tokens derive. -/
theorem prepare_where_eq_ok {query : String} {prepared : PreparedQuery}
    (starts : ((splitWhitespace query).map toAsciiUppercase).take 3 =
      ["MATCH", "ELEMENTS", "WHERE"]) :
    PreparedQuery.prepare view query = .ok prepared ↔
      ∃ tree plan, Derives .or ((splitWhitespace query).drop 3) tree ∧
        bindAndLower view tree.operation = .ok plan ∧ prepared = ⟨trim query, plan⟩ := by
  -- A query with a first token is not blank.
  have blank : trim query ≠ "" := by
    intro empty
    rw [← splitWhitespace_trim, empty] at starts
    cases starts
  have parsed (op : LogicalOp) : parseOxql (trim query) = .ok op ↔
      ∃ tree, Derives .or ((splitWhitespace query).drop 3) tree ∧ tree.operation = op := by
    unfold parseOxql
    dsimp only
    rw [splitWhitespace_trim, if_pos starts, ← List.map_drop]
    exact parseElementWhere_eq_ok
  unfold PreparedQuery.prepare
  dsimp only
  rw [if_neg blank, bind_eq_ok]
  -- What is left is to split the preparation into its parse and its binding.
  simp only [parsed]
  constructor
  · rintro ⟨_, ⟨tree, derived, rfl⟩, rest⟩
    obtain ⟨plan, lowers, done⟩ := bind_eq_ok.mp rest
    cases done
    exact ⟨tree, plan, derived, lowers, rfl⟩
  · rintro ⟨tree, plan, derived, lowers, rfl⟩
    exact ⟨_, ⟨tree, derived, rfl⟩, bind_eq_ok.mpr ⟨plan, lowers, rfl⟩⟩

/--
A `WHERE` query that prepares lists exactly the visible elements satisfying its predicate, in
ascending id order, and on one equality the indexed plan agrees with the filtering plan.
-/
theorem where_query_lists (sound : view.Sound) :
    (∀ (query : String) (prepared : PreparedQuery),
      ((splitWhitespace query).map toAsciiUppercase).take 3 = ["MATCH", "ELEMENTS", "WHERE"] →
      PreparedQuery.prepare view query = .ok prepared →
        ∃ (tree : LogicalPredicate) (ids : List ElementId),
          Derives .or ((splitWhitespace query).drop 3) tree ∧
          prepared.execute view = pure { rows := ids.map fun id => .single (.element id) } ∧
          Ascending ids ∧
          ∀ id, id ∈ ids ↔ (view.element id).isSome ∧ tree.Satisfies view id) ∧
    ∀ (key : String) (keyId : PropertyKeyId) (value : PropertyValue),
      view.validateLookupValueForFamily keyId .element value = .ok () →
        scanElementsWithProperty view keyId value =
          .ok (filterElements view (.compare key keyId .eq value)) := by
  refine ⟨?_, fun key keyId value valid => scanElementsWithProperty_eq_filter sound valid⟩
  intro query prepared starts prepares
  obtain ⟨tree, plan, derived, lowers, rfl⟩ := (prepare_where_eq_ok starts).mp prepares
  obtain ⟨ids, executes, sorted, listed⟩ := execute_operation sound lowers
  exact ⟨tree, ids, derived, executes, sorted, listed⟩

/-- A range query over the one element of an indexed store prepares, and lists that element. -/
theorem where_query_lists_size : ∃ (prepared : PreparedQuery) (ids : List ElementId),
    PreparedQuery.prepare Writer.indexedWriter.merged "match elements where ( size >= 5 )" =
      .ok prepared ∧
    prepared.execute Writer.indexedWriter.merged =
      pure { rows := ids.map fun id => .single (.element id) } ∧ (1 : ElementId) ∈ ids := by
  have derived : Derives .or ["(", "size", ">=", "5", ")"] (.compare "size" .ge "5") :=
    .conjunction (.factor (.group (.conjunction (.factor
      (.comparison .ge "5" (show "size" ≠ "(" by decide))))))
  have prepares : PreparedQuery.prepare Writer.indexedWriter.merged
      "match elements where ( size >= 5 )" = .ok ⟨"match elements where ( size >= 5 )",
        .elementFilter (.compare "size" 1 .ge (.integer 5))⟩ :=
    (prepare_where_eq_ok (by decide)).mpr ⟨_, _, derived, rfl, rfl⟩
  obtain ⟨lists, _⟩ := where_query_lists Writer.indexedWriter_sound
  obtain ⟨tree, ids, derived', executes, _, listed⟩ := lists _ _ (by decide) prepares
  -- The tree that the query lists is the one derived here.
  obtain rfl := derives_unique derived derived'
  refine ⟨_, ids, prepares, executes, (listed 1).mpr ⟨rfl, ?_⟩⟩
  exact ⟨1, .integer 5, .integer 7, rfl, rfl, rfl, .inl rfl⟩

end Plans

end Oxgraph
