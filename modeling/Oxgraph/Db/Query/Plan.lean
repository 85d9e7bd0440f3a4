import Oxgraph.Db.Query.Where

/-! Query preparation and execution: text to logical operation to bound plan to rows. -/

namespace Oxgraph

/-- Query output value. -/
inductive QueryValue where
  | element (id : ElementId)
  | relation (id : RelationId)
  | incidence (record : IncidenceRecord)
  | subject (subject : PropertySubject)
  | property (value : PropertyValue)
  | text (text : String)
  | projection (id : ProjectionId)
  deriving DecidableEq

/-- One query result row. -/
structure QueryRow where
  values : List QueryValue
  deriving DecidableEq

/-- Query execution result. -/
structure QueryResult where
  rows : List QueryRow
  deriving DecidableEq

/-- A row of one value. -/
def QueryRow.single (value : QueryValue) : QueryRow := { values := [value] }

/-- Bound predicate tree, ready to evaluate against element properties. -/
inductive BoundPredicate where
  | compare (key : String) (keyId : PropertyKeyId) (op : CompareOp) (value : PropertyValue)
  | and (left right : BoundPredicate)
  | or (left right : BoundPredicate)

/-- Bound physical query plan. -/
inductive QueryPlan where
  | elementScan
  | relationScan
  | incidenceScan
  | elementLabelScan (label : String) (labelId : LabelId)
  | elementPropertyEqual (key : String) (keyId : PropertyKeyId) (value : PropertyValue)
  | elementFilter (predicate : BoundPredicate)
  | relationTypeScan (relationType : String) (relationTypeId : RelationTypeId)
  | graphWalk (projection : ProjectionId) (element : ElementId) (options : Walk)
  | catalogScan

/-- Prepared query: its trimmed text, and its plan. -/
structure PreparedQuery where
  text : String
  plan : QueryPlan

-- Parsing.

/-- Parses a walk direction. -/
def parseWalkDirection (direction : String) : Except DbError Direction :=
  if direction = "OUTGOING" then .ok .outgoing
  else if direction = "INCOMING" then .ok .incoming
  else if direction = "BOTH" then .ok .both
  else .error (.unsupported "walk direction must be outgoing, incoming, or both")

/-- The options of a walk and which of them have been given. -/
structure WalkOptions where
  options : Walk
  sawDirection : Bool
  sawLimit : Bool

/-- Parses the options of a walk, each a keyword in upper case and a value. -/
def parseWalkOptions : List (String × String) → WalkOptions → Except DbError Walk
  | [], state => .ok state.options
  | [_], _ => .error (.unsupported "walk option requires a value")
  | (_, option) :: (value, upperValue) :: rest, state =>
    if option = "DIRECTION" then
      if state.sawDirection then .error (.unsupported "walk direction specified twice")
      else do
        let direction ← parseWalkDirection upperValue
        parseWalkOptions rest
          { state with options := { state.options with direction }, sawDirection := true }
    else if option = "LIMIT" then
      if state.sawLimit then .error (.unsupported "walk limit specified twice")
      else
        match parseUnsigned usizeBound value with
        | none => .error (.unsupported "walk limit must be an integer")
        | some limit =>
          parseWalkOptions rest
            { state with options := { state.options with limit }, sawLimit := true }
    else .error (.unsupported "unsupported walk option")

/-- Parses a graph walk, whose fixed tokens have been recognized. -/
def parseGraphWalk (projection element depth : String) (options : List (String × String)) :
    Except DbError LogicalOp :=
  match parseUnsigned usizeBound depth with
  | none => .error (.unsupported "walk depth must be an integer")
  | some maxDepth => do
    let options ← parseWalkOptions options
      { options := { Walk.default with maxDepth }, sawDirection := false, sawLimit := false }
    return .graphWalk projection element options

/-- Parses a query into a logical operation; keywords match in any ASCII case. -/
def parseOxql (query : String) : Except DbError LogicalOp :=
  let tokens := splitWhitespace query
  let upper := tokens.map toAsciiUppercase
  if upper.take 3 = ["MATCH", "ELEMENTS", "WHERE"] then
    parseElementWhere (tokens.drop 3) (upper.drop 3)
  else
    match tokens.zip upper with
    | [(_, command)] =>
      if command = "CATALOG" then .ok .catalogScan
      else .error (.unsupported "unsupported OxQL profile query")
    | [(_, verb), (_, family)] =>
      if verb = "MATCH" ∧ family = "ELEMENTS" then .ok .elementScan
      else if verb = "MATCH" ∧ family = "RELATIONS" then .ok .relationScan
      else if verb = "MATCH" ∧ family = "INCIDENCES" then .ok .incidenceScan
      else .error (.unsupported "unsupported OxQL profile query")
    | [(_, verb), (_, family), (_, has), (_, object), (name, _)] =>
      if verb = "MATCH" ∧ family = "ELEMENTS" ∧ has = "HAS" ∧ object = "LABEL" then
        .ok (.elementLabelScan name)
      else .error (.unsupported "unsupported OxQL profile query")
    | [(_, first), (second, middle), (_, third), (fourth, _)] =>
      if first = "MATCH" ∧ middle = "RELATIONS" ∧ third = "TYPE" then
        .ok (.relationTypeScan fourth)
      else if first = "GRAPH" ∧ third = "NEIGHBORS" then
        .ok (.graphWalk second fourth .default)
      else .error (.unsupported "unsupported OxQL profile query")
    | (_, graph) :: (projection, _) :: (_, walk) :: (_, origin) :: (element, _) :: (_, depth) ::
        (maxDepth, _) :: options =>
      if graph = "GRAPH" ∧ walk = "WALK" ∧ origin = "FROM" ∧ depth = "DEPTH" then
        parseGraphWalk projection element maxDepth options
      else .error (.unsupported "unsupported OxQL profile query")
    | _ => .error (.unsupported "unsupported OxQL profile query")

-- Binding.

variable (view : LayeredState)

/-- Resolves a comparison's key by name, and parses and validates its value. -/
def bindComparison (key value : String) :
    Except DbError (PropertyKeyId × PropertyValue) :=
  match view.catalog.propertyKeyId key with
  | none => .error (.unsupported s!"unknown property key {key}")
  | some keyId => do
    let value ← (parseValueToken value).mapError .unsupported
    view.validateLookupValueForFamily keyId .element value
    return (keyId, value)

/-- Binds a logical predicate tree. -/
def bindPredicate (view : LayeredState) : LogicalPredicate → Except DbError BoundPredicate
  | .compare key op value => do
    let (keyId, value) ← bindComparison view key value
    return .compare key keyId op value
  | .and left right => do
    let left ← bindPredicate view left
    let right ← bindPredicate view right
    return .and left right
  | .or left right => do
    let left ← bindPredicate view left
    let right ← bindPredicate view right
    return .or left right

/-- Binds and lowers a graph walk. -/
def lowerGraphWalk (projection element : String) (options : Walk) :
    Except DbError QueryPlan :=
  match view.catalog.projectionId projection with
  | none => .error (.unsupported s!"unknown projection {projection}")
  | some projection =>
    match view.catalog.projection projection with
    | none => .error (.unknown .projection projection)
    | some entry =>
      match entry.definition with
      | .hypergraph _ => .error (.invalidProjection "projection is not a graph")
      | .graph _ =>
        match parseUnsigned UInt64.size element with
        | none => .error (.unsupported "element id must be an integer")
        | some raw => .ok (.graphWalk projection (.ofNat raw) options)

/-- Binds a logical operation against the catalog and lowers it to a physical plan. -/
def bindAndLower : LogicalOp → Except DbError QueryPlan
  | .elementScan => .ok .elementScan
  | .relationScan => .ok .relationScan
  | .incidenceScan => .ok .incidenceScan
  | .catalogScan => .ok .catalogScan
  | .elementLabelScan label =>
    match view.catalog.labelId label with
    | none => .error (.unsupported s!"unknown label {label}")
    | some labelId => .ok (.elementLabelScan label labelId)
  | .relationTypeScan relationType =>
    match view.catalog.relationTypeId relationType with
    | none => .error (.unsupported s!"unknown relation type {relationType}")
    | some relationTypeId => .ok (.relationTypeScan relationType relationTypeId)
  | .elementPropertyEqual key value => do
    let (keyId, value) ← bindComparison view key value
    return .elementPropertyEqual key keyId value
  | .graphWalk projection element options => lowerGraphWalk view projection element options
  | .elementWhere predicate => do
    let predicate ← bindPredicate view predicate
    return .elementFilter predicate

/-- Prepares a query against the current catalog. -/
def PreparedQuery.prepare (query : String) :
    Except DbError PreparedQuery :=
  let trimmed := trim query
  if trimmed = "" then .error (.query .empty)
  else do
    let logical ← parseOxql trimmed
    let plan ← bindAndLower view logical
    return { text := trimmed, plan }

-- Execution.

/-- Evaluates a predicate against one element's properties. -/
def BoundPredicate.evaluate (view : LayeredState) (element : ElementId) : BoundPredicate → Bool
  | .compare _ keyId op value =>
    (view.property (.element element) keyId).any fun actual =>
      op.matchesOrdering (Ord.compare actual value)
  | .and left right => left.evaluate view element && right.evaluate view element
  | .or left right => left.evaluate view element || right.evaluate view element

/-- The elements whose property equals a value, by the equality lookup. -/
def scanElementsWithProperty (key : PropertyKeyId)
    (value : PropertyValue) : Except DbError QueryResult := do
  let subjects ← view.typedPropertyEqualForFamily key .element value
  return { rows := subjects.filterMap fun subject =>
    match subject with
    | .element id => some (.single (.element id))
    | .relation _ | .incidence _ => none }

/-- The elements that satisfy a bound predicate. -/
def filterElements (predicate : BoundPredicate) : QueryResult :=
  { rows := (view.elements.filter fun record => predicate.evaluate view record.id).map
      fun record => .single (.element record.id) }

/-- The projections of the catalog, with their names. -/
def scanCatalog : QueryResult :=
  { rows := view.catalog.projections.entries.toList.map fun entry =>
      { values := [.projection entry.2.id, .text entry.2.definition.name] } }

/-- Materializes the graph projection of an ID. -/
def graphProjection (projection : ProjectionId) :
    Fallible DbError GraphProjection :=
  match view.catalog.projection projection with
  | none => throw (.unknown .projection projection)
  | some entry =>
    match entry.definition with
    | .graph definition => GraphProjection.fromState view definition
    | .hypergraph _ => throw (.invalidProjection "projection is not a graph")

/-- The elements that a walk from one element lists. -/
def executeGraphWalk (projection : ProjectionId) (element : ElementId)
    (options : Walk) : Fallible DbError QueryResult := do
  let graph ← graphProjection view projection
  let subgraph ← graph.walkGraphProjection [element] options
  return { rows := subgraph.nodes.map fun node => .single (.element node.element) }

/-- Executes a plan against a merged view. -/
def QueryPlan.execute : QueryPlan → Fallible DbError QueryResult
  | .elementScan =>
    return { rows := view.elements.map fun record => .single (.element record.id) }
  | .relationScan =>
    return { rows := view.relations.map fun record => .single (.relation record.id) }
  | .incidenceScan =>
    return { rows := view.incidences.map fun record => .single (.incidence record) }
  | .elementLabelScan _ labelId =>
    return { rows := (view.elementsWithLabel labelId).map fun id => .single (.element id) }
  | .elementPropertyEqual _ keyId value => .ofResult (scanElementsWithProperty view keyId value)
  | .elementFilter predicate => return filterElements view predicate
  | .relationTypeScan _ relationTypeId =>
    return { rows := (view.relationsWithType relationTypeId).map fun id => .single (.relation id) }
  | .graphWalk projection element options => executeGraphWalk view projection element options
  | .catalogScan => return scanCatalog view

/-- Executes a prepared query against a merged view. -/
def PreparedQuery.execute (prepared : PreparedQuery) :
    Fallible DbError QueryResult :=
  prepared.plan.execute view

end Oxgraph
