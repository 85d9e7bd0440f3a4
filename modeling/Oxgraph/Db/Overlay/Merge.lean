import Oxgraph.Db.Overlay.Frozen

/-! The merged read surface: an overlay layered over base records. -/

namespace Oxgraph

/-- A merged read view: an overlay layered over base records. -/
structure LayeredState where
  base : BaseRecords
  overlay : Overlay

/-- The merged view of a snapshot. -/
def Snapshot.view (snapshot : Snapshot) : LayeredState := ⟨snapshot.baseRecords, snapshot.overlay⟩

namespace LayeredState

variable (view : LayeredState)

/-- The visible element of an id: the overlay's entry, else the base record. -/
def element (id : ElementId) : Option ElementRecord :=
  layered view.base.elements view.overlay.elements id

/-- The visible relation of an id. -/
def relation (id : RelationId) : Option RelationRecord :=
  layered view.base.relations view.overlay.relations id

/-- The visible incidence of an id. -/
def incidence (id : IncidenceId) : Option IncidenceRecord :=
  layered view.base.incidences view.overlay.incidences id

/-- The visible property value of a subject and key. -/
def property (subject : PropertySubject) (key : PropertyKeyId) :
    Option PropertyValue :=
  match nestedGet view.overlay.properties subject key with
  | some entry => entry
  | none => view.base.property subject key

def containsElement (id : ElementId) : Bool := (view.element id).isSome
def containsRelation (id : RelationId) : Bool := (view.relation id).isSome
def containsIncidence (id : IncidenceId) : Bool :=
  (view.incidence id).isSome

/-- Every visible element, in ascending id order. -/
def elements : List ElementRecord :=
  (mergeEntries (view.base.elements.toList.map fun entry => (entry.2.id, entry.2))
    view.overlay.elements.toList).map Prod.snd

/-- Every visible relation, in ascending id order. -/
def relations : List RelationRecord :=
  (mergeEntries (view.base.relations.toList.map fun entry => (entry.2.id, entry.2))
    view.overlay.relations.toList).map Prod.snd

/-- Every visible incidence, in ascending id order. -/
def incidences : List IncidenceRecord :=
  (mergeEntries (view.base.incidences.toList.map fun entry => (entry.2.id, entry.2))
    view.overlay.incidences.toList).map Prod.snd

/-- Every visible property, in ascending `(subject, key)` order. -/
def properties : List ((PropertySubject × PropertyKeyId) × PropertyValue) :=
  mergeEntries (nestedEntries view.base.properties) (nestedEntries view.overlay.properties)

/-- Every visible property of a subject, in ascending key order. -/
def subjectProperties (subject : PropertySubject) :
    List (PropertyKeyId × PropertyValue) :=
  let merged := view.base.properties.getD subject ∅
  let overlayKeys := match view.overlay.properties[subject]? with
    | some keys => keys.toList
    | none => []
  -- A set entry replaces the base value; a removal drops it.
  (applyDelta merged overlayKeys).toList

/-- The merged catalog. -/
def catalog : Catalog := view.overlay.catalog

/-- The nine id allocators. -/
def nextIds : NextIds := view.overlay.next

-- The merge-scan definitions of the lookups, which filter every visible record or property.

/-- Scans for the visible incidences attached to an element. -/
def elementIncidencesScan (element : ElementId) : List IncidenceRecord :=
  view.incidences.filter fun record => record.element = element

/-- Scans for the visible incidences belonging to a relation. -/
def relationIncidencesScan (relation : RelationId) :
    List IncidenceRecord :=
  view.incidences.filter fun record => record.relation = relation

/-- Scans for the visible elements carrying a label. -/
def elementsWithLabelScan (label : LabelId) : List ElementId :=
  (view.elements.filter fun record => record.labels.contains label).map ElementRecord.id

/-- Scans for the visible relations of a type. -/
def relationsWithTypeScan (relationType : RelationTypeId) :
    List RelationId :=
  (view.relations.filter fun record => record.relationType = some relationType).map
    RelationRecord.id

variable (key : PropertyKeyId)

/-- Scans for the subjects whose property under a key equals a value. -/
def propertyEqualScan (value : PropertyValue) :
    List PropertySubject :=
  (view.properties.filter fun entry => entry.1.2 = key ∧ entry.2 = value).map fun entry =>
    entry.1.1

/-- Scans for the subjects whose property under a key falls in the inclusive range. -/
def propertyRangeScan (min max : PropertyValue) :
    List PropertySubject :=
  (view.properties.filter fun entry =>
    entry.1.2 = key ∧ compare entry.2 min ≠ .lt ∧ compare entry.2 max ≠ .gt).map fun entry =>
      entry.1.1

/-- Scans for the subjects carrying a key, with their visible values. -/
def propertyKeySubjectsScan :
    List (PropertySubject × PropertyValue) :=
  (view.properties.filter fun entry => entry.1.2 = key).map fun entry => (entry.1.1, entry.2)

/-- The visible properties grouped by subject, each subject's keys mapped to their values. -/
def propertiesBySubject :
    BTreeMap PropertySubject (BTreeMap PropertyKeyId PropertyValue) :=
  view.properties.foldl (fun grouped entry => nestedInsert grouped entry.1.1 entry.1.2 entry.2) ∅

/-- Validates a lookup value's type against the merged catalog's schema for a key. -/
def validateLookupValue (value : PropertyValue) :
    Except DbError Unit :=
  match view.catalog.propertyKey key with
  | none => .error (.unknown .propertyKey key)
  | some definition =>
    if definition.valueType ≠ value.valueType then
      .error (.query (.propertyTypeMismatch definition.valueType value.valueType))
    else .ok ()

/-- Validates a lookup value's family and type against the merged catalog's schema for a key. -/
def validateLookupValueForFamily
    (family : PropertyFamily) (value : PropertyValue) : Except DbError Unit :=
  match view.catalog.propertyKey key with
  | none => .error (.unknown .propertyKey key)
  | some definition =>
    if definition.family ≠ family then
      .error (.query (.wrongPropertyFamily definition.family family))
    else if definition.valueType ≠ value.valueType then
      .error (.query (.propertyTypeMismatch definition.valueType value.valueType))
    else .ok ()

/-- Validates the arity and every pair of a composite lookup tuple. -/
def validateTuple (keys : List PropertyKeyId)
    (values : List PropertyValue) : Except DbError Unit :=
  if keys.length ≠ values.length then
    .error (.unsupported "composite equality tuple arity mismatch")
  else (keys.zip values).forM fun pair => view.validateLookupValue pair.1 pair.2

/-- Scans for the subjects matching an ordered typed property tuple. -/
def typedPropertyCompositeEqualScan (keys : List PropertyKeyId)
    (values : List PropertyValue) : Except DbError (List PropertySubject) :=
  (view.validateTuple keys values).map fun _ =>
    (view.propertiesBySubject.toList.filter fun entry =>
      (keys.zip values).all fun pair => entry.2[pair.1]? = some pair.2).map Prod.fst

-- The index-backed lookups, which merge base postings with the overlay's deltas.

/-- The visible elements carrying a label. -/
def elementsWithLabel (label : LabelId) : List ElementId :=
  view.overlay.index.elementsWithLabel view.base.index label

/-- The visible relations of a type. -/
def relationsWithType (relationType : RelationTypeId) : List RelationId :=
  view.overlay.index.relationsWithType view.base.index relationType

/-- The visible incidences attached to an element. -/
def elementIncidences (element : ElementId) : List IncidenceRecord :=
  (view.overlay.index.elementIncidences view.base.index element).filterMap view.incidence

/-- The visible incidences belonging to a relation. -/
def relationIncidences (relation : RelationId) : List IncidenceRecord :=
  (view.overlay.index.relationIncidences view.base.index relation).filterMap view.incidence

/-- The subjects whose property under a key equals a value. -/
def propertyEqual (value : PropertyValue) :
    List PropertySubject :=
  view.overlay.index.propertyEqual view.base.index key value

/-- The subjects whose property under a key equals a value valid for a family. -/
def typedPropertyEqualForFamily
    (family : PropertyFamily) (value : PropertyValue) : Except DbError (List PropertySubject) := do
  view.validateLookupValueForFamily key family value
  return view.propertyEqual key value

/-- The subjects whose property under a key falls in the inclusive range. -/
def propertyRange (min max : PropertyValue) :
    List PropertySubject :=
  view.overlay.index.propertyRange view.base.index key min max

/-- Every subject carrying a property key, with its visible value. -/
def propertyKeySubjects :
    List (PropertySubject × PropertyValue) :=
  view.overlay.index.propertyKeySubjects view.base.index key

/-- The subjects matching an ordered typed property tuple. -/
def typedPropertyCompositeEqual (keys : List PropertyKeyId)
    (values : List PropertyValue) : Except DbError (List PropertySubject) :=
  (view.validateTuple keys values).map fun _ =>
    view.overlay.index.propertyCompositeEqual view.base.index (keys.zip values)

end LayeredState

end Oxgraph
