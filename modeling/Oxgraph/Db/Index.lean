import Oxgraph.Lib.BinarySearch
import Oxgraph.Lib.Posting
import Oxgraph.Db.BaseWire

/-! Index-backed lookups: one base generation's postings, and the deltas an overlay keeps. -/

namespace Oxgraph

/-- Equality posting key: a property key and a value. -/
abbrev EqualityKey := PropertyKeyId × PropertyValue

/-- Owned derived postings built in memory from one base generation's records. -/
structure OwnedBaseIndex where
  -- Elements carrying each label.
  labelMembers : BTreeMap LabelId (BTreeSet ElementId)
  -- Relations of each relation type.
  relationTypeMembers : BTreeMap RelationTypeId (BTreeSet RelationId)
  -- Subjects carrying each `(key, value)`.
  propertyEquality : BTreeMap EqualityKey (BTreeSet PropertySubject)
  -- Incidences attached to each element.
  elementIncidences : BTreeMap ElementId (BTreeSet IncidenceId)
  -- Incidences contained by each relation.
  relationIncidences : BTreeMap RelationId (BTreeSet IncidenceId)

/-- Derived postings borrowed from one mapped base: sorted directories over flat value pools. -/
structure BorrowedBaseIndex where
  labelDir : List PostingDirEntry
  labelPool : List UInt64
  relationTypeDir : List PostingDirEntry
  relationTypePool : List UInt64
  equalityDir : List EqualityDirEntry
  equalityPool : List UInt64
  equalityText : Bytes
  elementIncidenceDir : List PostingDirEntry
  elementIncidencePool : List UInt64
  relationIncidenceDir : List PostingDirEntry
  relationIncidencePool : List UInt64

/-- One base generation's derived postings, owned or borrowed. -/
inductive BaseIndex where
  | owned (index : OwnedBaseIndex)
  | borrowed (index : BorrowedBaseIndex)

namespace OwnedBaseIndex

/-- The empty owned index. -/
def empty : OwnedBaseIndex := ⟨∅, ∅, ∅, ∅, ∅⟩

end OwnedBaseIndex

/-- Slices an `(offset, len)` member run out of a value pool. -/
def slicePool (pool : List UInt64) (offset len : UInt64) : Option (List UInt64) :=
  match checkedAdd offset.toNat len.toNat with
  | none => none
  | some stop => sliceOf pool offset.toNat stop

/-- Binary-searches a simple posting directory for a key, returning its member run. -/
def simpleLookup (dir : List PostingDirEntry) (pool : List UInt64) (key : UInt64) :
    Option (List UInt64) :=
  match binarySearchBy dir fun entry => compare entry.key key with
  | none => none
  | some index =>
    match dir[index]? with
    | none => none
    | some entry => slicePool pool entry.membersOff entry.membersLen

/-- The sort key of an equality directory entry, rebuilt from the entry and the text pool. -/
def equalityEntryKey (entry : EqualityDirEntry) (text : Bytes) : Except DbError EqualityKey :=
  match propertyTypeFromTag entry.valueTag with
  | none => .error (.invalidStore "equality index value tag out of range")
  | some .boolean => .ok (entry.keyId, .boolean (entry.valueScalar ≠ 0))
  | some .integer => .ok (entry.keyId, .integer entry.valueScalar.toInt64)
  | some .text =>
    match checkedAdd entry.textOff.toNat entry.textLen.toNat with
    | none => .error (.invalidStore "equality index text slice overflow")
    | some stop =>
      match sliceOf text entry.textOff.toNat stop with
      | none => .error (.invalidStore "equality index text out of bounds")
      | some bytes =>
        match fromUtf8 bytes with
        | none => .error (.invalidStore "equality index text is not UTF-8")
        | some string => .ok (entry.keyId, .text string)

/-- Splits a word run into whole `(kind, id)` pairs. -/
def wordPairs : List UInt64 → List (UInt64 × UInt64)
  | kind :: id :: rest => (kind, id) :: wordPairs rest
  | _ => []

/-- Decodes one `(kind, id)` word pair of a subject run. -/
def decodeSubjectWords (pair : UInt64 × UInt64) : Option PropertySubject :=
  if pair.1.toNat < u32Bound then decodeSubject pair.1.toUInt32 pair.2 else none

namespace BorrowedBaseIndex

/-- Validates that every entry of a simple posting directory slices inside the pool. -/
def validateSimpleDir (dir : List PostingDirEntry) (pool : List UInt64) (label : String) :
    Except DbError Unit :=
  dir.forM fun entry =>
    match slicePool pool entry.membersOff entry.membersLen with
    | none => .error (.invalidStore (label ++ " posting run out of bounds"))
    | some _ => .ok ()

/-- Validates one subject word pair. -/
def validateSubjectPair (pair : UInt64 × UInt64) : Except DbError Unit :=
  if pair.1.toNat ≥ u32Bound then .error (.invalidStore "equality subject kind overflow")
  else
    match decodeSubject pair.1.toUInt32 pair.2 with
    | none => .error (.invalidStore "equality subject kind out of range")
    | some _ => .ok ()

/-- Validates every entry of the equality directory: its key, its run, and its subjects. -/
def validateEqualityDir (dir : List EqualityDirEntry) (pool : List UInt64) (text : Bytes) :
    Except DbError Unit :=
  dir.forM fun entry =>
    match equalityEntryKey entry text with
    | .error error => .error error
    | .ok _ =>
      match slicePool pool entry.membersOff entry.membersLen with
      | none => .error (.invalidStore "equality posting run out of bounds")
      | some run =>
        if run.length % 2 ≠ 0 then
          .error (.invalidStore
            "equality posting subject run is not a whole number of (kind, id) pairs")
        else (wordPairs run).forM validateSubjectPair

variable (index : BorrowedBaseIndex)

/-- Borrows the index postings, validating that every directory slices inside its pool. -/
def fromSections : Except DbError BorrowedBaseIndex := do
  validateSimpleDir index.labelDir index.labelPool "label"
  validateSimpleDir index.relationTypeDir index.relationTypePool "relation-type"
  validateSimpleDir index.elementIncidenceDir index.elementIncidencePool "element-incidence"
  validateSimpleDir index.relationIncidenceDir index.relationIncidencePool "relation-incidence"
  validateEqualityDir index.equalityDir index.equalityPool index.equalityText
  return index

/-- Decodes one equality directory entry's subject run into an ascending subject list. -/
def decodeSubjects (entry : EqualityDirEntry) : List PropertySubject :=
  let run := (slicePool index.equalityPool entry.membersOff entry.membersLen).getD []
  (wordPairs run).filterMap decodeSubjectWords

/-- How an equality directory entry compares with a probe. -/
def equalityOrder (probe : EqualityKey) (entry : EqualityDirEntry) :
    Ordering :=
  match equalityEntryKey entry index.equalityText with
  -- An entry whose key does not decode compares below every probe.
  | .error _ => .lt
  | .ok candidate => compare candidate probe

/-- Finds the directory position of a key's first posting. -/
def keyLowerBound (key : PropertyKeyId) : Nat :=
  partitionPoint index.equalityDir fun entry => entry.keyId < key

/-- Scans postings of one key from a directory position while their values stay in range. -/
def scanRange (index : BorrowedBaseIndex) (key : PropertyKeyId) (min max : PropertyValue) :
    List EqualityDirEntry → List (EqualityKey × List PropertySubject)
  | [] => []
  | entry :: rest =>
    if entry.keyId ≠ key then []
    else
      match equalityEntryKey entry index.equalityText with
      | .error _ => scanRange index key min max rest
      | .ok (entryKey, value) =>
        if compare value min = .lt then scanRange index key min max rest
        else if compare value max = .gt then []
        else ((entryKey, value), index.decodeSubjects entry) :: scanRange index key min max rest

/-- The postings of a key whose value falls in the inclusive range. -/
def rangePostings (key : PropertyKeyId) (min max : PropertyValue) :
    List (EqualityKey × List PropertySubject) :=
  scanRange index key min max (index.equalityDir.drop (index.keyLowerBound key))

/-- Scans every posting of one key from a directory position. -/
def scanKey (index : BorrowedBaseIndex) (key : PropertyKeyId) :
    List EqualityDirEntry → List (PropertyValue × List PropertySubject)
  | [] => []
  | entry :: rest =>
    if entry.keyId ≠ key then []
    else
      match equalityEntryKey entry index.equalityText with
      | .error _ => scanKey index key rest
      | .ok (_, value) => (value, index.decodeSubjects entry) :: scanKey index key rest

/-- Every posting of a key, ascending by value. -/
def keyPostings (key : PropertyKeyId) :
    List (PropertyValue × List PropertySubject) :=
  scanKey index key (index.equalityDir.drop (index.keyLowerBound key))

end BorrowedBaseIndex

namespace BaseIndex

/-- The base posting of elements carrying a label. -/
def labelPosting (index : BaseIndex) (label : LabelId) : Option (List ElementId) :=
  match index with
  | .owned maps => maps.labelMembers[label]?.map (·.toList)
  | .borrowed view => simpleLookup view.labelDir view.labelPool label

/-- The base posting of relations of a type. -/
def relationTypePosting (index : BaseIndex) (relationType : RelationTypeId) :
    Option (List RelationId) :=
  match index with
  | .owned maps => maps.relationTypeMembers[relationType]?.map (·.toList)
  | .borrowed view =>
    simpleLookup view.relationTypeDir view.relationTypePool relationType

/-- The base posting of incidences attached to an element. -/
def elementIncidencePosting (index : BaseIndex) (element : ElementId) :
    Option (List IncidenceId) :=
  match index with
  | .owned maps => maps.elementIncidences[element]?.map (·.toList)
  | .borrowed view =>
    simpleLookup view.elementIncidenceDir view.elementIncidencePool element

/-- The base posting of incidences contained by a relation. -/
def relationIncidencePosting (index : BaseIndex) (relation : RelationId) :
    Option (List IncidenceId) :=
  match index with
  | .owned maps => maps.relationIncidences[relation]?.map (·.toList)
  | .borrowed view =>
    simpleLookup view.relationIncidenceDir view.relationIncidencePool relation

/-- The ascending subjects carrying a key and value. -/
def equalitySubjects (index : BaseIndex) (key : PropertyKeyId) (value : PropertyValue) :
    Option (List PropertySubject) :=
  match index with
  | .owned maps => maps.propertyEquality[(key, value)]?.map (·.toList)
  | .borrowed view =>
    match binarySearchBy view.equalityDir (view.equalityOrder (key, value)) with
    | none => none
    | some position =>
      match view.equalityDir[position]? with
      | none => none
      | some entry => some (view.decodeSubjects entry)

/-- A key's equality postings whose value falls in the inclusive range, ascending by value. -/
def rangePostings (index : BaseIndex) (key : PropertyKeyId) (min max : PropertyValue) :
    List (EqualityKey × List PropertySubject) :=
  if compare min max = .gt then []
  else
    match index with
    | .owned maps =>
      (mapRange maps.propertyEquality (key, min) (key, max)).map fun entry =>
        (entry.1, entry.2.toList)
    | .borrowed view => view.rangePostings key min max

/-- A key's equality postings, ascending by value. -/
def keyPostings (index : BaseIndex) (key : PropertyKeyId) :
    List (PropertyValue × List PropertySubject) :=
  match index with
  | .owned maps =>
    -- `false` is the smallest value, so the range begins at the key's first posting.
    ((mapFrom maps.propertyEquality (key, .boolean false)).takeWhile
      fun entry => entry.1.1 = key).map fun entry => (entry.1.2, entry.2.toList)
  | .borrowed view => view.keyPostings key

end BaseIndex

/-- Incremental index deltas an overlay maintains alongside its record and property deltas. -/
structure OverlayIndex where
  -- Label postings, by label.
  label : PostingDelta LabelId ElementId
  -- Relation-type postings, by relation type.
  relationType : PostingDelta RelationTypeId RelationId
  -- Equality postings, by `(key, value)`.
  equality : PostingDelta EqualityKey PropertySubject
  -- Element to incidence adjacency, by element.
  elementIncidence : PostingDelta ElementId IncidenceId
  -- Relation to incidence adjacency, by relation.
  relationIncidence : PostingDelta RelationId IncidenceId

namespace OverlayIndex

/-- Builds an empty overlay index. -/
def new : OverlayIndex := ⟨.empty, .empty, .empty, .empty, .empty⟩

variable (index : OverlayIndex)

/-- Records that a subject now carries `(key, value)`. -/
def addEquality (subject : PropertySubject) (key : PropertyKeyId)
    (value : PropertyValue) : OverlayIndex :=
  { index with equality := index.equality.add (key, value) subject }

/-- Records that a subject no longer carries `(key, value)`. -/
def removeEquality (subject : PropertySubject) (key : PropertyKeyId)
    (value : PropertyValue) : OverlayIndex :=
  { index with equality := index.equality.withdraw (key, value) subject }

/-- Records one property set: the subject leaves its previous value's posting and joins the new. -/
def onSetProperty (subject : PropertySubject) (key : PropertyKeyId)
    (previous : Option PropertyValue) (newValue : PropertyValue) : OverlayIndex :=
  let left :=
    match previous with
    | some previous =>
      if previous ≠ newValue then index.removeEquality subject key previous else index
    | none => index
  left.addEquality subject key newValue

/-- Records one property removal: the subject leaves its previous value's posting. -/
def onRemoveProperty (subject : PropertySubject) (key : PropertyKeyId)
    (previous : Option PropertyValue) : OverlayIndex :=
  match previous with
  | some previous => index.removeEquality subject key previous
  | none => index

/-- Records that an element now carries a label. -/
def onAddElementLabel (element : ElementId) (label : LabelId) :
    OverlayIndex :=
  { index with label := index.label.add label element }

/-- Records that an incidence now exists, in both reverse-adjacency postings. -/
def onCreateIncidence (incidence : IncidenceId) (relation : RelationId)
    (element : ElementId) : OverlayIndex :=
  { index with
    elementIncidence := index.elementIncidence.add element incidence
    relationIncidence := index.relationIncidence.add relation incidence }

/-- Records that a relation left a type's posting. -/
def removeRelationType (relation : RelationId)
    (relationType : RelationTypeId) : OverlayIndex :=
  { index with relationType := index.relationType.withdraw relationType relation }

/-- Records that a relation's type changed: it leaves the previous posting and joins the new. -/
def onSetRelationType (relation : RelationId)
    (previous : Option RelationTypeId) (newType : RelationTypeId) : OverlayIndex :=
  let left :=
    match previous with
    | some previous =>
      if previous ≠ newType then index.removeRelationType relation previous else index
    | none => index
  { left with relationType := left.relationType.add newType relation }

/-- Removes every `(key, value)` posting a subject carried. -/
def withdrawSubjectProperties (subject : PropertySubject)
    (properties : BTreeMap PropertyKeyId PropertyValue) : OverlayIndex :=
  properties.toList.foldl
    (fun index entry => index.removeEquality subject entry.1 entry.2) index

/-- Records the full withdrawal of a tombstoned element: its labels and its properties. -/
def onTombstoneElement (element : ElementId) (labels : LabelSet)
    (properties : BTreeMap PropertyKeyId PropertyValue) : OverlayIndex :=
  let unlabelled := labels.toList.foldl (fun index label =>
    { index with label := index.label.withdraw label element }) index
  unlabelled.withdrawSubjectProperties (.element element) properties

/-- Records the full withdrawal of a tombstoned relation: its type and its properties. -/
def onTombstoneRelation (relation : RelationId)
    (relationType : Option RelationTypeId) (properties : BTreeMap PropertyKeyId PropertyValue) :
    OverlayIndex :=
  let untyped :=
    match relationType with
    | some relationType => index.removeRelationType relation relationType
    | none => index
  untyped.withdrawSubjectProperties (.relation relation) properties

/-- Records the full withdrawal of a tombstoned incidence: its adjacency and its properties. -/
def onTombstoneIncidence (incidence : IncidenceId) (relation : RelationId)
    (element : ElementId) (properties : BTreeMap PropertyKeyId PropertyValue) : OverlayIndex :=
  let detached :=
    { index with
      elementIncidence := index.elementIncidence.withdraw element incidence
      relationIncidence := index.relationIncidence.withdraw relation incidence }
  detached.withdrawSubjectProperties (.incidence incidence) properties

variable (base : BaseIndex)

/-- The visible elements carrying a label, ascending. -/
def elementsWithLabel (label : LabelId) :
    List ElementId :=
  mergePosting ((base.labelPosting label).getD []) index.label.added[label]?
    index.label.removed[label]?

/-- The visible relations of a type, ascending. -/
def relationsWithType (relationType : RelationTypeId) :
    List RelationId :=
  mergePosting ((base.relationTypePosting relationType).getD [])
    index.relationType.added[relationType]? index.relationType.removed[relationType]?

/-- The visible incidences attached to an element, ascending. -/
def elementIncidences (element : ElementId) :
    List IncidenceId :=
  mergePosting ((base.elementIncidencePosting element).getD [])
    index.elementIncidence.added[element]? index.elementIncidence.removed[element]?

/-- The visible incidences contained by a relation, ascending. -/
def relationIncidences (relation : RelationId) :
    List IncidenceId :=
  mergePosting ((base.relationIncidencePosting relation).getD [])
    index.relationIncidence.added[relation]? index.relationIncidence.removed[relation]?

/-- The listed subjects that a removal posting does not mask. -/
def keepUnremoved (removed : Option (BTreeSet PropertySubject)) (subjects : List PropertySubject) :
    List PropertySubject :=
  subjects.filter fun subject =>
    match removed with
    | none => true
    | some members => !members.contains subject

/-- Every subject carrying a property key, with its visible value. -/
def propertyKeySubjects (key : PropertyKeyId) :
    List (PropertySubject × PropertyValue) :=
  let kept := (base.keyPostings key).flatMap fun posting =>
    (keepUnremoved index.equality.removed[(key, posting.1)]? posting.2).map (·, posting.1)
  let added := ((mapFrom index.equality.added (key, .boolean false)).takeWhile
    fun entry => entry.1.1 = key).flatMap fun entry => entry.2.toList.map (·, entry.1.2)
  (Std.ExtTreeMap.ofList (kept ++ added) compare).toList

/-- The visible subjects carrying a key and value, ascending. -/
def propertyEqual (key : PropertyKeyId)
    (value : PropertyValue) : List PropertySubject :=
  mergePosting ((base.equalitySubjects key value).getD []) index.equality.added[(key, value)]?
    index.equality.removed[(key, value)]?

/-- The visible subjects whose value falls in the inclusive range, ascending, each once. -/
def propertyRange (key : PropertyKeyId)
    (min max : PropertyValue) : List PropertySubject :=
  if compare min max = .gt then []
  else
    let kept := (base.rangePostings key min max).flatMap fun posting =>
      keepUnremoved index.equality.removed[posting.1]? posting.2
    let added := (mapRange index.equality.added (key, min) (key, max)).flatMap fun entry =>
      entry.2.toList
    (collectSet (kept ++ added)).toList

/-- Retains the accumulated subjects found in every posting, stopping once none are left. -/
def intersectPostings (accumulator : BTreeSet PropertySubject) :
    List (BTreeSet PropertySubject) → BTreeSet PropertySubject
  | [] => accumulator
  | posting :: rest =>
    if accumulator.isEmpty then accumulator
    else intersectPostings (accumulator.filter fun subject => posting.contains subject) rest

/-- Intersects the merged equality postings of a tuple, starting from the smallest. -/
def propertyCompositeEqual
    (pairs : List (PropertyKeyId × PropertyValue)) : List PropertySubject :=
  let perKey := pairs.map fun pair => collectSet (index.propertyEqual base pair.1 pair.2)
  match perKey.mergeSort fun left right => left.size ≤ right.size with
  | [] => []
  | first :: rest => (intersectPostings first rest).toList

end OverlayIndex

end Oxgraph
