import Oxgraph.Db.Freeze

/-! The base-attach layer: sections of a base file bound to a view, and its records decoded. -/

namespace Oxgraph

open Container (Snapshot.openChecked)

/-- The header value extracted from a base's header record. -/
structure DbHeader where
  formatVersion : UInt32
  -- Checkpoint-time committed transaction sequence.
  commitSeq : UInt64
  -- Checkpoint-time writer transaction id.
  transactionId : UInt64
  -- Generation stamp folded into the base.
  checkpointGeneration : UInt64
  -- The nine next-id candidates of the folded state.
  nextElement : UInt64
  nextRelation : UInt64
  nextIncidence : UInt64
  nextRole : UInt64
  nextLabel : UInt64
  nextRelationType : UInt64
  nextPropertyKey : UInt64
  nextProjection : UInt64
  nextIndex : UInt64

/-- The header value of a header record. -/
def DbHeader.fromRecord (record : DbHeaderRecord) : DbHeader where
  formatVersion := record.formatVersion
  commitSeq := record.commitSeq
  transactionId := record.transactionId
  checkpointGeneration := record.checkpointGeneration
  nextElement := record.nextElement
  nextRelation := record.nextRelation
  nextIncidence := record.nextIncidence
  nextRole := record.nextRole
  nextLabel := record.nextLabel
  nextRelationType := record.nextRelationType
  nextPropertyKey := record.nextPropertyKey
  nextProjection := record.nextProjection
  nextIndex := record.nextIndex

/-- The watermark a base header records. -/
def NextIds.fromHeader (header : DbHeader) : NextIds where
  element := header.nextElement
  relation := header.nextRelation
  incidence := header.nextIncidence
  role := header.nextRole
  label := header.nextLabel
  relationType := header.nextRelationType
  propertyKey := header.nextPropertyKey
  projection := header.nextProjection
  index := header.nextIndex

/-- View over one base generation: its record arrays, side pools, index, catalog, and header. -/
structure BaseView where
  -- Records sorted ascending by id.
  elements : List ElementWire
  relations : List RelationWire
  incidences : List IncidenceWire
  -- Flat label id runs sliced by the records.
  elementLabels : List UInt64
  relationLabels : List UInt64
  -- Property records sorted by `(subject kind, subject id, key)`.
  properties : List PropertyWire
  -- Concatenated text values sliced by the property records.
  text : Bytes
  -- Derived postings borrowed from the persisted sections.
  index : BorrowedBaseIndex
  -- Catalog rebuilt from its record sections.
  catalog : Catalog
  -- Header value.
  header : DbHeader

/-- Slices an `(offset, len)` run out of a side pool. -/
def labelSlice {T : Type} (run : List T) (offset len : UInt32) : Option (List T) :=
  match checkedAdd offset.toNat len.toNat with
  | none => none
  | some stop => sliceOf run offset.toNat stop

namespace BaseView

/-- The label run of an element record. -/
def elementLabelRun (view : BaseView) (record : ElementWire) : Option (List UInt64) :=
  labelSlice view.elementLabels record.labelOff record.labelLen

/-- The label run of a relation record. -/
def relationLabelRun (view : BaseView) (record : RelationWire) : Option (List UInt64) :=
  labelSlice view.relationLabels record.labelOff record.labelLen

/-- The text bytes of a text property record. -/
def propertyText (view : BaseView) (record : PropertyWire) : Option Bytes :=
  labelSlice view.text record.textOff record.textLen

end BaseView

/-- The sort key of a property record. -/
def propertySortKey (record : PropertyWire) : UInt32 × UInt64 × UInt64 :=
  (record.subjectKind, record.subjectId, record.key)

/-- Whether each property record's sort key is at or above its predecessor's. -/
def propertiesSorted : List PropertyWire → Bool
  | before :: after :: rest =>
    (compare (propertySortKey before) (propertySortKey after)).isLE &&
      propertiesSorted (after :: rest)
  | _ => true

/-- Verifies that the property records are sorted ascending. -/
def verifyPropertiesSorted (properties : List PropertyWire) : Except StorageError Unit :=
  if propertiesSorted properties then .ok ()
  else .error (.invalidStore
    "base property records are not sorted by (subject_kind, subject_id, key)")

section Attach

variable [Crc32c]

/-- Splits a framed posting section into its directory and its pool; an absent one is empty. -/
def postingSlices (T : Type) [FixedLayout T] (snapshot : Container.Snapshot) (kind : UInt32) :
    Except StorageError (List T × List UInt64) :=
  match snapshot.sectionOf kind with
  | none => .ok ([], [])
  | some found => do
    bound (found.verify checksumAppend)
    let (dirBytes, poolBytes) ← splitPostingSection found.payload
    match refFromBytes T dirBytes with
    | none => .error (.invalidStore "posting directory is not a whole array")
    | some dir =>
      match refFromBytes UInt64 poolBytes with
      | none => .error (.invalidStore "posting value pool is not a whole array")
      | some pool => .ok (dir, pool)

/-- Borrows the derived index out of the posting sections. -/
def attachIndex (snapshot : Container.Snapshot) : Except StorageError BorrowedBaseIndex := do
  let (labelDir, labelPool) ← postingSlices PostingDirEntry snapshot sectionIndexLabelPostings
  let (relationTypeDir, relationTypePool) ←
    postingSlices PostingDirEntry snapshot sectionIndexRelationTypePostings
  let (elementIncidenceDir, elementIncidencePool) ←
    postingSlices PostingDirEntry snapshot sectionIndexElementIncidences
  let (relationIncidenceDir, relationIncidencePool) ←
    postingSlices PostingDirEntry snapshot sectionIndexRelationIncidences
  let (equalityDir, equalityPool) ←
    postingSlices EqualityDirEntry snapshot sectionIndexEquality
  let equalityText ← rawBlob snapshot sectionIndexEqualityText
  (BorrowedBaseIndex.fromSections
    { labelDir, labelPool, relationTypeDir, relationTypePool, equalityDir, equalityPool
      equalityText, elementIncidenceDir, elementIncidencePool, relationIncidenceDir
      relationIncidencePool }).mapError fun error => .invalidStore error.display

/-- Opens a snapshot over base bytes and binds its sections to a view. -/
def attachView (bytes : Bytes) : Except StorageError BaseView := do
  let snapshot ← (Snapshot.openChecked bytes checksumAppend).mapError fun error =>
    .invalidStore error.display
  let headers ← typedRecords DbHeaderRecord snapshot sectionDbHeader
  match headers.head? with
  | none => .error (.invalidStore "base is missing the header section")
  | some headerRecord =>
    if headerRecord.formatVersion ≠ oxgdbFormatVersion then
      .error (.unsupportedFormat headerRecord.formatVersion oxgdbFormatVersion)
    else do
      let stringTable ← rawBlob snapshot sectionStringTable
      let defs ← typedRecords UInt64 snapshot sectionCatalogDefs
      let catalog ← (decodeCatalog snapshot stringTable defs).mapError fun error =>
        .invalidStore error.display
      let properties ← typedRecords PropertyWire snapshot sectionPropertyRecords
      verifyPropertiesSorted properties
      let index ← attachIndex snapshot
      return {
        elements := ← typedRecords ElementWire snapshot sectionElementRecords
        relations := ← typedRecords RelationWire snapshot sectionRelationRecords
        incidences := ← typedRecords IncidenceWire snapshot sectionIncidenceRecords
        elementLabels := ← typedRecords UInt64 snapshot sectionElementLabels
        relationLabels := ← typedRecords UInt64 snapshot sectionRelationLabels
        properties
        text := ← rawBlob snapshot sectionPropertyText
        index
        catalog
        header := .fromRecord headerRecord }

end Attach

/-- Decodes a label run into a label set. -/
def decodeLabels (run : Option (List UInt64)) : Except DbError LabelSet :=
  match run with
  | none => .error (.invalidStore "base label run out of bounds")
  | some run => .ok (collectSet run)

/-- Decodes one element record. -/
def decodeElement (view : BaseView) (record : ElementWire) : Except DbError ElementRecord := do
  let labels ← decodeLabels (view.elementLabelRun record)
  return { id := record.id, labels }

/-- Decodes one relation record. -/
def decodeRelation (view : BaseView) (record : RelationWire) : Except DbError RelationRecord := do
  let labels ← decodeLabels (view.relationLabelRun record)
  return { id := record.id, relationType := decodeRelationType record.relationType, labels }

/-- Decodes one incidence record. -/
def decodeIncidence (record : IncidenceWire) : IncidenceRecord where
  id := record.id
  relation := record.relation
  element := record.element
  role := record.role

/-- Decodes one property record. -/
def decodeProperty (view : BaseView) (record : PropertyWire) :
    Except DbError ((PropertySubject × PropertyKeyId) × PropertyValue) :=
  match decodeSubject record.subjectKind record.subjectId with
  | none => .error (.invalidStore "base property subject kind out of range")
  | some subject =>
    match propertyTypeFromTag record.valueTag with
    | none => .error (.invalidStore "base property value tag out of range")
    | some .boolean => .ok ((subject, record.key), .boolean (record.scalar ≠ 0))
    | some .integer => .ok ((subject, record.key), .integer record.scalar.toInt64)
    | some .text =>
      match view.propertyText record with
      | none => .error (.invalidStore "base property text out of bounds")
      | some bytes =>
        match fromUtf8 bytes with
        | none => .error (.invalidStore "base property text is not UTF-8")
        | some text => .ok ((subject, record.key), .text text)

/-- Decodes the property records into a map of maps. -/
def decodeBaseProperties (view : BaseView) :
    Except DbError (BTreeMap PropertySubject (BTreeMap PropertyKeyId PropertyValue)) :=
  view.properties.foldlM (fun properties record => do
    let ((subject, key), value) ← decodeProperty view record
    return nestedInsert properties subject key value) ∅

/-- Decodes the four record maps of a base view. -/
def decodeRecords (view : BaseView) : Except DbError DecodedRecords := do
  let elements ← view.elements.foldlM (fun (elements : BTreeMap ElementId ElementRecord) record => do
    return elements.insert record.id (← decodeElement view record)) ∅
  let relations ←
    view.relations.foldlM (fun (relations : BTreeMap RelationId RelationRecord) record => do
      return relations.insert record.id (← decodeRelation view record)) ∅
  let incidences := view.incidences.foldl
    (fun (incidences : BTreeMap IncidenceId IncidenceRecord) record =>
      incidences.insert record.id (decodeIncidence record)) ∅
  let properties ← decodeBaseProperties view
  return { elements, relations, incidences, properties }

/-- Decodes one base generation's records, with the index borrowed from the same base. -/
def BaseRecords.open (view : BaseView) : Except DbError BaseRecords := do
  let records ← decodeRecords view
  return { records with index := .borrowed view.index }

end Oxgraph
