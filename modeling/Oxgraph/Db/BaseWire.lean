import Oxgraph.Db.Wire

/-! The fixed records and section kinds of a frozen base. -/

namespace Oxgraph

/-- Section version recorded on every section entry. -/
def oxgdbSectionVersion : UInt32 := 1

/-- Upper bound on the section kinds one base snapshot emits. -/
def maxBaseSectionKinds : Nat := 22

/-- Sentinel standing in for "no relation type". -/
def relationTypeNone : UInt64 := 0

-- Section kinds, assigned contiguously in emission order.
def sectionDbHeader : UInt32 := 0x0300
def sectionCatalogRoles : UInt32 := 0x0301
def sectionCatalogLabels : UInt32 := 0x0302
def sectionCatalogRelationTypes : UInt32 := 0x0303
def sectionCatalogPropertyKeys : UInt32 := 0x0304
def sectionCatalogProjections : UInt32 := 0x0305
def sectionCatalogIndexes : UInt32 := 0x0306
def sectionCatalogDefs : UInt32 := 0x0307
def sectionElementRecords : UInt32 := 0x0308
def sectionElementLabels : UInt32 := 0x0309
def sectionRelationRecords : UInt32 := 0x030A
def sectionRelationLabels : UInt32 := 0x030B
def sectionIncidenceRecords : UInt32 := 0x030C
def sectionPropertyRecords : UInt32 := 0x030D
def sectionPropertyText : UInt32 := 0x030E
def sectionIndexLabelPostings : UInt32 := 0x030F
def sectionIndexRelationTypePostings : UInt32 := 0x0310
def sectionIndexElementIncidences : UInt32 := 0x0311
def sectionIndexRelationIncidences : UInt32 := 0x0312
def sectionIndexEquality : UInt32 := 0x0313
def sectionIndexEqualityText : UInt32 := 0x0314
def sectionStringTable : UInt32 := 0x0315

/-- Fixed store header: format version, stamps, and the nine id allocators. -/
structure DbHeaderRecord where
  -- Format version; must match to open.
  formatVersion : UInt32
  -- Reserved flag bits.
  flags : UInt32
  -- Last visible committed transaction sequence.
  commitSeq : UInt64
  -- Last writer transaction id burned by the publishing handle.
  transactionId : UInt64
  -- Durable checkpoint generation stamp.
  checkpointGeneration : UInt64
  -- The nine next-id candidates, one for each family.
  nextElement : UInt64
  nextRelation : UInt64
  nextIncidence : UInt64
  nextRole : UInt64
  nextLabel : UInt64
  nextRelationType : UInt64
  nextPropertyKey : UInt64
  nextProjection : UInt64
  nextIndex : UInt64
  deriving DecidableEq

instance : FixedLayout DbHeaderRecord :=
  FixedLayout.ofFields
    (fun record => (record.formatVersion, record.flags, record.commitSeq, record.transactionId,
      record.checkpointGeneration, record.nextElement, record.nextRelation, record.nextIncidence,
      record.nextRole, record.nextLabel, record.nextRelationType, record.nextPropertyKey,
      record.nextProjection, record.nextIndex))
    (fun (version, flags, seq, txn, generation, element, relation, incidence, role, label, type,
      key, projection, index) =>
      ⟨version, flags, seq, txn, generation, element, relation, incidence, role, label, type, key,
        projection, index⟩)
    (fun _ => rfl) (fun _ => rfl)

/-- One catalog entry that carries only an id and a name in the string table. -/
structure NamedWire where
  id : UInt64
  nameOff : UInt32
  nameLen : UInt32
  deriving DecidableEq

instance : FixedLayout NamedWire :=
  FixedLayout.ofFields (fun record => (record.id, record.nameOff, record.nameLen))
    (fun (id, off, len) => ⟨id, off, len⟩) (fun _ => rfl) (fun _ => rfl)

/-- One catalog property-key entry: id, name, owning family, and value type. -/
structure PropertyKeyWire where
  id : UInt64
  nameOff : UInt32
  nameLen : UInt32
  family : UInt32
  valueType : UInt32
  deriving DecidableEq

instance : FixedLayout PropertyKeyWire :=
  FixedLayout.ofFields
    (fun record => (record.id, record.nameOff, record.nameLen, record.family, record.valueType))
    (fun (id, off, len, family, type) => ⟨id, off, len, family, type⟩)
    (fun _ => rfl) (fun _ => rfl)

/-- One projection or index catalog entry, whose body is a slice of the definition words. -/
structure DefWire where
  id : UInt64
  nameOff : UInt32
  nameLen : UInt32
  -- Definition-kind discriminant.
  kind : UInt32
  -- Start index and length of the body in the definition words.
  payloadOff : UInt32
  payloadLen : UInt32
  deriving DecidableEq

instance : FixedLayout DefWire :=
  FixedLayout.ofFields
    (fun record => (record.id, record.nameOff, record.nameLen, record.kind, record.payloadOff,
      record.payloadLen))
    (fun (id, off, len, kind, payloadOff, payloadLen) => ⟨id, off, len, kind, payloadOff, payloadLen⟩)
    (fun _ => rfl) (fun _ => rfl)

/-- One element record: its id and the slice of the label run holding its labels. -/
structure ElementWire where
  id : UInt64
  labelOff : UInt32
  labelLen : UInt32
  deriving DecidableEq

instance : FixedLayout ElementWire :=
  FixedLayout.ofFields (fun record => (record.id, record.labelOff, record.labelLen))
    (fun (id, off, len) => ⟨id, off, len⟩) (fun _ => rfl) (fun _ => rfl)

/-- One relation record: its id, its type with a sentinel, and its label slice. -/
structure RelationWire where
  id : UInt64
  relationType : UInt64
  labelOff : UInt32
  labelLen : UInt32
  deriving DecidableEq

instance : FixedLayout RelationWire :=
  FixedLayout.ofFields
    (fun record => (record.id, record.relationType, record.labelOff, record.labelLen))
    (fun (id, type, off, len) => ⟨id, type, off, len⟩) (fun _ => rfl) (fun _ => rfl)

/-- One incidence record in canonical coordinates. -/
structure IncidenceWire where
  id : UInt64
  relation : UInt64
  element : UInt64
  role : UInt64
  deriving DecidableEq

instance : FixedLayout IncidenceWire :=
  FixedLayout.ofFields (fun record => (record.id, record.relation, record.element, record.role))
    (fun (id, relation, element, role) => ⟨id, relation, element, role⟩)
    (fun _ => rfl) (fun _ => rfl)

/-- One typed property value, with its text in a side section. -/
structure PropertyWire where
  subjectKind : UInt32
  valueTag : UInt32
  subjectId : UInt64
  key : UInt64
  -- Boolean or integer payload; unused for text.
  scalar : UInt64
  -- Slice of the text section; unused otherwise.
  textOff : UInt32
  textLen : UInt32
  deriving DecidableEq

instance : FixedLayout PropertyWire :=
  FixedLayout.ofFields
    (fun record => (record.subjectKind, record.valueTag, record.subjectId, record.key,
      record.scalar, record.textOff, record.textLen))
    (fun (kind, tag, id, key, scalar, off, len) => ⟨kind, tag, id, key, scalar, off, len⟩)
    (fun _ => rfl) (fun _ => rfl)

/-- One directory entry of a simple persisted posting map. -/
structure PostingDirEntry where
  key : UInt64
  -- Start index and length of this posting's members in the value pool, in words.
  membersOff : UInt64
  membersLen : UInt64
  deriving DecidableEq

instance : FixedLayout PostingDirEntry :=
  FixedLayout.ofFields (fun entry => (entry.key, entry.membersOff, entry.membersLen))
    (fun (key, off, len) => ⟨key, off, len⟩) (fun _ => rfl) (fun _ => rfl)

/-- One directory entry of the persisted equality posting map. -/
structure EqualityDirEntry where
  keyId : UInt64
  valueTag : UInt32
  -- Reserved word kept zero.
  reserved : UInt32
  -- Boolean or integer payload; unused for text.
  valueScalar : UInt64
  -- Slice of the equality text section; unused otherwise.
  textOff : UInt64
  textLen : UInt64
  -- Start index and word count of this pair's subjects in the value pool, two words a subject.
  membersOff : UInt64
  membersLen : UInt64
  deriving DecidableEq

instance : FixedLayout EqualityDirEntry :=
  FixedLayout.ofFields
    (fun entry => (entry.keyId, entry.valueTag, entry.reserved, entry.valueScalar, entry.textOff,
      entry.textLen, entry.membersOff, entry.membersLen))
    (fun (key, tag, reserved, scalar, textOff, textLen, off, len) =>
      ⟨key, tag, reserved, scalar, textOff, textLen, off, len⟩)
    (fun _ => rfl) (fun _ => rfl)

/-- Encodes an optional relation type, with the sentinel for the absent case. -/
def encodeRelationType (value : Option RelationTypeId) : UInt64 := value.getD relationTypeNone

/-- Decodes an optional relation type, treating the sentinel as absence. -/
def decodeRelationType (raw : UInt64) : Option RelationTypeId :=
  if raw = relationTypeNone then none else some raw

end Oxgraph
