import Oxgraph.Lib.Words
import Oxgraph.Db.State

/-! The on-disk vocabulary of the delta log and the superblock. -/

namespace Oxgraph

/-- Format version of the store payload as a whole. -/
def oxgdbFormatVersion : UInt32 := 1

/-- Eight-byte magic identifying a superblock. -/
def superblockMagic : Vector UInt8 8 := #v[0x4F, 0x58, 0x47, 0x53, 0x55, 0x50, 0x45, 0x52]

/-- The store's single linearization point: it names the base generation to open. -/
structure SuperblockRecord where
  -- Format magic.
  magic : Vector UInt8 8
  -- Base generation named by this superblock.
  baseGeneration : UInt64
  -- Last checkpoint LSN folded into the named base.
  checkpointLsn : UInt64
  -- Byte offset in the delta-log where post-checkpoint records begin.
  logByteOffset : UInt64
  -- Checkpoint-time commit sequence snapshot.
  commitSeq : UInt64
  -- Checkpoint-time writer transaction id snapshot.
  transactionId : UInt64
  -- Format version.
  formatVersion : UInt32
  -- Reserved flag bits.
  flags : UInt32
  -- Checksum over all preceding bytes of this record.
  crc32c : UInt32
  -- Trailing pad word kept zero.
  pad : UInt32
  deriving DecidableEq

instance : FixedLayout SuperblockRecord :=
  FixedLayout.ofFields
    (fun record => (record.magic, record.baseGeneration, record.checkpointLsn,
      record.logByteOffset, record.commitSeq, record.transactionId, record.formatVersion,
      record.flags, record.crc32c, record.pad))
    (fun (magic, generation, lsn, offset, seq, txn, version, flags, crc, pad) =>
      ⟨magic, generation, lsn, offset, seq, txn, version, flags, crc, pad⟩)
    (fun _ => rfl) (fun _ => rfl)

/-- Byte length of the superblock prefix its checksum covers. -/
def superblockCrcPrefixLen : Nat := FixedLayout.size SuperblockRecord - 4 - 4

/-- Magic word stamped on every delta-log record. -/
def oxglogr : UInt32 := 0x4F584C47

/-- Fixed delta-log record header, followed by the ops and then the blob. -/
structure LogRecordHeader where
  -- Base generation this record applies over.
  baseGeneration : UInt64
  -- Log sequence number.
  lsn : UInt64
  -- Writer transaction id that produced the record.
  txnId : UInt64
  -- Record magic.
  magic : UInt32
  -- Total record byte length (header, ops, and blob).
  len : UInt32
  -- Number of mutation ops following this header.
  opCount : UInt32
  -- Checksum over the whole record except these four bytes.
  crc32c : UInt32
  deriving DecidableEq

instance : FixedLayout LogRecordHeader :=
  FixedLayout.ofFields
    (fun header => (header.baseGeneration, header.lsn, header.txnId, header.magic, header.len,
      header.opCount, header.crc32c))
    (fun (generation, lsn, txn, magic, len, count, crc) =>
      ⟨generation, lsn, txn, magic, len, count, crc⟩)
    (fun _ => rfl) (fun _ => rfl)

/-- One fixed-size mutation, discriminated by its kind. -/
structure MutationOp where
  -- Op discriminant.
  opKind : UInt32
  -- Packed secondary tags.
  flags : UInt32
  -- Fixed id and offset words, interpreted per kind.
  payload : Vector UInt64 9
  deriving DecidableEq

instance : FixedLayout MutationOp :=
  FixedLayout.ofFields (fun op => (op.opKind, op.flags, op.payload))
    (fun (kind, flags, payload) => ⟨kind, flags, payload⟩) (fun _ => rfl) (fun _ => rfl)

-- Creates one element.
def opCreateElement : UInt32 := 1
-- Tombstones one element.
def opTombstoneElement : UInt32 := 2
-- Creates one relation.
def opCreateRelation : UInt32 := 3
-- Tombstones one relation.
def opTombstoneRelation : UInt32 := 4
-- Creates one incidence.
def opCreateIncidence : UInt32 := 5
-- Tombstones one incidence.
def opTombstoneIncidence : UInt32 := 6
-- Sets a relation's type.
def opSetRelationType : UInt32 := 7
-- Adds a label to an element.
def opAddElementLabel : UInt32 := 8
-- Adds a label to a relation.
def opAddRelationLabel : UInt32 := 9
-- Sets a typed property.
def opSetProperty : UInt32 := 10
-- Removes a property.
def opRemoveProperty : UInt32 := 11
-- Registers a catalog role.
def opCatalogRegisterRole : UInt32 := 12
-- Registers a catalog label.
def opCatalogRegisterLabel : UInt32 := 13
-- Registers a catalog relation type.
def opCatalogRegisterRelationType : UInt32 := 14
-- Registers a catalog property key.
def opCatalogRegisterPropertyKey : UInt32 := 15
-- Registers a catalog projection.
def opCatalogRegisterProjection : UInt32 := 16
-- Registers a catalog index.
def opCatalogRegisterIndex : UInt32 := 17
-- Carries the full nine-value next-id watermark, as the last op of every dirty commit.
def opNextIdWatermark : UInt32 := 18

/-- Maps a property family to its stored tag. -/
def propertyFamilyTag : PropertyFamily → UInt32
  | .element => 0
  | .relation => 1
  | .incidence => 2

/-- Maps a stored tag back to a property family. -/
def propertyFamilyFromTag (tag : UInt32) : Option PropertyFamily :=
  if tag = 0 then some .element
  else if tag = 1 then some .relation
  else if tag = 2 then some .incidence
  else none

/-- Maps a property value type to its stored tag. -/
def propertyTypeTag : PropertyType → UInt32
  | .boolean => 0
  | .integer => 1
  | .text => 2

/-- Maps a stored tag back to a property value type. -/
def propertyTypeFromTag (tag : UInt32) : Option PropertyType :=
  if tag = 0 then some .boolean
  else if tag = 1 then some .integer
  else if tag = 2 then some .text
  else none

/-- Encodes a property subject into its kind tag and id. -/
def encodeSubject : PropertySubject → UInt32 × UInt64
  | .element id => (0, id)
  | .relation id => (1, id)
  | .incidence id => (2, id)

/-- Decodes a kind tag and id back to a property subject. -/
def decodeSubject (kind : UInt32) (id : UInt64) : Option PropertySubject :=
  if kind = 0 then some (.element id)
  else if kind = 1 then some (.relation id)
  else if kind = 2 then some (.incidence id)
  else none

/-- Packs two 16-bit tags into one word. -/
def packFlags (low high : UInt32) : UInt32 :=
  (low &&& 0xFFFF) ||| ((high &&& (0xFFFF : UInt32)) <<< (16 : UInt32))

/-- Unpacks a word into its two 16-bit tags. -/
def unpackFlags (flags : UInt32) : UInt32 × UInt32 := (flags &&& 0xFFFF, flags >>> 16)

@[simp] theorem propertyFamilyFromTag_tag (family : PropertyFamily) :
    propertyFamilyFromTag (propertyFamilyTag family) = some family := by
  cases family <;> rfl

@[simp] theorem propertyTypeFromTag_tag (valueType : PropertyType) :
    propertyTypeFromTag (propertyTypeTag valueType) = some valueType := by
  cases valueType <;> rfl

@[simp] theorem decodeSubject_encodeSubject (subject : PropertySubject) :
    decodeSubject (encodeSubject subject).1 (encodeSubject subject).2 = some subject := by
  cases subject <;> rfl

/-- The tags of a key's family and value type survive packing. -/
@[simp] theorem unpackFlags_key (family : PropertyFamily) (valueType : PropertyType) :
    unpackFlags (packFlags (propertyFamilyTag family) (propertyTypeTag valueType)) =
      (propertyFamilyTag family, propertyTypeTag valueType) := by
  cases family <;> cases valueType <;> rfl

/-- The tags of a subject's kind and a value's type survive packing. -/
@[simp] theorem unpackFlags_subject (subject : PropertySubject) (valueType : PropertyType) :
    unpackFlags (packFlags (encodeSubject subject).1 (propertyTypeTag valueType)) =
      ((encodeSubject subject).1, propertyTypeTag valueType) := by
  cases subject <;> cases valueType <;> simp only [encodeSubject] <;> rfl

/-- A subject's kind alone survives packing. -/
@[simp] theorem unpackFlags_subject_kind (subject : PropertySubject) :
    unpackFlags (packFlags (encodeSubject subject).1 0) = ((encodeSubject subject).1, 0) := by
  cases subject <;> simp only [encodeSubject] <;> rfl

end Oxgraph
