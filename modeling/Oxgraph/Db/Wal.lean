import Oxgraph.Db.Wire
import Oxgraph.Lib.Words

/-! The delta log's checksum, its records, their replay, and the superblock. -/

namespace Oxgraph

/-- A checksum that continues from a previous result, as the checksum library provides it. -/
class Crc32c where
  -- Continues a checksum over more bytes.
  crc32cAppend : UInt32 → Bytes → UInt32

/-- Computes the checksum over `bytes`. -/
def checksum [Crc32c] (bytes : Bytes) : UInt32 := Crc32c.crc32cAppend 0 bytes

/-- Continues a checksum over `bytes`, seeded with a previous result. -/
def checksumAppend [Crc32c] (seed : UInt32) (bytes : Bytes) : UInt32 :=
  Crc32c.crc32cAppend seed bytes

/-- What the store relies on of its checksum: chaining two runs is checksumming them joined. -/
class LawfulCrc32c [Crc32c] : Prop where
  continues : ∀ seed before after,
    checksumAppend (checksumAppend seed before) after = checksumAppend seed (before ++ after)
  nothing : checksumAppend 0 [] = 0

/-- Shifts one bit out of the reflected checksum register, reducing by the polynomial. -/
def castagnoliBit (register : UInt32) : UInt32 :=
  if register &&& 1 = 1 then (register >>> 1) ^^^ 0x82F63B78 else register >>> 1

/-- Feeds one byte into the reflected checksum register. -/
def castagnoliByte (register : UInt32) (byte : UInt8) : UInt32 :=
  Nat.repeat castagnoliBit 8 (register ^^^ byte.toUInt32)

/-- The Castagnoli checksum, which the store's checksum library computes. -/
@[reducible] def castagnoli : Crc32c where
  crc32cAppend seed bytes := (bytes.foldl castagnoliByte (seed ^^^ 0xFFFFFFFF)) ^^^ 0xFFFFFFFF

/-- The Castagnoli checksum chains, since its final inversion is undone by the next seed. -/
theorem castagnoli_lawful : @LawfulCrc32c castagnoli :=
  letI := castagnoli
  { continues := by
      intro seed before after
      have undone (register : UInt32) : register ^^^ 0xFFFFFFFF ^^^ 0xFFFFFFFF = register := by
        rw [UInt32.xor_assoc, UInt32.xor_self, UInt32.xor_zero]
      simp only [checksumAppend, Crc32c.crc32cAppend, undone, List.foldl_append]
    nothing := by decide }

/-- The published check value for the ASCII digits `123456789`. -/
example : castagnoli.crc32cAppend 0 [49, 50, 51, 52, 53, 54, 55, 56, 57] = 0xE3069283 := by
  decide +kernel

end Oxgraph

-- Records, replay, and the superblock.

namespace Oxgraph

variable [Crc32c]

/-- One decoded, owned delta-log commit record. -/
structure CommitFrame where
  -- Log sequence number of this commit.
  lsn : UInt64
  -- Writer transaction id that produced this commit.
  txnId : UInt64
  -- Base generation this commit applies over.
  baseGeneration : UInt64
  -- Decoded mutation ops in record order.
  ops : List MutationOp
  -- Owned bytes of the record's variable-length data.
  blob : Bytes
  deriving DecidableEq

/-- Result of replaying a delta-log buffer. -/
structure ReplayOutcome where
  -- Recovered frames in ascending LSN order.
  frames : List CommitFrame
  -- Byte length of the valid prefix.
  validLen : Nat
  -- LSN of the last recovered frame, or `0` when none were recovered.
  lastLsn : UInt64
  -- Txn id of the last recovered frame, or `0` when none were recovered.
  lastTxn : UInt64
  deriving DecidableEq

/-- Byte length of a record header. -/
def headerLen : Nat := FixedLayout.size LogRecordHeader

/-- Byte length of one mutation op. -/
def opLen : Nat := FixedLayout.size MutationOp

/-- Byte offset of a header's checksum field. -/
def headerCrcOffset : Nat := headerLen - FixedLayout.size UInt32

/-- Computes a record's checksum: over all its bytes except the four of the checksum field. -/
def recordCrc (record : Bytes) : UInt32 :=
  checksumAppend (checksum (record.take headerCrcOffset))
    (record.drop (headerCrcOffset + FixedLayout.size UInt32))

/-- Encodes one commit into a self-describing delta-log record. -/
def encodeCommit (lsn txnId baseGeneration : UInt64) (ops : List MutationOp) (blob : Bytes) :
    Except StorageError Bytes :=
  let len := headerLen + ops.length * opLen + blob.length
  -- The header's widths bound the record length and the op count.
  if len ≥ u32Bound then .error (.invalidStore "delta-log record too large")
  else if ops.length ≥ u32Bound then .error (.invalidStore "delta-log op count too large")
  else
    let header : LogRecordHeader :=
      { baseGeneration, lsn, txnId, magic := oxglogr, len := .ofNat len,
        opCount := .ofNat ops.length, crc32c := 0 }
    let record := asBytes header ++ arrayBytes ops ++ blob
    let crc := recordCrc record
    -- The checksum is stamped into the assembled bytes.
    .ok (record.take headerCrcOffset ++ asBytes crc ++
      record.drop (headerCrcOffset + FixedLayout.size UInt32))

/-- Outcome of parsing one delta-log record at the head of a buffer. -/
inductive RecordParse where
  -- The record is a torn tail: replay stops silently and keeps the prefix.
  | stop
  -- The record is loudly corrupt.
  | loud (error : StorageError)
  -- A fully valid record occupying `len` bytes.
  | frame (frame : CommitFrame) (len : Nat)

/-- State the ascending-LSN check needs from the already-recovered prefix. -/
structure LsnCursor where
  -- LSN of the last accepted record.
  lastLsn : UInt64
  -- Whether any record has been accepted yet.
  seen : Bool

/-- Decodes the ops and the trailing blob of a validated record. -/
def decodeOps (record : Bytes) (framedMin : Nat) : List MutationOp × Bytes :=
  let opsBytes := (record.take framedMin).drop headerLen
  (readArray (opsBytes.length / opLen) opsBytes, record.drop framedMin)

/-- A failed check is a torn tail when nothing fully valid can follow, else loud corruption. -/
def tailOrLoud (isLast : Bool) (error : StorageError) : RecordParse :=
  if isLast then .stop else .loud error

/-- Parses the single record at the head of `remaining`, which runs to the end of the log. -/
def parseOneRecord (baseGeneration : UInt64) (remaining : Bytes) (cursor : LsnCursor) :
    RecordParse :=
  -- A full header must remain.
  if remaining.length < headerLen then .stop
  else
    let header : LogRecordHeader := readFromPrefix remaining
    let len := header.len.toNat
    let opCount := header.opCount.toNat
    let lsn := header.lsn
    -- The expected framing decides whether a well-formed record can follow this one.
    let bodyLen := (checkedMul opCount opLen).bind fun opsBytes => checkedAdd opsBytes headerLen
    let frameWellFramed :=
      (bodyLen.any fun bodyBytes => bodyBytes ≤ len) && len ≤ remaining.length && len ≥ headerLen
    let isLast := !frameWellFramed || len ≥ remaining.length
    if header.magic ≠ oxglogr then
      tailOrLoud isLast (.logCorrupt lsn "delta-log record magic mismatch")
    else if header.baseGeneration ≠ baseGeneration then
      tailOrLoud isLast (.baseGenerationMismatch baseGeneration header.baseGeneration)
    else
      match bodyLen with
      -- The op count overflowed, so nothing valid can follow.
      | none => .stop
      | some framedMin =>
        if len < framedMin ∨ len < headerLen then
          tailOrLoud isLast
            (.logCorrupt lsn "delta-log record length undershoots its framing")
        else if len > remaining.length then
          -- The declared record runs past the buffer.
          .stop
        else
          let record := remaining.take len
          if recordCrc record ≠ header.crc32c then
            tailOrLoud isLast (.logCorrupt lsn "delta-log record checksum mismatch")
          else if cursor.seen ∧ lsn ≤ cursor.lastLsn then
            -- A valid record after another is never a torn tail.
            .loud (.logCorrupt lsn "delta-log record LSN not strictly ascending")
          else
            let (ops, blob) := decodeOps record framedMin
            .frame { lsn, txnId := header.txnId, baseGeneration := header.baseGeneration, ops, blob }
              len

/-- Walks records off the head of `remaining`, extending the outcome recovered so far. -/
def replayLoop (baseGeneration : UInt64) :
    Nat → ReplayOutcome → Bool → Bytes → Except StorageError ReplayOutcome
  | 0, outcome, _, _ => .ok outcome
  | fuel + 1, outcome, seen, remaining =>
    if remaining.isEmpty then .ok outcome
    else
      match parseOneRecord baseGeneration remaining ⟨outcome.lastLsn, seen⟩ with
      | .stop => .ok outcome
      | .loud error => .error error
      | .frame frame len =>
        replayLoop baseGeneration fuel
          { frames := outcome.frames ++ [frame], validLen := outcome.validLen + len,
            lastLsn := frame.lsn, lastTxn := frame.txnId }
          true (remaining.drop len)

/--
Replays a delta-log buffer against a base generation, keeping the maximal valid prefix of frames.

Every frame consumes at least one byte, so one step for each byte walks the whole buffer.
-/
def replay (baseGeneration : UInt64) (log : Bytes) : Except StorageError ReplayOutcome :=
  replayLoop baseGeneration log.length
    { frames := [], validLen := 0, lastLsn := 0, lastTxn := 0 } false log

/-- A superblock with its checksum stamped over the bytes before that. -/
def SuperblockRecord.stamped (record : SuperblockRecord) : SuperblockRecord :=
  let bytes := asBytes { record with crc32c := 0 }
  { record with crc32c := checksum (bytes.take superblockCrcPrefixLen) }

/-- The bytes of a superblock file. -/
def writeSuperblock (record : SuperblockRecord) : Bytes := asBytes record.stamped

/-- Reads and verifies the bytes of a superblock file, absent when the file does not exist. -/
def readSuperblock (file : Option Bytes) : Except StorageError SuperblockRecord :=
  match file with
  | none => .error .notFound
  | some bytes =>
    if bytes.length ≠ FixedLayout.size SuperblockRecord then
      .error (.invalidStore "superblock size mismatch")
    else
      let record : SuperblockRecord := readFromPrefix bytes
      if record.magic ≠ superblockMagic then .error (.invalidStore "superblock magic mismatch")
      else if record.crc32c ≠ checksum (bytes.take superblockCrcPrefixLen) then
        .error (.invalidStore "superblock checksum mismatch")
      else if record.formatVersion ≠ oxgdbFormatVersion then
        .error (.invalidStore "superblock format version unsupported")
      else if record.flags ≠ 0 ∨ record.pad ≠ 0 then
        .error (.invalidStore "superblock reserved word not zero")
      else .ok record

-- Recovery.

/-- Replays a log file, and leaves in the file only the valid prefix the replay kept. -/
def recoverLog (baseGeneration : UInt64) (log : Bytes) :
    Except StorageError (ReplayOutcome × Bytes) :=
  match replay baseGeneration log with
  | .error error => .error error
  | .ok outcome =>
    .ok (outcome, if outcome.validLen < log.length then log.take outcome.validLen else log)

end Oxgraph
