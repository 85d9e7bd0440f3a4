import Oxgraph.Db.Wal
import Oxgraph.Db.Database.Writer

/-! The database handle: beginning, committing and rolling back the single write transaction. -/

namespace Oxgraph

/-- The durable result of a write: whether a frame landed, and at which commit sequence. -/
inductive CommitOutcome where
  -- The transaction made no changes; no frame was appended.
  | empty
  -- A durable frame landed at this commit sequence.
  | committed (lsn : CommitSeq)
  deriving DecidableEq

/-- An open database handle, with the delta log its live generation has on disk. -/
structure Db where
  -- The current visible snapshot.
  current : Snapshot
  -- Live base generation; every delta frame carries it.
  baseGeneration : UInt64
  -- Last writer transaction id; a rollback burns an id without making it durable.
  lastTransactionId : TransactionId
  -- Bytes of the live generation's delta log.
  log : Bytes

namespace Db

/-- Starts the single writer transaction, burning its id eagerly. -/
def beginWrite : Mutation DbError Db Writer := fun database =>
  match checkedNext database.lastTransactionId with
  | none => (.error (.txn .transactionIdOverflow), database)
  | some transactionId =>
    (.ok ⟨database.current, .fromOverlay database.current.overlay, transactionId⟩,
      { database with lastTransactionId := transactionId })

variable [Crc32c]

/--
Commits a write transaction: one frame at the end of the log, then the snapshot it publishes.

The lock, the disk's own failures and a checkpoint the policy asks for afterwards are left out.
-/
def commit (writer : Writer) : Mutation DbError Db CommitSeq := fun database =>
  -- A non-dirty commit appends nothing, publishes nothing, and advances no durable id.
  if writer.delta.isEmpty then (.ok writer.parent.lsn, database)
  else
    match checkedNext writer.parent.lsn with
    | none => (.error (.txn .commitSeqOverflow), database)
    | some lsn =>
      let frame := writer.delta.takeFrame
      match encodeCommit lsn writer.transactionId database.baseGeneration frame.ops frame.blob with
      | .error error => (.error (.storage error), database)
      | .ok record =>
        -- A commit never folds, so the snapshot keeps its parent's generation and base records.
        (.ok lsn,
          { database with
            current := { writer.parent with lsn, overlay := writer.delta.freeze }
            lastTransactionId := writer.transactionId
            log := database.log ++ record })

/-- Ends a write transaction after its body: commits on success, and rolls back on failure. -/
def finish {R : Type} : Except DbError R × Writer → Mutation DbError Db (R × CommitOutcome)
  -- The writer is dropped with its staged delta, and no frame is appended.
  | (.error error, _) => .fail error
  | (.ok value, writer) => do
    let committed := ¬ writer.delta.isEmpty
    let lsn ← commit writer
    return (value, if committed then .committed lsn else .empty)

/-- Runs a body against the single write transaction; how the body ends is the commit protocol. -/
def write {R : Type} (body : Mutation DbError Writer R) : Mutation DbError Db (R × CommitOutcome) :=
  do
    let writer ← beginWrite
    finish (body writer)

end Db

end Oxgraph
