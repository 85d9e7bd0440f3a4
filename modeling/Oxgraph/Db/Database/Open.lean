import Oxgraph.Db.Backing
import Oxgraph.Db.Database.Commit

/-! Opening a database: the base its superblock names, and the valid prefix of its log over it. -/

namespace Oxgraph

/-- What recovery has folded out of a log so far. -/
structure Recovery where
  overlay : Overlay
  -- The elementwise maximum of the base header's watermark and every frame's.
  next : NextIds
  lsn : CommitSeq
  txn : TransactionId

/-- Folds one replayed frame into the recovered state. -/
def Recovery.foldFrame (base : BaseRecords) (recovery : Recovery) (frame : CommitFrame) :
    Except DbError Recovery := do
  let overlay ← recovery.overlay.applyOps base frame.ops frame.blob frame.lsn
  return { overlay, next := recovery.next.elementwiseMax overlay.next, lsn := frame.lsn
           txn := max recovery.txn frame.txnId }

/-- The overlay over a base before any frame is replayed. -/
def BaseView.freshOverlay (base : BaseView) : Overlay :=
  .empty (.fromHeader base.header) base.catalog

/-- The view of the base that a created store starts from: no record, and no id handed out. -/
def BaseView.created : BaseView :=
  ⟨[], [], [], [], [], [], [], ⟨[], [], [], [], [], [], [], [], [], [], []⟩, .empty,
    ⟨oxgdbFormatVersion, 0, 0, 0, 1, 1, 1, 1, 1, 1, 1, 1, 1⟩⟩

/-- The superblock that a created store starts from. -/
def SuperblockRecord.created : SuperblockRecord :=
  ⟨superblockMagic, 0, 0, 0, 0, 0, oxgdbFormatVersion, 0, 0, 0⟩

/-- The records of the base that a created store starts from. -/
def BaseRecords.created : BaseRecords :=
  { BaseRecords.empty with index := .borrowed BaseView.created.index }

namespace Db

/-- The database that creating a store opens. -/
def created : Db := ⟨⟨0, 0, .empty .initial .empty, .created⟩, 0, 0, []⟩

variable [Crc32c]

/-- Recovers the live frontier of a base from its log, whose torn tail is truncated away. -/
def recover (superblock : SuperblockRecord) (base : BaseView) (log : Bytes) : Except DbError Db := do
  let generation := superblock.baseGeneration
  let records ← BaseRecords.open base
  let (outcome, kept) ← (recoverLog generation log).mapError .storage
  let start : Recovery :=
    ⟨base.freshOverlay, .fromHeader base.header, superblock.commitSeq, superblock.transactionId⟩
  let recovered ← outcome.frames.foldlM (Recovery.foldFrame records) start
  return {
    current := ⟨generation, recovered.lsn, recovered.overlay.setNextIds recovered.next, records⟩
    baseGeneration := generation
    lastTransactionId := recovered.txn
    log := kept }

/-- Opens an existing database from the bytes of its files; a missing log is an empty one. -/
def «open» (superblock : Option Bytes) (base log : UInt64 → Option Bytes) : Except DbError Db := do
  let superblock ← (readSuperblock superblock).mapError .storage
  match base superblock.baseGeneration with
  | none => .error (.storage .notFound)
  | some bytes => do
    let base ← (attachView bytes).mapError .storage
    recover superblock base ((log superblock.baseGeneration).getD [])

end Db

end Oxgraph
