import Oxgraph.Proofs.Db.Database.Files
import Oxgraph.Proofs.Db.Database.Shown

/-! Recovery rebuilds the snapshot that the live handle published, up to the frames a crash kept. -/

namespace Oxgraph

/-- A step of a writer never lowers its watermark. -/
theorem DeltaStep.rises {base : BaseRecords} {allowed : Change → LayeredState → Prop}
    {before after : WriteOverlay}
    (steps : Relation.ReflTransGen (DeltaStep base allowed) before after) :
    before.next ≤ after.next := by
  induction steps with
  | refl => exact NextIds.le_refl _
  | tail _ step ih =>
    refine NextIds.le_trans ih ?_
    cases step with
    | @create overlay change family next guard creates fits applied =>
      intro probe
      change _ ≤ overlay.next.get probe
      rw [next_apply applied]
      exact NextIds.le_set fits probe
    | @mutate overlay change guard creates applied =>
      intro probe
      change _ ≤ overlay.next.get probe
      rw [next_apply applied]
      exact UInt64.le_refl _
    | burn family fits interned => exact NextIds.le_set fits

/-- Frames replayed in turn lead from one sound overlay to the next, and raise its watermark. -/
inductive ReplaysTo (base : BaseRecords) (start : Overlay) : List CommitFrame → Overlay → Prop
  | nil (sound : (LayeredState.mk base start).Sound) : ReplaysTo base start [] start
  | snoc {frames : List CommitFrame} {frame : CommitFrame} {middle last : Overlay}
      (prior : ReplaysTo base start frames middle)
      (applied : middle.applyOps base frame.ops frame.blob frame.lsn = .ok last)
      (rises : middle.next ≤ last.next) (sound : (LayeredState.mk base last).Sound) :
      ReplaysTo base start (frames ++ [frame]) last

namespace ReplaysTo

variable {base : BaseRecords} {start first last : Overlay} {frames more : List CommitFrame}

theorem sound (replays : ReplaysTo base start frames last) : (LayeredState.mk base last).Sound := by
  cases replays <;> assumption

/-- The frames lead through an overlay after each of them, and the watermark never falls. -/
theorem of_append (replays : ReplaysTo base start (frames ++ more) last) :
    ∃ middle, ReplaysTo base start frames middle ∧ middle.next ≤ last.next := by
  -- The frames come off the end, one at a time.
  induction more using List.reverseRecOn generalizing last with
  | nil => exact ⟨last, by rwa [List.append_nil] at replays, NextIds.le_refl _⟩
  | append_singleton rest frame ih =>
    rw [← List.append_assoc] at replays
    generalize split : frames ++ rest ++ [frame] = whole at replays
    cases replays with
    | nil => simp at split
    | snoc prior applied rises sound =>
      obtain ⟨rfl, _⟩ := List.append_inj' split rfl
      obtain ⟨middle, reached, below⟩ := ih prior
      exact ⟨middle, reached, NextIds.le_trans below rises⟩

end ReplaysTo

/-- A bound on a transaction id and on those that frames carry. -/
def Stamped (txn : TransactionId) (frames : List CommitFrame) (bound : TransactionId) : Prop :=
  txn ≤ bound ∧ ∀ frame ∈ frames, frame.txnId ≤ bound

variable {frames : List CommitFrame}

theorem Stamped.mono {txn bound later : TransactionId} (stamped : Stamped txn frames bound)
    (le : bound ≤ later) : Stamped txn frames later :=
  ⟨UInt64.le_trans stamped.1 le, fun frame member => UInt64.le_trans (stamped.2 frame member) le⟩

theorem max_le_txn {txn other bound : TransactionId} :
    max txn other ≤ bound ↔ txn ≤ bound ∧ other ≤ bound := by
  change (if txn ≤ other then other else txn) ≤ bound ↔ _
  simp only [UInt64.le_iff_toNat_le]
  split <;> omega

/-- Folding replayed frames recovers the overlay they lead to, with its own watermark. -/
theorem ReplaysTo.fold {base : BaseRecords} {start last : Overlay}
    (replays : ReplaysTo base start frames last) (lsn : CommitSeq) (txn : TransactionId) :
    ∃ latest, frames.foldlM (Recovery.foldFrame base) ⟨start, start.next, lsn, txn⟩ =
      .ok ⟨last, last.next, (frames.getLast?.map CommitFrame.lsn).getD lsn, latest⟩ ∧
        IsLeast {bound | Stamped txn frames bound} latest := by
  induction replays with
  | nil => exact ⟨txn, rfl, ⟨UInt64.le_refl _, by simp⟩, fun _ bound => bound.1⟩
  | @snoc frames frame middle last prior applied rises _ ih =>
    obtain ⟨latest, folded, ⟨low, each⟩, least⟩ := ih
    obtain ⟨above, own⟩ := max_le_txn.mp (UInt64.le_refl (max latest frame.txnId))
    have covers := Stamped.mono ⟨low, each⟩ above
    refine ⟨max latest frame.txnId, ?_,
      ⟨covers.1, List.forall_mem_append.mpr ⟨covers.2, by simpa using own⟩⟩, fun bound stamped => ?_⟩
    rotate_left
    · obtain ⟨before, last⟩ := List.forall_mem_append.mp stamped.2
      exact max_le_txn.mpr ⟨least ⟨stamped.1, before⟩, last frame (List.mem_singleton_self _)⟩
    rw [List.foldlM_append, folded]
    change (Recovery.foldFrame base _ frame >>= pure) = _
    rw [bind_pure, Recovery.foldFrame]
    dsimp only
    rw [applied, List.getLast?_concat]
    change Except.ok (Recovery.mk last (middle.next.elementwiseMax last.next) frame.lsn _) = _
    rw [NextIds.elementwiseMax_of_le rises]
    rfl

/-- Frames lead to one overlay only, which is the one they fold to. -/
theorem ReplaysTo.unique {base : BaseRecords} {start first last : Overlay}
    (one : ReplaysTo base start frames first) (other : ReplaysTo base start frames last) :
    first = last := by
  obtain ⟨_, folded, _⟩ := one.fold 0 0
  obtain ⟨_, again, _⟩ := other.fold 0 0
  exact congrArg Recovery.overlay (Except.ok.inj (folded.symm.trans again))

/-- The frame of a commit that follows the last one of a log may be appended to the log. -/
theorem LogFrames.push {generation : UInt64} {frame : CommitFrame} {start : CommitSeq}
    (valid : LogFrames generation frames) (sameBase : frame.baseGeneration = generation)
    (fits : frame.recordLen < u32Bound)
    (above : (frames.getLast?.map CommitFrame.lsn).getD start < frame.lsn) :
    LogFrames generation (frames ++ [frame]) := by
  refine ⟨List.forall_mem_append.mpr ⟨valid.sameBase, by simpa using sameBase⟩,
    List.forall_mem_append.mpr ⟨valid.fits, by simpa using fits⟩,
    List.pairwise_append.mpr ⟨valid.ascending, by simp, ?_⟩⟩
  intro before member after new
  rw [List.mem_singleton.mp new]
  -- The last frame is below the new one, and every other frame is below the last.
  rcases List.eq_nil_or_concat' frames with rfl | ⟨front, last, rfl⟩
  · cases member
  rw [List.getLast?_concat] at above
  have ascending := List.pairwise_append.mp valid.ascending
  rcases List.mem_append.mp member with old | same
  · exact UInt64.lt_trans (ascending.2.2 before old last (by simp)) above
  · rwa [List.mem_singleton.mp same]

namespace Db

section Runs

variable [Crc32c] {superblock : SuperblockRecord} {base : BaseView} {records : BaseRecords}
  {database : Db} {frames : List CommitFrame} {R : Type}

/-- A database over a base has published what the frames in its log fold to. -/
structure Holds (superblock : SuperblockRecord) (base : BaseView) (records : BaseRecords)
    (database : Db) (frames : List CommitFrame) : Prop where
  generation : database.baseGeneration = superblock.baseGeneration
  pinned : database.current.generation = superblock.baseGeneration
  lsn : database.current.lsn = (frames.getLast?.map CommitFrame.lsn).getD superblock.commitSeq
  layered : database.current.baseRecords = records
  log : database.log = logBytes frames
  valid : LogFrames superblock.baseGeneration frames
  replays : ReplaysTo records base.freshOverlay frames database.current.overlay
  stamped : Stamped superblock.transactionId frames database.lastTransactionId

theorem Holds.sound (holds : Holds superblock base records database frames) :
    database.current.view.Sound := by
  have sound := holds.replays.sound
  rwa [← holds.layered] at sound

/-- A commit that succeeds had nothing to commit, or appended its frame and published the rest. -/
theorem commit_frame {writer : Writer} {lsn : CommitSeq} {reached : Db}
    (committed : commit writer database = (.ok lsn, reached)) :
    (writer.delta.isEmpty = true ∧ reached = database) ∨ ∃ frame : CommitFrame,
      frame.lsn = lsn ∧ frame.txnId = writer.transactionId ∧
      frame.baseGeneration = database.baseGeneration ∧
      frame.ops = writer.delta.takeFrame.ops ∧ frame.blob = writer.delta.takeFrame.blob ∧
      checkedNext writer.parent.lsn = some lsn ∧ frame.recordLen < u32Bound ∧
      reached = ⟨{ writer.parent with lsn, overlay := writer.delta.freeze },
        database.baseGeneration, writer.transactionId, database.log ++ frame.record⟩ := by
  unfold commit at committed
  split at committed
  · rename_i nothing
    cases committed
    exact .inl ⟨nothing, rfl⟩
  split at committed
  · cases committed
  rename_i next drawn
  simp only at committed
  split at committed
  · cases committed
  · rename_i record encoded
    cases committed
    obtain ⟨fits, rfl⟩ := @of_encodeCommit _ ⟨lsn, writer.transactionId, database.baseGeneration,
      writer.delta.takeFrame.ops, writer.delta.takeFrame.blob⟩ record encoded
    exact .inr ⟨_, rfl, rfl, rfl, rfl, rfl, drawn, fits, rfl⟩

/-- A transaction appends one frame that folds to what it publishes, or nothing at all. -/
theorem Holds.write (holds : Holds superblock base records database frames)
    {body : Mutation DbError Writer R} (guarded : Writer.Guarded body) :
    (Holds superblock base records (write body database).2 frames ∧
        (write body database).2.current = database.current) ∨
      ∃ frame, Holds superblock base records (write body database).2 (frames ++ [frame]) := by
  have burnt {id : TransactionId} (later : database.lastTransactionId ≤ id) :
      Holds superblock base records { database with lastTransactionId := id } frames :=
    { holds with stamped := holds.stamped.mono later }
  rcases written : Db.write body database with ⟨_ | ⟨value, outcome⟩, reached⟩
  · obtain ⟨id, later, rfl⟩ := write_error written
    exact .inl ⟨burnt later, rfl⟩
  obtain ⟨writer, middle, started, finished⟩ := Mutation.bind_ok.mp written
  obtain ⟨id, later, rfl, rfl⟩ := beginWrite_ok started
  change finish (body (database.begun id)) _ = _ at finished
  have steps := guarded (database.begun id)
  unfold Mutation.Steps at steps
  rcases ran : body (database.begun id) with ⟨_ | result, last⟩
  · rw [ran] at finished
    cases finished
  rw [ran] at finished steps
  obtain ⟨lsn, final, committed, returned⟩ := Mutation.bind_ok.mp finished
  cases returned
  obtain ⟨parent, same⟩ := Writer.Step.parent_eq steps
  change last.parent = database.current at parent
  change last.transactionId = id at same
  rcases commit_frame committed with
    ⟨_, rfl⟩ | ⟨frame, rfl, stamp, sameBase, ops, blob, drawn, fits, rfl⟩
  · exact .inl ⟨burnt later, rfl⟩
  -- The frame replays the steps its writer took, over the overlay it started from.
  have known := Writer.Step.known_steps steps holds.sound.coherent
  have above : (frames.getLast?.map CommitFrame.lsn).getD superblock.commitSeq < frame.lsn := by
    have grown := toNat_of_checkedNext drawn
    rw [parent] at grown
    rw [← holds.lsn, UInt64.lt_iff_toNat_lt]
    omega
  have short : last.delta.takeFrame.blob.length < usizeBound := by
    rw [← blob]
    unfold CommitFrame.recordLen at fits
    have small : u32Bound < usizeBound := by decide
    omega
  have replayed := (journals_fromOverlay database.current.baseRecords
    database.current.overlay).steps known |>.replay_takeFrame frame.lsn short
  rw [← ops, ← blob, holds.layered] at replayed
  have sound := Writer.Step.sound steps holds.sound
  rw [Writer.merged, Writer.base, parent, holds.layered] at sound
  rw [parent]
  refine .inr ⟨frame, holds.generation, holds.pinned, ?_, holds.layered, ?_, ?_, ?_, ?_⟩
  · rw [List.getLast?_concat]
    rfl
  · change database.log ++ frame.record = _
    rw [holds.log, logBytes_append, logBytes_cons]
    simp [logBytes]
  · exact LogFrames.push holds.valid (sameBase.trans holds.generation) fits above
  · exact .snoc holds.replays replayed (DeltaStep.rises known) sound
  · obtain ⟨low, each⟩ := holds.stamped.mono later
    rw [← same] at low each
    exact ⟨low, List.forall_mem_append.mpr ⟨each, by simp [stamp]⟩⟩

/-- A transaction only appends to the frames of the log. -/
theorem Holds.grows (holds : Holds superblock base records database frames)
    {body : Mutation DbError Writer R} (guarded : Writer.Guarded body) :
    ∃ more, Holds superblock base records (Db.write body database).2 (frames ++ more) := by
  rcases holds.write guarded with ⟨same, _⟩ | ⟨frame, grown⟩
  · exact ⟨[], by rwa [List.append_nil]⟩
  · exact ⟨[frame], grown⟩

theorem Holds.runAll (holds : Holds superblock base records database frames)
    {transactions : List (Mutation DbError Writer R)}
    (guarded : ∀ body ∈ transactions, Writer.Guarded body) : ∃ more,
      Holds superblock base records (Db.runAll transactions database).2 (frames ++ more) := by
  induction transactions generalizing database frames with
  | nil => exact ⟨[], by rwa [List.append_nil]⟩
  | cons body rest ih =>
    obtain ⟨first, others⟩ := List.forall_mem_cons.mp guarded
    obtain ⟨more, grown⟩ := holds.grows first
    obtain ⟨some, all⟩ := ih grown others
    exact ⟨more ++ some, by rwa [List.append_assoc] at all⟩

variable {more : List CommitFrame}

/-- A database whose log holds more frames went through one that held fewer. -/
theorem Holds.of_append (holds : Holds superblock base records database (frames ++ more)) :
    ∃ earlier : Db, Holds superblock base records earlier frames ∧
      earlier.current.overlay.next ≤ database.current.overlay.next := by
  obtain ⟨middle, replays, below⟩ := holds.replays.of_append
  exact ⟨⟨⟨_, _, middle, records⟩, _, database.lastTransactionId, _⟩, ⟨rfl, rfl, rfl, rfl, rfl,
    ⟨fun frame member => holds.valid.sameBase frame (List.mem_append_left _ member),
      fun frame member => holds.valid.fits frame (List.mem_append_left _ member),
      (List.pairwise_append.mp holds.valid.ascending).1⟩, replays, holds.stamped.1,
    fun frame member => holds.stamped.2 frame (List.mem_append_left _ member)⟩, below⟩

/-- A log cut past the frames of a database, and within the next frame, recovers it. -/
theorem Holds.recover_take (holds : Holds superblock base records database frames)
    (opened : BaseRecords.open base = .ok records) {cut : Nat}
    (valid : LogFrames superblock.baseGeneration (frames ++ more))
    (fits : (logBytes frames).length ≤ cut)
    (torn : ∀ frame, more.head? = some frame → cut < (logBytes (frames ++ [frame])).length) :
    ∃ recovered, Db.recover superblock base ((logBytes (frames ++ more)).take cut) = .ok recovered ∧
      recovered.current = database.current ∧ recovered.log = database.log ∧
      recovered.lastTransactionId ≤ database.lastTransactionId ∧
      Holds superblock base records recovered frames := by
  have replayed := @replay_logBytes_take _ _ _ frames.length _ valid (by simp)
    (by simpa using fits) fun some => by
      cases more with
      | nil => simp at some
      | cons frame rest =>
        rw [List.take_append, List.take_of_length_le (Nat.le_succ _)]
        simpa using torn frame rfl
  rw [List.take_left] at replayed
  -- Recovery truncates what is left of the torn record.
  have cutLog : (logBytes (frames ++ more)).take cut =
      logBytes frames ++ (logBytes more).take (cut - (logBytes frames).length) := by
    rw [logBytes_append, List.take_append, List.take_of_length_le fits]
  rw [cutLog] at replayed ⊢
  generalize (logBytes more).take _ = tail at replayed ⊢
  have kept : (if (logBytes frames).length < (logBytes frames ++ tail).length then
      (logBytes frames ++ tail).take (logBytes frames).length else logBytes frames ++ tail) =
        logBytes frames := by
    cases tail <;> simp
  obtain ⟨latest, folded, stamped, least⟩ :=
    holds.replays.fold superblock.commitSeq superblock.transactionId
  have current : database.current = ⟨superblock.baseGeneration,
      (frames.getLast?.map CommitFrame.lsn).getD superblock.commitSeq,
      database.current.overlay, records⟩ := by
    rw [← holds.pinned, ← holds.lsn, ← holds.layered]
  refine ⟨⟨database.current, superblock.baseGeneration, latest, logBytes frames⟩, ?_, rfl,
    holds.log.symm, least holds.stamped,
    ⟨rfl, holds.pinned, holds.lsn, holds.layered, rfl, holds.valid, holds.replays, stamped⟩⟩
  unfold Db.recover
  refine bind_eq_ok.mpr ⟨records, opened, ?_⟩
  refine bind_eq_ok.mpr ⟨_, mapError_eq_ok.mpr (by rw [recoverLog, replayed]), ?_⟩
  refine bind_eq_ok.mpr ⟨_, folded, ?_⟩
  dsimp only
  rw [kept, current]
  rfl

/-- A crash that keeps the log of some frames leaves a database with these frames and some more. -/
theorem Holds.crash {cut : Nat} (holds : Holds superblock base records database (frames ++ more))
    (opened : BaseRecords.open base = .ok records) (durable : (logBytes frames).length ≤ cut) :
    ∃ kept recovered, Db.recover superblock base (database.log.take cut) = .ok recovered ∧
      Holds superblock base records recovered (frames ++ more.take kept) := by
  obtain ⟨kept, few, fits, maximal⟩ := exists_kept more (cut - (logBytes frames).length)
  have split : frames ++ more = frames ++ more.take kept ++ more.drop kept := by simp
  rw [split] at holds
  obtain ⟨earlier, held, _⟩ := holds.of_append
  have whole : (logBytes (frames ++ more.take kept)).length ≤ cut := by
    rw [logBytes_append, List.length_append]
    omega
  obtain ⟨recovered, again, _, _, _, result⟩ :=
    held.recover_take opened holds.valid whole fun frame first => by
      rw [List.head?_drop] at first
      have next := maximal (List.getElem?_eq_some_iff.mp first).1
      rw [List.take_add_one, first] at next
      rw [List.append_assoc, logBytes_append, List.length_append]
      change cut - _ < (logBytes (more.take kept ++ [frame])).length at next
      omega
  rw [← holds.log] at again
  exact ⟨kept, recovered, again, result⟩

/-- Transactions over a store, and crashes after which its files are opened again with what they
kept of its log, of which the first bytes are durable. -/
inductive Run (files : Files) (durable : Nat) (start : Db) : Db → Prop
  | start : Run files durable start start
  | wrote {database : Db} {R : Type} (before : Run files durable start database)
      {body : Mutation DbError Writer R} (guarded : Writer.Guarded body) :
      Run files durable start (write body database).2
  | crashed {database recovered : Db} (before : Run files durable start database)
      {cut : Nat} (kept : durable ≤ cut)
      (again : files.open (database.log.take cut) = .ok recovered) :
      Run files durable start recovered

variable {files : Files} (stored : files.Store superblock base records)
include stored

/-- A run never loses a frame that is durable where it starts. -/
theorem Run.holds {durable : Nat} {start : Db} (run : Run files durable start database)
    (holds : Holds superblock base records start frames) (fits : start.log.length ≤ durable) :
    ∃ more, Holds superblock base records database (frames ++ more) := by
  induction run with
  | start => exact ⟨[], by rwa [List.append_nil]⟩
  | wrote _ guarded ih =>
    obtain ⟨more, held⟩ := ih
    obtain ⟨others, grown⟩ := held.grows guarded
    exact ⟨more ++ others, by rwa [List.append_assoc] at grown⟩
  | crashed _ kept again ih =>
    obtain ⟨more, held⟩ := ih
    obtain ⟨some, recovered, opens, result⟩ :=
      held.crash stored.opened (holds.log ▸ Nat.le_trans fits kept)
    rw [stored.open_eq] at again
    cases again.symm.trans opens
    exact ⟨more.take some, result⟩

omit stored in
/-- The databases that runs lead to from the files of a base whose log is still empty. -/
def Reached (files : Files) (database : Db) : Prop :=
  ∃ start, files.open [] = .ok start ∧ Run files 0 start database

/-- Every database reached has published what the frames in its log fold to. -/
theorem Reached.holds (reached : Reached files database) :
    ∃ frames, Holds superblock base records database frames := by
  obtain ⟨start, fresh, run⟩ := reached
  -- Over an empty log there is nothing to fold.
  have holds : Holds superblock base records start [] := by
    rw [stored.open_eq] at fresh
    unfold Db.recover at fresh
    rw [stored.opened] at fresh
    cases fresh
    exact ⟨rfl, rfl, rfl, rfl, rfl, ⟨by simp, by simp, .nil⟩, .nil stored.sound, UInt64.le_refl _,
      by simp⟩
  exact run.holds stored holds (holds.log ▸ Nat.le_refl _)

omit stored in
/-- Opening a log cut short recovers what the longest prefix of the transactions published whose
frames the log kept. -/
def RecoversPrefix (files : Files) (transactions : List (Mutation DbError Writer R)) (database : Db)
    (cut : Nat) : Prop :=
  ∃ kept ≤ transactions.length, ∃ recovered,
    files.open ((runAll transactions database).2.log.take cut) = .ok recovered ∧
    recovered.current = (runAll (transactions.take kept) database).2.current ∧
    recovered.log = (runAll (transactions.take kept) database).2.log ∧
    recovered.lastTransactionId ≤
      (runAll (transactions.take kept) database).2.lastTransactionId ∧
    recovered.log.length ≤ cut ∧ ∀ done ≤ transactions.length,
      (runAll (transactions.take done) database).2.log.length ≤ cut → done ≤ kept

/-- A log cut past the frames a run starts from recovers what a prefix of the run published. -/
theorem Holds.recoversPrefix {transactions : List (Mutation DbError Writer R)}
    (guarded : ∀ body ∈ transactions, Writer.Guarded body)
    (holds : Holds superblock base records database frames) {cut : Nat}
    (durable : database.log.length ≤ cut) : RecoversPrefix files transactions database cut := by
  -- The transactions come off the front, as long as what they appended lies before the cut.
  induction transactions generalizing database frames with
  | nil =>
    obtain ⟨recovered, again, current, log, stamp, _⟩ := holds.recover_take stored.opened
      ((List.append_nil frames).symm ▸ holds.valid) (holds.log ▸ durable) (by simp)
    rw [List.append_nil, ← holds.log, ← stored.open_eq] at again
    exact ⟨0, Nat.le_refl _, recovered, again, current, log, stamp, log ▸ durable,
      fun done none _ => none⟩
  | cons body rest ih =>
    obtain ⟨first, others⟩ := List.forall_mem_cons.mp guarded
    have landed {frames : List CommitFrame}
        (holds : Holds superblock base records (Db.write body database).2 frames)
        (durable : (Db.write body database).2.log.length ≤ cut) :
        RecoversPrefix files (body :: rest) database cut := by
      obtain ⟨kept, few, recovered, again, current, log, stamp, inside, longest⟩ :=
        ih others holds durable
      refine ⟨kept + 1, Nat.succ_le_succ few, recovered, again, current, log, stamp, inside, ?_⟩
      rintro (_ | done) some fits
      · exact Nat.zero_le _
      · exact Nat.succ_le_succ (longest done (Nat.le_of_succ_le_succ some) fits)
    rcases holds.write first with ⟨same, _⟩ | ⟨frame, grown⟩
    · exact landed same (by rw [same.log, ← holds.log]; exact durable)
    by_cases fits : (Db.write body database).2.log.length ≤ cut
    · exact landed grown fits
    -- The first frame the run appends is torn, so what was there before it is recovered.
    rw [grown.log] at fits
    obtain ⟨more, all⟩ := grown.runAll others
    have valid := all.valid
    rw [List.append_assoc] at valid
    obtain ⟨recovered, again, current, log, stamp, _⟩ := holds.recover_take stored.opened valid
      (holds.log ▸ durable) fun torn first => by
        cases first
        exact Nat.lt_of_not_le fits
    rw [← List.append_assoc, ← all.log, ← stored.open_eq] at again
    refine ⟨0, Nat.zero_le _, recovered, again, current, log, stamp, log ▸ durable, ?_⟩
    rintro (_ | done) _ whole
    · exact Nat.le_refl _
    · obtain ⟨more, some⟩ := grown.runAll fun body member =>
        others body (List.mem_of_mem_take (i := done) member)
      have below : (Db.runAll (rest.take done) (Db.write body database).2).2.log.length ≤ cut := whole
      rw [some.log, logBytes_append, List.length_append] at below
      omega

/-- A crash that tears a log anywhere leaves files that open, with the longest prefix of the
transactions whose frames they kept. -/
theorem recover_torn (reached : Reached files database)
    {transactions : List (Mutation DbError Writer R)}
    (guarded : ∀ body ∈ transactions, Writer.Guarded body) {cut : Nat}
    (durable : database.log.length ≤ cut) : RecoversPrefix files transactions database cut := by
  obtain ⟨frames, holds⟩ := reached.holds stored
  exact holds.recoversPrefix stored guarded durable

end Runs

/-- Opening the files of a created store gives a database that has published nothing. -/
theorem opened_created [Crc32c] : Files.created.open [] = .ok created :=
  created_store.open_eq []

theorem reached_created [Crc32c] : Reached .created created := ⟨created, opened_created, .start⟩

/-- A log torn inside the second transaction's frame recovers what the first one published. -/
theorem RecoversPrefix.first [Crc32c] {R : Type} {files : Files} {database : Db} {cut : Nat}
    {one other : Mutation DbError Writer R}
    (recovers : RecoversPrefix files [one, other] database cut)
    (fits : (write one database).2.log.length ≤ cut)
    (torn : cut < (write other (write one database).2).2.log.length) :
    ∃ recovered,
      files.open ((write other (write one database).2).2.log.take cut) = .ok recovered ∧
      recovered.current = (write one database).2.current ∧
      recovered.lastTransactionId ≤ (write one database).2.lastTransactionId ∧
      recovered.log.length ≤ cut := by
  obtain ⟨kept, few, recovered, again, current, log, stamp, inside, longest⟩ := recovers
  have some := longest 1 (by simp) fits
  simp only [List.length_cons, List.length_nil] at few
  obtain rfl | rfl : kept = 1 ∨ kept = 2 := by omega
  · exact ⟨recovered, again, current, stamp, inside⟩
  · rw [log] at inside
    exact absurd inside (Nat.not_le_of_lt torn)

/-- Creates an element. -/
def Program.element : Program Unit := .calls [.createElement]

/-- Of two transactions that each create an element, the first survives when the log is torn inside
the second's frame, and survives again when the next transaction's frame is torn too. -/
theorem recover_torn_created :
    letI : Crc32c := castagnoli
    let first := (write Program.element.run created).2
    ∃ recovered, Files.created.open ((write Program.element.run first).2.log.take 350) =
        .ok recovered ∧
      recovered.current.view.containsElement 1 = true ∧
      RecoversPrefix .created [Program.element.run] recovered 350 := by
  let _ : Crc32c := castagnoli
  have guarded : ∀ body ∈ [Program.element.run, Program.element.run], Writer.Guarded body := by
    simpa using Program.element.run_guarded
  -- The frames end at 200 and 400.
  obtain ⟨recovered, again, current, _, inside⟩ :=
    (recover_torn created_store reached_created guarded (Nat.zero_le 350)).first
      (by decide +kernel) (by decide +kernel)
  have run : Run .created 0 created recovered :=
    .crashed (.wrote (.wrote .start Program.element.run_guarded) Program.element.run_guarded)
      (Nat.zero_le _) again
  refine ⟨recovered, again, ?_, recover_torn created_store ⟨created, opened_created, run⟩
    (by simpa using Program.element.run_guarded) inside⟩
  rw [current]
  decide +kernel

end Db

end Oxgraph
