import Oxgraph.Db.Wal

/-! A delta log cut anywhere replays to the records that lie wholly before the cut. -/

namespace Oxgraph

open FixedLayout (length_asBytes size_pos)

variable [Crc32c]

/-- The bytes of a header before its checksum field. -/
def LogRecordHeader.prefixBytes (header : LogRecordHeader) : Bytes :=
  asBytes (header.baseGeneration, header.lsn, header.txnId, header.magic, header.len,
    header.opCount)

omit [Crc32c] in
/-- The checksum field ends the header. -/
theorem asBytes_header (header : LogRecordHeader) :
    asBytes header = header.prefixBytes ++ asBytes header.crc32c := by
  change asBytes (header.baseGeneration, header.lsn, header.txnId, header.magic, header.len,
    header.opCount, header.crc32c) = _
  simp only [LogRecordHeader.prefixBytes, FixedLayout.asBytes, List.append_assoc]

omit [Crc32c] in
/-- Everything before the checksum field occupies its offset. -/
theorem length_prefixBytes (header : LogRecordHeader) :
    header.prefixBytes.length = headerCrcOffset :=
  length_asBytes _

/-- The checksum of a record does not depend on the stored checksum. -/
theorem recordCrc_header (header : LogRecordHeader) (body : Bytes) :
    recordCrc (asBytes header ++ body) =
      checksumAppend (checksum header.prefixBytes) body := by
  have start : (asBytes header ++ body).take headerCrcOffset = header.prefixBytes := by
    rw [asBytes_header, List.append_assoc, List.take_left' (length_prefixBytes header)]
  have rest : (asBytes header ++ body).drop (headerCrcOffset + FixedLayout.size UInt32) = body :=
    List.drop_left' (length_asBytes header)
  rw [recordCrc, start, rest]

variable (frame : CommitFrame)

/-- The length of a frame's record. -/
def CommitFrame.recordLen : Nat :=
  headerLen + frame.ops.length * opLen + frame.blob.length

/-- The bytes after a frame's header. -/
def CommitFrame.body : Bytes := arrayBytes frame.ops ++ frame.blob

/-- A frame's header before its checksum is computed. -/
def CommitFrame.unstamped : LogRecordHeader :=
  { baseGeneration := frame.baseGeneration, lsn := frame.lsn, txnId := frame.txnId,
    magic := oxglogr, len := .ofNat frame.recordLen, opCount := .ofNat frame.ops.length,
    crc32c := 0 }

/-- A frame's header with its checksum stamped. -/
def CommitFrame.header : LogRecordHeader :=
  { frame.unstamped with
    crc32c := checksumAppend (checksum frame.unstamped.prefixBytes) frame.body }

/-- A frame's record. -/
def CommitFrame.record : Bytes := asBytes frame.header ++ frame.body

omit [Crc32c] in
@[simp] theorem length_body :
    frame.body.length = frame.ops.length * opLen + frame.blob.length := by
  simp [CommitFrame.body, opLen]

@[simp] theorem length_record : frame.record.length = frame.recordLen := by
  simp only [CommitFrame.record, List.length_append, length_body, length_asBytes,
    CommitFrame.recordLen, headerLen]
  omega

omit [Crc32c] in
theorem headerLen_le_recordLen : headerLen ≤ frame.recordLen := by
  unfold CommitFrame.recordLen
  omega

/-- Encoding a frame yields its record exactly when the length fits the header. -/
theorem encodeCommit_eq :
    encodeCommit frame.lsn frame.txnId frame.baseGeneration frame.ops frame.blob =
      if frame.recordLen < u32Bound then .ok frame.record
      else .error (.invalidStore "delta-log record too large") := by
  have crc : recordCrc (asBytes frame.unstamped ++ arrayBytes frame.ops ++ frame.blob) =
      frame.header.crc32c := by
    rw [List.append_assoc]
    exact recordCrc_header frame.unstamped frame.body
  have start : (asBytes frame.unstamped ++ arrayBytes frame.ops ++ frame.blob).take
      headerCrcOffset = frame.header.prefixBytes := by
    rw [asBytes_header, List.append_assoc, List.append_assoc,
      List.take_left' (length_prefixBytes frame.unstamped)]
    rfl
  have rest : (asBytes frame.unstamped ++ arrayBytes frame.ops ++ frame.blob).drop
      (headerCrcOffset + FixedLayout.size UInt32) = frame.body := by
    rw [List.append_assoc]
    exact List.drop_left' (length_asBytes frame.unstamped)
  by_cases fits : frame.recordLen < u32Bound
  · -- The op count is bounded by the record length, so the second check cannot fail.
    have few : ¬ frame.ops.length ≥ u32Bound := by
      have wide : frame.ops.length ≤ frame.ops.length * opLen :=
        Nat.le_mul_of_pos_right _ size_pos
      unfold CommitFrame.recordLen at fits
      omega
    rw [if_pos fits, encodeCommit]
    simp only [few, if_false]
    rw [if_neg (by unfold CommitFrame.recordLen at fits; omega)]
    change Except.ok ((asBytes frame.unstamped ++ arrayBytes frame.ops ++ frame.blob).take
      headerCrcOffset ++ asBytes (recordCrc (asBytes frame.unstamped ++ arrayBytes frame.ops ++
        frame.blob)) ++ (asBytes frame.unstamped ++ arrayBytes frame.ops ++ frame.blob).drop
          (headerCrcOffset + FixedLayout.size UInt32)) = _
    rw [crc, start, rest, CommitFrame.record, asBytes_header]
  · have long : headerLen + frame.ops.length * opLen + frame.blob.length ≥ u32Bound :=
      Nat.le_of_not_lt fits
    rw [if_neg fits, encodeCommit]
    simp only [long, if_true]

/-- A frame that encodes fits the header, and its bytes are its record. -/
theorem of_encodeCommit {frame : CommitFrame} {record : Bytes}
    (encoded : encodeCommit frame.lsn frame.txnId frame.baseGeneration frame.ops frame.blob =
      .ok record) : frame.recordLen < u32Bound ∧ record = frame.record := by
  rw [encodeCommit_eq] at encoded
  split at encoded
  · rename_i fits
    cases encoded
    exact ⟨fits, rfl⟩
  · cases encoded

section Parsing

variable {frame : CommitFrame}

/-- The header's length word reads back as the record's length. -/
theorem toNat_header_len (fits : frame.recordLen < u32Bound) :
    frame.header.len.toNat = frame.recordLen :=
  UInt32.toNat_ofNat_of_lt' fits

/-- The header's op count reads back as the number of ops. -/
theorem toNat_header_opCount (fits : frame.recordLen < u32Bound) :
    frame.header.opCount.toNat = frame.ops.length := by
  have wide : frame.ops.length ≤ frame.ops.length * opLen :=
    Nat.le_mul_of_pos_right _ size_pos
  unfold CommitFrame.recordLen at fits
  exact UInt32.toNat_ofNat_of_lt' (by unfold u32Bound at fits; simp [UInt32.size]; omega)

omit [Crc32c] in
/-- The framing computed from a frame's own header never overflows. -/
theorem bodyLen_eq (fits : frame.recordLen < u32Bound) :
    ((checkedMul frame.ops.length opLen).bind fun opsBytes => checkedAdd opsBytes headerLen) =
      some (headerLen + frame.ops.length * opLen) := by
  unfold CommitFrame.recordLen at fits
  have small : u32Bound < usizeBound := by decide
  rw [checkedMul, if_pos (by omega), Option.bind_some, checkedAdd, if_pos (by omega),
    Nat.add_comm]

/-- Decoding a record recovers its ops and blob. -/
theorem decodeOps_record (frame : CommitFrame) :
    decodeOps frame.record (headerLen + frame.ops.length * opLen) = (frame.ops, frame.blob) := by
  have front : (asBytes frame.header ++ arrayBytes frame.ops).length =
      headerLen + frame.ops.length * opLen := by
    simp [headerLen, opLen]
  have split : frame.record = (asBytes frame.header ++ arrayBytes frame.ops) ++ frame.blob := by
    rw [CommitFrame.record, CommitFrame.body, List.append_assoc]
  have ops : (frame.record.take (headerLen + frame.ops.length * opLen)).drop headerLen =
      arrayBytes frame.ops := by
    rw [split, List.take_left' front]
    exact List.drop_left' (length_asBytes frame.header)
  have blob : frame.record.drop (headerLen + frame.ops.length * opLen) = frame.blob := by
    rw [split, List.drop_left' front]
  have count : (arrayBytes frame.ops).length / opLen = frame.ops.length := by
    rw [length_arrayBytes]
    exact Nat.mul_div_cancel _ size_pos
  have read := readArray_arrayBytes frame.ops []
  rw [List.append_nil] at read
  simp only [decodeOps, ops, blob, count, read]

/-- A record at the head of a log parses to its frame, whatever follows it. -/
theorem parseOneRecord_record (fits : frame.recordLen < u32Bound) (rest : Bytes)
    (cursor : LsnCursor) (ascending : cursor.seen = true → cursor.lastLsn < frame.lsn) :
    parseOneRecord frame.baseGeneration (frame.record ++ rest) cursor =
      .frame frame frame.recordLen := by
  have long : headerLen ≤ frame.recordLen := headerLen_le_recordLen frame
  have total : (frame.record ++ rest).length = frame.recordLen + rest.length := by
    rw [List.length_append, length_record]
  have header : readFromPrefix (frame.record ++ rest) = frame.header := by
    rw [CommitFrame.record, List.append_assoc, FixedLayout.read_asBytes]
  have whole : (frame.record ++ rest).take frame.recordLen = frame.record :=
    List.take_left' (length_record frame)
  have crc : recordCrc frame.record = frame.header.crc32c := recordCrc_header frame.header _
  have framed : ¬ (frame.recordLen < headerLen + frame.ops.length * opLen ∨
      frame.recordLen < headerLen) := by
    unfold CommitFrame.recordLen
    omega
  have fresh : ¬ (cursor.seen = true ∧ frame.lsn ≤ cursor.lastLsn) := by
    rintro ⟨seen, below⟩
    have above := ascending seen
    rw [UInt64.lt_iff_toNat_lt] at above
    rw [UInt64.le_iff_toNat_le] at below
    omega
  have magic : frame.header.magic = oxglogr := rfl
  have generation : frame.header.baseGeneration = frame.baseGeneration := rfl
  have lsn : frame.header.lsn = frame.lsn := rfl
  rw [parseOneRecord, if_neg (by omega)]
  -- Every check of the parser is answered by the header the record starts with.
  simp only [header, toNat_header_len fits, toNat_header_opCount fits, bodyLen_eq fits, magic,
    generation, lsn, ne_eq, not_true_eq_false, if_false, framed, whole, crc, fresh,
    decodeOps_record]
  rw [if_neg (by omega)]
  rfl

/-- A record cut short of its end parses as a torn tail. -/
theorem parseOneRecord_torn (fits : frame.recordLen < u32Bound) {cut : Nat}
    (short : cut < frame.recordLen) (cursor : LsnCursor) :
    parseOneRecord frame.baseGeneration (frame.record.take cut) cursor = .stop := by
  have total : (frame.record.take cut).length = cut := by
    rw [List.length_take, length_record]
    omega
  by_cases headless : cut < headerLen
  · rw [parseOneRecord, if_pos (by omega)]
  · -- The whole header survived the cut, and it declares more bytes than remain.
    have header : readFromPrefix (frame.record.take cut) = frame.header := by
      have split : frame.record.take cut =
          asBytes frame.header ++ frame.body.take (cut - headerLen) := by
        rw [CommitFrame.record, List.take_append, length_asBytes]
        rw [List.take_of_length_le]
        · rfl
        · rw [length_asBytes]
          exact Nat.le_of_not_lt headless
      rw [split, FixedLayout.read_asBytes]
    have magic : frame.header.magic = oxglogr := rfl
    have generation : frame.header.baseGeneration = frame.baseGeneration := rfl
    have framed : ¬ (frame.recordLen < headerLen + frame.ops.length * opLen ∨
        frame.recordLen < headerLen) := by
      unfold CommitFrame.recordLen
      omega
    rw [parseOneRecord, if_neg (by omega)]
    simp only [header, toNat_header_len fits, toNat_header_opCount fits, bodyLen_eq fits, magic,
      generation, ne_eq, not_true_eq_false, if_false, framed, total]
    rw [if_pos (by omega)]

end Parsing

/-- The outcome of replaying a run of frames, on top of what was recovered before it. -/
def extendOutcome (outcome : ReplayOutcome) (frames : List CommitFrame) : ReplayOutcome :=
  frames.foldl (fun outcome frame =>
    { frames := outcome.frames ++ [frame], validLen := outcome.validLen + frame.recordLen,
      lastLsn := frame.lsn, lastTxn := frame.txnId }) outcome

/-- The bytes of a run of frames. -/
def logBytes (frames : List CommitFrame) : Bytes := frames.flatMap CommitFrame.record

@[simp] theorem logBytes_cons (rest : List CommitFrame) :
    logBytes (frame :: rest) = frame.record ++ logBytes rest := rfl

@[simp] theorem logBytes_append (left right : List CommitFrame) :
    logBytes (left ++ right) = logBytes left ++ logBytes right := List.flatMap_append

/-- The outcome of a run lists its frames, measures its bytes, and names its last frame. -/
theorem extendOutcome_eq (outcome : ReplayOutcome) (frames : List CommitFrame) :
    extendOutcome outcome frames =
      { frames := outcome.frames ++ frames
        validLen := outcome.validLen + (logBytes frames).length
        lastLsn := (frames.getLast?.map CommitFrame.lsn).getD outcome.lastLsn
        lastTxn := (frames.getLast?.map CommitFrame.txnId).getD outcome.lastTxn } := by
  induction frames generalizing outcome with
  | nil => simp [extendOutcome, logBytes]
  | cons frame rest ih =>
    have step : extendOutcome outcome (frame :: rest) = extendOutcome
        { frames := outcome.frames ++ [frame], validLen := outcome.validLen + frame.recordLen,
          lastLsn := frame.lsn, lastTxn := frame.txnId } rest := rfl
    rw [step, ih]
    cases rest <;> simp [logBytes, List.getLast?_cons, Nat.add_assoc]

/-- The frames a log may hold: one base generation, lengths that fit, and ascending LSNs. -/
structure LogFrames (baseGeneration : UInt64) (frames : List CommitFrame) : Prop where
  sameBase : ∀ frame ∈ frames, frame.baseGeneration = baseGeneration
  fits : ∀ frame ∈ frames, frame.recordLen < u32Bound
  ascending : frames.Pairwise fun before after => before.lsn < after.lsn

omit [Crc32c] in
/-- The frames after the first are the frames of a log whose LSNs follow the first. -/
theorem LogFrames.tail {baseGeneration : UInt64} {frame : CommitFrame} {rest : List CommitFrame}
    (valid : LogFrames baseGeneration (frame :: rest)) : LogFrames baseGeneration rest where
  sameBase other member := valid.sameBase other (List.mem_cons_of_mem _ member)
  fits other member := valid.fits other (List.mem_cons_of_mem _ member)
  ascending := (List.pairwise_cons.mp valid.ascending).2

/--
The replay loop walks the frames before a cut and stops there.

`kept` frames lie wholly before the cut, and the cut falls inside the record after them.
-/
theorem replayLoop_take {baseGeneration : UInt64} {frames : List CommitFrame} {kept cut : Nat}
    (valid : LogFrames baseGeneration frames) (keptFits : (logBytes (frames.take kept)).length ≤ cut)
    (maximal : kept < frames.length → cut < (logBytes (frames.take (kept + 1))).length)
    (few : kept ≤ frames.length) (outcome : ReplayOutcome) (seen : Bool) (fuel : Nat)
    (enough : ((logBytes frames).take cut).length ≤ fuel)
    (above : seen = true → ∀ frame ∈ frames, outcome.lastLsn < frame.lsn) :
    replayLoop baseGeneration fuel outcome seen ((logBytes frames).take cut) =
      .ok (extendOutcome outcome (frames.take kept)) := by
  -- The induction walks the kept frames; the step after them meets the end or a torn record.
  induction kept generalizing frames cut outcome seen fuel with
  | zero =>
    cases frames with
    | nil => cases fuel <;> simp [replayLoop, logBytes, extendOutcome]
    | cons frame rest =>
      have short : cut < frame.recordLen := by simpa [logBytes] using maximal (by simp)
      have cutFrame : (logBytes (frame :: rest)).take cut = frame.record.take cut := by
        rw [logBytes_cons, List.take_append_of_le_length (by rw [length_record]; omega)]
      have torn := parseOneRecord_torn (valid.fits frame (by simp)) short ⟨outcome.lastLsn, seen⟩
      rw [valid.sameBase frame (by simp)] at torn
      rw [cutFrame]
      cases fuel with
      | zero => rfl
      | succ fuel =>
        rw [replayLoop, torn]
        split <;> rfl
  | succ kept ih =>
    cases frames with
    | nil => simp at few
    | cons frame rest =>
      have frameFits := valid.fits frame (by simp)
      have whole : frame.recordLen ≤ cut := by
        have := keptFits
        simp [logBytes] at this
        omega
      have positive : 0 < frame.recordLen :=
        Nat.lt_of_lt_of_le size_pos (headerLen_le_recordLen frame)
      have cutFrame : (logBytes (frame :: rest)).take cut =
          frame.record ++ (logBytes rest).take (cut - frame.recordLen) := by
        rw [logBytes_cons, List.take_append, length_record,
          List.take_of_length_le (by rw [length_record]; exact whole)]
      rw [cutFrame] at enough ⊢
      cases fuel with
      | zero => simp at enough; omega
      | succ fuel =>
        have parsed := parseOneRecord_record frameFits
          ((logBytes rest).take (cut - frame.recordLen)) ⟨outcome.lastLsn, seen⟩
          (fun saw => above saw frame (by simp))
        rw [valid.sameBase frame (by simp)] at parsed
        have nonempty : (frame.record ++
            (logBytes rest).take (cut - frame.recordLen)).isEmpty = false := by
          rw [List.isEmpty_eq_false_iff, ← List.length_pos_iff, List.length_append, length_record]
          omega
        have drop : (frame.record ++ (logBytes rest).take (cut - frame.recordLen)).drop
            frame.recordLen = (logBytes rest).take (cut - frame.recordLen) :=
          List.drop_left' (length_record frame)
        rw [replayLoop, nonempty, parsed]
        simp only [Bool.false_eq_true, if_false, drop]
        -- The rest of the log is cut by what the first record left over.
        refine ih valid.tail ?_ ?_ (by simpa using few) _ _ _ ?_ ?_
        · simp [logBytes] at keptFits ⊢
          omega
        · intro more
          have := maximal (by simpa using more)
          simp [logBytes] at this ⊢
          omega
        · rw [List.length_append, length_record] at enough
          omega
        · intro _ later member
          exact (List.pairwise_cons.mp valid.ascending).1 later member

/-- Replaying a log cut at any byte recovers exactly the records wholly before the cut. -/
theorem replay_logBytes_take {baseGeneration : UInt64} {frames : List CommitFrame} {kept cut : Nat}
    (valid : LogFrames baseGeneration frames) (few : kept ≤ frames.length)
    (keptFits : (logBytes (frames.take kept)).length ≤ cut)
    (maximal : kept < frames.length → cut < (logBytes (frames.take (kept + 1))).length) :
    replay baseGeneration ((logBytes frames).take cut) =
      .ok { frames := frames.take kept
            validLen := (logBytes (frames.take kept)).length
            lastLsn := ((frames.take kept).getLast?.map CommitFrame.lsn).getD 0
            lastTxn := ((frames.take kept).getLast?.map CommitFrame.txnId).getD 0 } := by
  have run := replayLoop_take valid keptFits maximal few ⟨[], 0, 0, 0⟩ false _ (Nat.le_refl _)
    (by simp)
  rw [extendOutcome_eq] at run
  simpa [replay] using run

/-- Some number of leading records lies wholly before a cut, and no more. -/
theorem exists_kept (frames : List CommitFrame) (cut : Nat) :
    ∃ kept ≤ frames.length, (logBytes (frames.take kept)).length ≤ cut ∧
      (kept < frames.length → cut < (logBytes (frames.take (kept + 1))).length) := by
  induction frames generalizing cut with
  | nil => exact ⟨0, by simp [logBytes]⟩
  | cons frame rest ih =>
    by_cases whole : frame.recordLen ≤ cut
    · obtain ⟨kept, few, fits, maximal⟩ := ih (cut - frame.recordLen)
      refine ⟨kept + 1, by simpa using few, ?_, ?_⟩
      · simp [logBytes] at fits ⊢
        omega
      · intro more
        have := maximal (by simpa using more)
        simp [logBytes] at this ⊢
        omega
    · exact ⟨0, by simp [logBytes]; omega⟩

/-- Commits that encode one by one are the frames of a log, and their bytes are its bytes. -/
theorem logFrames_of_encoded {baseGeneration : UInt64} {commits : List CommitFrame}
    {records : List Bytes}
    (sameBase : ∀ commit ∈ commits, commit.baseGeneration = baseGeneration)
    (ascending : commits.Pairwise fun before after => before.lsn < after.lsn)
    (encoded : List.Forall₂ (fun commit record =>
      encodeCommit commit.lsn commit.txnId commit.baseGeneration commit.ops commit.blob =
        .ok record) commits records) :
    LogFrames baseGeneration commits ∧ records = commits.map CommitFrame.record := by
  induction encoded with
  | nil => exact ⟨⟨by simp, by simp, by simp⟩, rfl⟩
  | cons head _ ih =>
    obtain ⟨fits, rfl⟩ := of_encodeCommit head
    obtain ⟨valid, rfl⟩ := ih (fun commit member => sameBase commit (List.mem_cons_of_mem _ member))
      (List.pairwise_cons.mp ascending).2
    refine ⟨⟨sameBase, ?_, ascending⟩, rfl⟩
    intro commit member
    rcases List.mem_cons.mp member with rfl | later
    · exact fits
    · exact valid.fits commit later

/--
A log of encoded commits cut at any byte replays to the maximal prefix of whole records.

`kept` is how many records end at or before the cut, and the recovered outcome is theirs.
-/
theorem replay_truncated_recovers_maximal_prefix (baseGeneration : UInt64)
    (commits : List CommitFrame) (records : List Bytes) (cut : Nat)
    (sameBase : ∀ commit ∈ commits, commit.baseGeneration = baseGeneration)
    (ascending : commits.Pairwise fun before after => before.lsn < after.lsn)
    (encoded : List.Forall₂ (fun commit record =>
      encodeCommit commit.lsn commit.txnId commit.baseGeneration commit.ops commit.blob =
        .ok record) commits records) :
    ∃ kept ≤ commits.length,
      (records.take kept).flatten.length ≤ cut ∧
      (kept < commits.length → cut < (records.take (kept + 1)).flatten.length) ∧
      replay baseGeneration (records.flatten.take cut) =
        .ok { frames := commits.take kept
              validLen := (records.take kept).flatten.length
              lastLsn := ((commits.take kept).getLast?.map CommitFrame.lsn).getD 0
              lastTxn := ((commits.take kept).getLast?.map CommitFrame.txnId).getD 0 } := by
  obtain ⟨valid, rfl⟩ := logFrames_of_encoded sameBase ascending encoded
  have bytes (count : Nat) : ((commits.map CommitFrame.record).take count).flatten =
      logBytes (commits.take count) := by
    rw [← List.map_take, logBytes, List.flatMap_def]
  have whole : (commits.map CommitFrame.record).flatten = logBytes commits := by
    rw [logBytes, List.flatMap_def]
  obtain ⟨kept, few, fits, maximal⟩ := exists_kept commits cut
  refine ⟨kept, few, ?_, ?_, ?_⟩
  · rw [bytes]
    exact fits
  · rw [bytes]
    exact maximal
  · rw [bytes, whole]
    exact replay_logBytes_take valid few fits maximal

/-- The op that creates an element. -/
def createElementOp (id : UInt64) : MutationOp :=
  ⟨opCreateElement, 0, #v[id, 0, 0, 0, 0, 0, 0, 0, 0]⟩

/-- A commit that creates one element. -/
def createElementCommit (lsn : UInt64) : CommitFrame :=
  { lsn, txnId := lsn, baseGeneration := 0, blob := [],
    ops := [createElementOp lsn] }

omit [Crc32c] in
/-- Two commits cut inside the second one replay as the theorem says. -/
theorem replay_truncated_two_commits :
    letI : Crc32c := castagnoli
    ∃ kept ≤ 2,
      (([1, 2].map fun lsn => (createElementCommit lsn).record).take kept).flatten.length ≤ 150 ∧
      (kept < 2 → 150 < (([1, 2].map fun lsn => (createElementCommit lsn).record).take
        (kept + 1)).flatten.length) ∧
      replay 0 (([1, 2].map fun lsn => (createElementCommit lsn).record).flatten.take 150) =
        .ok { frames := ([1, 2].map createElementCommit).take kept
              validLen := (([1, 2].map fun lsn => (createElementCommit lsn).record).take
                kept).flatten.length
              lastLsn := ((([1, 2].map createElementCommit).take kept).getLast?.map
                CommitFrame.lsn).getD 0
              lastTxn := ((([1, 2].map createElementCommit).take kept).getLast?.map
                CommitFrame.txnId).getD 0 } :=
  letI : Crc32c := castagnoli
  replay_truncated_recovers_maximal_prefix 0 ([1, 2].map createElementCommit)
    ([1, 2].map fun lsn => (createElementCommit lsn).record) 150 (by decide) (by decide)
    (.cons (by rw [encodeCommit_eq]; rfl) (.cons (by rw [encodeCommit_eq]; rfl) .nil))

end Oxgraph
