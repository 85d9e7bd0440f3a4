import Oxgraph.Db.Wal
import Oxgraph.Proofs.Db.Wal

/-! When a failing record is reported, and when it is silently taken for a torn tail. -/

namespace Oxgraph

open List (append_assoc drop_drop length_append length_take take_length)

/-- The errors replay reports for a log that is corrupt. -/
def StorageError.IsLogFailure (error : StorageError) : Prop :=
  (∃ lsn reason, error = .logCorrupt lsn reason) ∨
    ∃ expected found, error = .baseGenerationMismatch expected found

/-- The header at the head of a buffer declares a whole frame that ends before the buffer does. -/
def FramedInside (remaining : Bytes) : Prop :=
  let header : LogRecordHeader := readFromPrefix remaining
  headerLen + header.opCount.toNat * opLen ≤ header.len.toNat ∧
    header.len.toNat < remaining.length

instance (remaining : Bytes) : Decidable (FramedInside remaining) :=
  inferInstanceAs (Decidable (_ ∧ _))

variable [Crc32c]

/-- The record that the header at the head of a buffer declares fails its checksum. -/
def FailsChecksum (remaining : Bytes) : Prop :=
  let header : LogRecordHeader := readFromPrefix remaining
  header.len.toNat ≤ remaining.length →
    recordCrc (remaining.take header.len.toNat) ≠ header.crc32c

instance (remaining : Bytes) : Decidable (FailsChecksum remaining) :=
  inferInstanceAs (Decidable (_ → _))

section Parsing

variable {baseGeneration : UInt64} {remaining : Bytes} {cursor : LsnCursor}

omit [Crc32c] in
/-- The framing computed from a stored op count never overflows. -/
theorem bodyLen_stored (opCount : UInt32) :
    ((checkedMul opCount.toNat opLen).bind fun opsBytes => checkedAdd opsBytes headerLen) =
      some (headerLen + opCount.toNat * opLen) := by
  have small := opCount.toNat_lt
  have size : opLen = 80 := rfl
  have header : headerLen = 40 := rfl
  have product : opCount.toNat * opLen < usizeBound := by
    rw [size, usizeBound]
    omega
  have total : opCount.toNat * opLen + headerLen < usizeBound := by
    rw [size, header, usizeBound]
    omega
  rw [checkedMul, if_pos product, Option.bind_some, checkedAdd, if_pos total, Nat.add_comm]

/-- A declared frame that ends before the buffer does is reported unless it is valid. -/
theorem parseOneRecord_of_inside (long : headerLen ≤ remaining.length)
    (inside : FramedInside remaining) :
    (∃ error, error.IsLogFailure ∧
        parseOneRecord baseGeneration remaining cursor = .loud error) ∨
      ∃ frame len, parseOneRecord baseGeneration remaining cursor = .frame frame len := by
  unfold FramedInside at inside
  unfold parseOneRecord
  rw [if_neg (by omega)]
  generalize (readFromPrefix remaining : LogRecordHeader) = header at inside ⊢
  obtain ⟨framed, shorter⟩ := inside
  have notLast : (!(decide (headerLen + header.opCount.toNat * opLen ≤ header.len.toNat) &&
      decide (header.len.toNat ≤ remaining.length) && decide (header.len.toNat ≥ headerLen)) ||
      decide (header.len.toNat ≥ remaining.length)) = false := by
    simp only [Bool.or_eq_false_iff, Bool.not_eq_false', Bool.and_eq_true, decide_eq_true_iff,
      decide_eq_false_iff_not]
    omega
  have fits : ¬ (header.len.toNat < headerLen + header.opCount.toNat * opLen ∨
      header.len.toNat < headerLen) := by omega
  have within : ¬ header.len.toNat > remaining.length := by omega
  simp only [bodyLen_stored, Option.any_some, notLast, tailOrLoud, Bool.false_eq_true, if_false,
    fits, within]
  split
  · exact .inl ⟨_, .inl ⟨_, _, rfl⟩, rfl⟩
  split
  · exact .inl ⟨_, .inr ⟨_, _, rfl⟩, rfl⟩
  split
  · exact .inl ⟨_, .inl ⟨_, _, rfl⟩, rfl⟩
  split
  · exact .inl ⟨_, .inl ⟨_, _, rfl⟩, rfl⟩
  · exact .inr ⟨_, _, rfl⟩

/-- A failing record whose declared frame does not end before the buffer does is a torn tail. -/
theorem parseOneRecord_of_outside (outside : ¬ FramedInside remaining)
    (fails : let header : LogRecordHeader := readFromPrefix remaining
      header.magic = oxglogr → header.baseGeneration = baseGeneration →
      headerLen + header.opCount.toNat * opLen ≤ header.len.toNat →
      header.len.toNat = remaining.length → recordCrc remaining ≠ header.crc32c) :
    parseOneRecord baseGeneration remaining cursor = .stop := by
  unfold FramedInside at outside
  unfold parseOneRecord
  split
  · rfl
  dsimp only at fails ⊢
  generalize (readFromPrefix remaining : LogRecordHeader) = header at outside fails ⊢
  have last : (!(decide (headerLen + header.opCount.toNat * opLen ≤ header.len.toNat) &&
      decide (header.len.toNat ≤ remaining.length) && decide (header.len.toNat ≥ headerLen)) ||
      decide (header.len.toNat ≥ remaining.length)) = true := by
    simp only [Bool.or_eq_true, Bool.not_eq_true', Bool.and_eq_false_iff, decide_eq_true_iff,
      decide_eq_false_iff_not]
    omega
  simp only [bodyLen_stored, Option.any_some, last, tailOrLoud, if_true]
  split
  · rfl
  split
  · rfl
  split
  · rfl
  split
  · rfl
  rename_i magic generation framed within
  have exactly : header.len.toNat = remaining.length := by omega
  have wrong := fails (not_not.mp magic) (not_not.mp generation) (by omega) exactly
  rw [exactly, take_length, if_pos wrong]

omit [Crc32c] in
/-- Decoding the body of a framed record splits it into its ops and its blob. -/
theorem decodeOps_spec {record : Bytes} {count : Nat}
    (framed : headerLen + count * opLen ≤ record.length) :
    (decodeOps record (headerLen + count * opLen)).1.length = count ∧
      record = record.take headerLen ++
        (arrayBytes (decodeOps record (headerLen + count * opLen)).1 ++
          (decodeOps record (headerLen + count * opLen)).2) := by
  have positive : 0 < opLen := FixedLayout.size_pos
  have length : ((record.take (headerLen + count * opLen)).drop headerLen).length =
      count * opLen := by
    rw [List.length_drop, length_take]
    omega
  have whole : count * opLen / opLen = count := Nat.mul_div_cancel _ positive
  have ops : arrayBytes (decodeOps record (headerLen + count * opLen)).1 =
      (record.take (headerLen + count * opLen)).drop headerLen := by
    rw [decodeOps, length, whole, arrayBytes_readArray _ _ (by rw [length]; exact Nat.le_refl _)]
    exact List.take_of_length_le (by rw [length]; exact Nat.le_refl _)
  refine ⟨by rw [decodeOps, length, whole, length_readArray], ?_⟩
  rw [ops]
  change record = record.take headerLen ++ (_ ++ record.drop (headerLen + count * opLen))
  have front : record.take headerLen = (record.take (headerLen + count * opLen)).take headerLen := by
    rw [List.take_take, Nat.min_eq_left (Nat.le_add_right _ _)]
  rw [front, ← append_assoc, List.take_append_drop, List.take_append_drop]

/-- A parsed frame passed its checksum, and its record is the bytes it was parsed from. -/
theorem parseOneRecord_eq_frame {frame : CommitFrame} {len : Nat}
    (parsed : parseOneRecord baseGeneration remaining cursor = .frame frame len) :
    len ≤ remaining.length ∧ remaining.take len = frame.record ∧ ¬ FailsChecksum remaining := by
  unfold parseOneRecord at parsed
  split at parsed
  · cases parsed
  rename_i long
  have bytes : asBytes (readFromPrefix remaining : LogRecordHeader) = remaining.take headerLen :=
    FixedLayout.asBytes_read remaining (Nat.le_of_not_lt long)
  unfold FailsChecksum
  dsimp only at parsed ⊢
  generalize (readFromPrefix remaining : LogRecordHeader) = header at parsed bytes ⊢
  simp only [bodyLen_stored, tailOrLoud] at parsed
  split at parsed
  · split at parsed <;> cases parsed
  rename_i magic
  split at parsed
  · split at parsed <;> cases parsed
  split at parsed
  · split at parsed <;> cases parsed
  rename_i framed
  split at parsed
  · cases parsed
  rename_i within
  split at parsed
  · split at parsed <;> cases parsed
  rename_i checked
  split at parsed
  · cases parsed
  simp only [RecordParse.frame.injEq] at parsed
  obtain ⟨same, rfl⟩ := parsed
  have checked := not_not.mp checked
  have magic := not_not.mp magic
  have inside : header.len.toNat ≤ remaining.length := Nat.le_of_not_gt within
  have length : (remaining.take header.len.toNat).length = header.len.toNat := by
    rw [length_take]
    omega
  obtain ⟨count, parts⟩ :=
    @decodeOps_spec (remaining.take header.len.toNat) header.opCount.toNat (by omega)
  rw [List.take_take, Nat.min_eq_left (by omega), ← bytes] at parts
  generalize decodeOps (remaining.take header.len.toNat)
    (headerLen + header.opCount.toNat * opLen) = decoded at parts count same
  obtain ⟨ops, blob⟩ := decoded
  dsimp only at parts count same
  refine ⟨inside, ?_, fun fails => fails inside checked⟩
  -- The frame's own header is the one that was read.
  have total : frame.recordLen = header.len.toNat := by
    have sizes := congrArg List.length parts
    rw [length_append, length_append, length, FixedLayout.length_asBytes,
      length_arrayBytes] at sizes
    rw [← same, CommitFrame.recordLen]
    change headerLen + ops.length * opLen + blob.length = _
    simp only [headerLen, opLen]
    omega
  have unstamped : frame.unstamped.prefixBytes = header.prefixBytes := by
    rw [CommitFrame.unstamped, total, ← same]
    simp only [LogRecordHeader.prefixBytes, count, magic, UInt32.ofNat_toNat]
  have body : frame.body = arrayBytes ops ++ blob := by rw [← same]; rfl
  have crc : frame.header.crc32c = header.crc32c := by
    rw [← checked, parts, recordCrc_header, ← body, ← unstamped]
    rfl
  rw [parts, CommitFrame.record, body, asBytes_header header, asBytes_header frame.header, crc,
    ← unstamped]
  rfl

/-- A framed record that passes its checksum is a frame when nothing was accepted before it. -/
theorem exists_frame_of_checked
    (checked : let header : LogRecordHeader := readFromPrefix remaining
      header.magic = oxglogr ∧ header.baseGeneration = baseGeneration ∧
        headerLen + header.opCount.toNat * opLen ≤ header.len.toNat ∧
        header.len.toNat = remaining.length ∧ recordCrc remaining = header.crc32c) :
    ∃ frame, parseOneRecord baseGeneration remaining ⟨0, false⟩ =
      .frame frame remaining.length := by
  obtain ⟨magic, generation, framed, exactly, crc⟩ := checked
  have long : ¬ remaining.length < headerLen := by omega
  unfold parseOneRecord
  rw [if_neg long]
  generalize (readFromPrefix remaining : LogRecordHeader) = header at *
  have fits : ¬ (header.len.toNat < headerLen + header.opCount.toNat * opLen ∨
      header.len.toNat < headerLen) := by omega
  have within : ¬ header.len.toNat > remaining.length := by omega
  have checked : ¬ recordCrc (remaining.take header.len.toNat) ≠ header.crc32c := by
    rw [exactly, take_length, crc]
    exact not_not.mpr rfl
  simp only [magic, generation, ne_eq, not_true_eq_false, if_false, bodyLen_stored, fits, within,
    checked, Bool.false_eq_true, false_and]
  exact ⟨_, by rw [exactly]⟩

end Parsing

variable {baseGeneration : UInt64} {frames : List CommitFrame}

/-- Walking the records of a log leaves the walk of whatever follows them. -/
theorem replayLoop_append (valid : LogFrames baseGeneration frames) (rest : Bytes)
    (outcome : ReplayOutcome) (seen : Bool) (fuel : Nat)
    (above : seen = true → ∀ frame ∈ frames, outcome.lastLsn < frame.lsn) :
    replayLoop baseGeneration (fuel + frames.length) outcome seen (logBytes frames ++ rest) =
      replayLoop baseGeneration fuel (extendOutcome outcome frames) (seen || !frames.isEmpty)
        rest := by
  induction frames generalizing outcome seen with
  | nil => simp [logBytes, extendOutcome]
  | cons frame tail ih =>
    have parsed := parseOneRecord_record (valid.fits frame (by simp)) (logBytes tail ++ rest)
      ⟨outcome.lastLsn, seen⟩ (fun saw => above saw frame (by simp))
    rw [valid.sameBase frame (by simp)] at parsed
    have positive : 0 < frame.recordLen :=
      Nat.lt_of_lt_of_le FixedLayout.size_pos (headerLen_le_recordLen frame)
    have nonempty : (frame.record ++ (logBytes tail ++ rest)).isEmpty = false := by
      rw [List.isEmpty_eq_false_iff, ← List.length_pos_iff, length_append, length_record]
      omega
    have drop : (frame.record ++ (logBytes tail ++ rest)).drop frame.recordLen =
        logBytes tail ++ rest := List.drop_left' (length_record frame)
    rw [List.length_cons, ← Nat.add_assoc, logBytes_cons, append_assoc, replayLoop, nonempty,
      parsed]
    simp only [Bool.false_eq_true, if_false, drop]
    rw [ih valid.tail _ _ fun _ later member => (List.pairwise_cons.mp valid.ascending).1 later member]
    simp [extendOutcome]

/-- Replaying a log's records and then more bytes walks the bytes on top of the records. -/
theorem replay_append (valid : LogFrames baseGeneration frames) {rest : Bytes} (more : rest ≠ []) :
    ∃ fuel, replay baseGeneration (logBytes frames ++ rest) =
      replayLoop baseGeneration (fuel + 1) (extendOutcome ⟨[], 0, 0, 0⟩ frames) (!frames.isEmpty)
        rest := by
  have positive := List.length_pos_iff.mpr more
  have enough : frames.length ≤ (logBytes frames).length := by
    clear valid
    induction frames with
    | nil => simp
    | cons frame tail ih =>
      have long : 0 < frame.recordLen :=
        Nat.lt_of_lt_of_le FixedLayout.size_pos (headerLen_le_recordLen frame)
      rw [logBytes_cons, length_append, length_record, List.length_cons]
      omega
  refine ⟨(logBytes frames ++ rest).length - frames.length - 1, ?_⟩
  have split : (logBytes frames ++ rest).length =
      (logBytes frames ++ rest).length - frames.length - 1 + 1 + frames.length := by
    rw [length_append]
    omega
  rw [replay]
  nth_rewrite 1 [split]
  rw [replayLoop_append valid rest _ _ _ (by simp), Bool.false_or]

/-- A successful walk keeps every frame it started with. -/
theorem frames_prefix_of_replayLoop {fuel : Nat} {outcome result : ReplayOutcome} {seen : Bool}
    {remaining : Bytes}
    (walked : replayLoop baseGeneration fuel outcome seen remaining = .ok result) :
    outcome.frames <+: result.frames := by
  induction fuel generalizing outcome seen remaining with
  | zero =>
    cases walked
    exact List.prefix_refl _
  | succ fuel ih =>
    rw [replayLoop] at walked
    split at walked
    · cases walked
      exact List.prefix_refl _
    split at walked
    · cases walked
      exact List.prefix_refl _
    · cases walked
    · rename_i frame len _
      exact (List.prefix_append _ _).trans (ih walked)

/-- A head that parses as a torn tail ends the replay with the records before it. -/
theorem replay_append_stop (valid : LogFrames baseGeneration frames) {rest : Bytes}
    (more : rest ≠ []) (torn : ∀ cursor, parseOneRecord baseGeneration rest cursor = .stop) :
    replay baseGeneration (logBytes frames ++ rest) =
      .ok { frames
            validLen := (logBytes frames).length
            lastLsn := (frames.getLast?.map CommitFrame.lsn).getD 0
            lastTxn := (frames.getLast?.map CommitFrame.txnId).getD 0 } := by
  obtain ⟨fuel, walked⟩ := replay_append valid more
  have nonempty : rest.isEmpty = false := List.isEmpty_eq_false_iff.mpr more
  rw [walked, replayLoop, nonempty, torn, extendOutcome_eq]
  simp

/-- A head that declares a frame inside the log is reported, or taken for one more frame. -/
theorem replay_append_inside (valid : LogFrames baseGeneration frames) {rest : Bytes}
    (long : headerLen ≤ rest.length) (inside : FramedInside rest) (outcome : ReplayOutcome)
    (replayed : replay baseGeneration (logBytes frames ++ rest) = .ok outcome) :
    outcome.frames ≠ frames := by
  have positive : 0 < headerLen := FixedLayout.size_pos
  have more : rest ≠ [] := List.ne_nil_of_length_pos (by omega)
  have nonempty : rest.isEmpty = false := List.isEmpty_eq_false_iff.mpr more
  obtain ⟨fuel, walked⟩ := replay_append valid more
  rw [walked, replayLoop, nonempty] at replayed
  rcases @parseOneRecord_of_inside _ baseGeneration rest
    ⟨(extendOutcome ⟨[], 0, 0, 0⟩ frames).lastLsn, !frames.isEmpty⟩ long inside with
    ⟨error, _, loud⟩ | ⟨frame, len, parsed⟩
  · rw [loud] at replayed
    cases replayed
  · -- A record accepted by accident is one more than the frames before it.
    rw [parsed] at replayed
    have kept := frames_prefix_of_replayLoop replayed
    rw [extendOutcome_eq] at kept
    intro same
    have longer := kept.length_le
    simp [same] at longer

section Interior

/--
A corrupted record before the end of a log is reported exactly when its header still declares a
whole frame that ends before the log does.
-/
theorem replay_corrupted_fails_iff (baseGeneration : UInt64) (before after : List CommitFrame)
    (record : CommitFrame) (corrupted : Bytes)
    (valid : LogFrames baseGeneration (before ++ record :: after))
    (confined : corrupted.length = record.record.length)
    (detected : FailsChecksum (corrupted ++ logBytes after)) :
    (∃ error : StorageError, error.IsLogFailure ∧
      replay baseGeneration (logBytes before ++ (corrupted ++ logBytes after)) = .error error ∧
      recoverLog baseGeneration (logBytes before ++ (corrupted ++ logBytes after)) =
        .error error) ↔
      FramedInside (corrupted ++ logBytes after) := by
  have validBefore : LogFrames baseGeneration before :=
    { sameBase := fun frame member => valid.sameBase frame (List.mem_append_left _ member)
      fits := fun frame member => valid.fits frame (List.mem_append_left _ member)
      ascending := (List.pairwise_append.mp valid.ascending).1 }
  have long : headerLen ≤ (corrupted ++ logBytes after).length := by
    have header := headerLen_le_recordLen record
    rw [length_record] at confined
    rw [length_append]
    omega
  have more : corrupted ++ logBytes after ≠ [] := by
    have positive : 0 < headerLen := FixedLayout.size_pos
    exact List.ne_nil_of_length_pos (by omega)
  constructor
  · rintro ⟨error, _, failed, _⟩
    -- Outside, the record is torn for every cursor, and replay stops there without failing.
    by_contra outside
    have torn (cursor : LsnCursor) :=
      @parseOneRecord_of_outside _ baseGeneration _ cursor outside
        fun _ _ _ exactly => by
          have fails := detected (Nat.le_of_eq exactly)
          rwa [exactly, take_length] at fails
    rw [replay_append_stop validBefore more torn] at failed
    cases failed
  · intro inside
    obtain ⟨fuel, walked⟩ := replay_append validBefore more
    have nonempty : (corrupted ++ logBytes after).isEmpty = false :=
      List.isEmpty_eq_false_iff.mpr more
    rcases @parseOneRecord_of_inside _ baseGeneration _
      ⟨(extendOutcome ⟨[], 0, 0, 0⟩ before).lastLsn, !before.isEmpty⟩ long inside with
      ⟨error, failure, loud⟩ | ⟨frame, len, parsed⟩
    · have failed : replay baseGeneration (logBytes before ++ (corrupted ++ logBytes after)) =
          .error error := by
        rw [walked, replayLoop, nonempty, loud]
        rfl
      exact ⟨error, failure, failed, by rw [recoverLog, failed]⟩
    · -- A record that parses has its checksum, which the damage was to spoil.
      exact absurd detected (parseOneRecord_eq_frame parsed).2.2

/-- A length word that reaches past the log declares no record to check and no frame inside. -/
theorem overlong_fails {remaining : Bytes} {header : LogRecordHeader}
    (read : readFromPrefix remaining = header) (long : remaining.length < header.len.toNat) :
    FailsChecksum remaining ∧ ¬ FramedInside remaining := by
  unfold FailsChecksum FramedInside
  simp only [read]
  constructor
  · intro within
    omega
  · rintro ⟨_, shorter⟩
    omega

/-- A first commit whose length word was overwritten by ones. -/
def overlongCommit : Bytes :=
  asBytes { (createElementCommit 1).header with len := 0xFFFFFFFF } ++ (createElementCommit 1).body

/-- The length word of the overwritten commit reaches past the commit that follows it. -/
theorem overlongCommit_fails :
    FailsChecksum (overlongCommit ++ logBytes [createElementCommit 2]) ∧
      ¬ FramedInside (overlongCommit ++ logBytes [createElementCommit 2]) := by
  refine overlong_fails (by rw [overlongCommit, append_assoc, FixedLayout.read_asBytes]) ?_
  simp [overlongCommit, logBytes]
  decide

omit [Crc32c] in
/-- A corrupted length word that reaches past the log drops the intact commit after it. -/
theorem replay_corrupted_len_drops_commit :
    letI : Crc32c := castagnoli
    let log := logBytes [] ++ (overlongCommit ++ logBytes [createElementCommit 2])
    LogFrames 0 ([] ++ createElementCommit 1 :: [createElementCommit 2]) ∧
      overlongCommit.length = (createElementCommit 1).record.length ∧
      FailsChecksum (overlongCommit ++ logBytes [createElementCommit 2]) ∧
      replay 0 log = .ok ⟨[], 0, 0, 0⟩ ∧ recoverLog 0 log = .ok (⟨[], 0, 0, 0⟩, []) := by
  let _ : Crc32c := castagnoli
  intro log
  obtain ⟨detected, outside⟩ := overlongCommit_fails
  have length : (overlongCommit ++ logBytes [createElementCommit 2]).length = 240 := by
    simp [overlongCommit, logBytes]
    decide
  have replayed : replay 0 log = .ok ⟨[], 0, 0, 0⟩ :=
    replay_append_stop ⟨by simp, by simp, by simp⟩ (List.ne_nil_of_length_pos (by omega))
      fun cursor => parseOneRecord_of_outside outside fun _ _ _ exactly => by
        have fails := detected (Nat.le_of_eq exactly)
        rwa [exactly, take_length] at fails
  refine ⟨⟨by decide, by decide, by decide⟩, ?_, detected, replayed, ?_⟩
  · simp [overlongCommit]
    decide
  · have shorter : 0 < log.length := by
      change 0 < ([] ++ (overlongCommit ++ logBytes [createElementCommit 2])).length
      rw [List.nil_append, length]
      decide
    rw [recoverLog, replayed]
    simp [shorter]

omit [Crc32c] in
/-- The corrupted length word is not reported, since it declares no frame inside the log. -/
theorem replay_corrupted_fails_iff_overlong :
    letI : Crc32c := castagnoli
    let log := logBytes [] ++ (overlongCommit ++ logBytes [createElementCommit 2])
    (∃ error : StorageError, error.IsLogFailure ∧ replay 0 log = .error error ∧
      recoverLog 0 log = .error error) ↔
      FramedInside (overlongCommit ++ logBytes [createElementCommit 2]) :=
  letI : Crc32c := castagnoli
  replay_corrupted_fails_iff 0 [] [createElementCommit 2] (createElementCommit 1) _
    ⟨by decide, by decide, by decide⟩ (by simp [overlongCommit]; decide) overlongCommit_fails.1

end Interior

section ZeroFilled

/-- A record of which only the first bytes reached the disk, in a file already extended to hold it. -/
def zeroFilled (record : Bytes) (cut : Nat) : Bytes :=
  record.take cut ++ List.replicate (record.length - cut) 0

/-- Byte offset of a header's length word. -/
def headerLenOffset : Nat := headerLen - 3 * FixedLayout.size UInt32

variable {frame : CommitFrame} {cut : Nat}

omit [Crc32c] in
/-- A zero-filled record is as long as the record. -/
theorem length_zeroFilled (record : Bytes) (short : cut < record.length) :
    (zeroFilled record cut).length = record.length := by
  rw [zeroFilled, length_append, length_take, List.length_replicate]
  omega

omit [Crc32c] in
/-- The length word of a header is four bytes in place. -/
theorem header_len_eq (bytes : Bytes) :
    (readFromPrefix bytes : LogRecordHeader).len =
      .ofNat (ofLeBytes ((bytes.drop headerLenOffset).take 4)) := by
  have offset : headerLenOffset = 8 + 8 + 8 + 4 := rfl
  rw [offset, ← drop_drop, ← drop_drop, ← drop_drop]
  rfl

omit [Crc32c] in
/-- The op count of a header is the four bytes after the length word. -/
theorem header_opCount_eq (bytes : Bytes) :
    (readFromPrefix bytes : LogRecordHeader).opCount =
      .ofNat (ofLeBytes ((bytes.drop (headerLenOffset + 4)).take 4)) := by
  have offset : headerLenOffset + 4 = 8 + 8 + 8 + 4 + 4 := rfl
  rw [offset, ← drop_drop, ← drop_drop, ← drop_drop, ← drop_drop]
  rfl

/-- From its length word on, a record is that word, and then what follows it. -/
theorem record_drop_len (fits : frame.recordLen < u32Bound) :
    ∃ rest, frame.record.drop headerLenOffset = leBytes 4 frame.recordLen ++ rest := by
  have bytes : asBytes frame.header =
      asBytes (frame.header.baseGeneration, frame.header.lsn, frame.header.txnId,
        frame.header.magic) ++ (asBytes frame.header.len ++
          asBytes (frame.header.opCount, frame.header.crc32c)) := by
    change asBytes (frame.header.baseGeneration, frame.header.lsn, frame.header.txnId,
      frame.header.magic, frame.header.len, frame.header.opCount, frame.header.crc32c) = _
    simp only [FixedLayout.asBytes, append_assoc]
  have word : asBytes frame.header.len = leBytes 4 frame.recordLen := by
    change leBytes 4 frame.header.len.toNat = _
    rw [toNat_header_len fits]
  refine ⟨asBytes (frame.header.opCount, frame.header.crc32c) ++ frame.body, ?_⟩
  rw [CommitFrame.record, bytes, word, append_assoc, append_assoc]
  exact List.drop_left' (FixedLayout.length_asBytes _)

/-- A zero-filled record declares what reached the disk of its length word. -/
theorem len_zeroFilled (fits : frame.recordLen < u32Bound) (short : cut < frame.recordLen) :
    (readFromPrefix (zeroFilled frame.record cut) : LogRecordHeader).len.toNat =
      frame.recordLen % 256 ^ (cut - headerLenOffset) := by
  have header : headerLenOffset + 12 ≤ frame.recordLen := headerLen_le_recordLen frame
  have small : frame.recordLen < 256 ^ 4 := fits
  obtain ⟨rest, front⟩ := record_drop_len fits
  have word : ∃ zeros, ((zeroFilled frame.record cut).drop headerLenOffset).take 4 =
      (leBytes 4 frame.recordLen).take (cut - headerLenOffset) ++ List.replicate zeros 0 := by
    rw [zeroFilled, List.drop_append, List.drop_take, front, length_record, length_take,
      length_record, List.drop_replicate, List.take_append, List.take_take, List.take_replicate]
    by_cases whole : 4 ≤ cut - headerLenOffset
    · -- The whole word reached the disk.
      refine ⟨0, ?_⟩
      have length : (List.take (cut - headerLenOffset) (leBytes 4 frame.recordLen ++ rest)).length
          ≥ 4 := by
        rw [length_take, length_append, length_leBytes]
        omega
      rw [Nat.min_eq_left whole, List.take_left' (length_leBytes 4 _),
        List.take_of_length_le (by rw [length_leBytes]; omega : (leBytes 4 _).length ≤ _)]
      have none : min (4 - (List.take (cut - headerLenOffset)
          (leBytes 4 frame.recordLen ++ rest)).length) (frame.recordLen - cut -
            (headerLenOffset - min cut frame.recordLen)) = 0 := by omega
      rw [none]
    · rw [Nat.min_eq_right (by omega : cut - headerLenOffset ≤ 4),
        List.take_append_of_le_length (by rw [length_leBytes]; omega)]
      exact ⟨_, rfl⟩
  obtain ⟨zeros, word⟩ := word
  have remainder : frame.recordLen % 256 ^ (cut - headerLenOffset) < UInt32.size :=
    Nat.lt_of_le_of_lt (Nat.mod_le _ _) fits
  rw [header_len_eq, word, ofLeBytes_take_zeros small, UInt32.toNat_ofNat_of_lt' remainder]

/-- A record cut before its op count declares no ops. -/
theorem opCount_zeroFilled (early : cut ≤ headerLenOffset + 4) :
    (readFromPrefix (zeroFilled frame.record cut) : LogRecordHeader).opCount = 0 := by
  have zeros : ∃ count, ((zeroFilled frame.record cut).drop (headerLenOffset + 4)).take 4 =
      List.replicate count 0 := by
    have past : (frame.record.take cut).drop (headerLenOffset + 4) = [] :=
      List.drop_of_length_le (by rw [length_take]; omega)
    rw [zeroFilled, List.drop_append, past, List.nil_append, List.drop_replicate,
      List.take_replicate]
    exact ⟨_, rfl⟩
  obtain ⟨count, zeros⟩ := zeros
  rw [header_opCount_eq, zeros, ofLeBytes_zeros]
  rfl

/-- A zero-filled record frames a record inside itself when its cut length word does. -/
theorem framedInside_zeroFilled (fits : frame.recordLen < u32Bound)
    (short : cut < frame.recordLen) :
    FramedInside (zeroFilled frame.record cut) ↔
      headerLen ≤ frame.recordLen % 256 ^ (cut - headerLenOffset) ∧
        frame.recordLen % 256 ^ (cut - headerLenOffset) < frame.recordLen := by
  have length : (zeroFilled frame.record cut).length = frame.recordLen := by
    rw [length_zeroFilled _ (by rw [length_record]; exact short), length_record]
  unfold FramedInside
  simp only [len_zeroFilled fits short, length]
  constructor
  · rintro ⟨framed, inside⟩
    exact ⟨by omega, inside⟩
  · rintro ⟨framed, inside⟩
    -- A word that lost bytes was cut before the op count.
    have early : cut ≤ headerLenOffset + 4 := by
      by_contra late
      have wide : 256 ^ 4 ≤ 256 ^ (cut - headerLenOffset) :=
        Nat.pow_le_pow_right (by decide) (by omega)
      have word : frame.recordLen < 256 ^ 4 := fits
      have small := Nat.lt_of_lt_of_le word wide
      rw [Nat.mod_eq_of_lt small] at inside
      exact Nat.lt_irrefl _ inside
    rw [opCount_zeroFilled early, UInt32.toNat_zero, Nat.zero_mul, Nat.add_zero]
    exact ⟨framed, inside⟩

/--
A zero-filled torn append after a log is cut off silently exactly when the part of its length word
that reached the disk does not declare a shorter whole record.
-/
theorem replay_zero_filled_iff (baseGeneration : UInt64) (frames : List CommitFrame)
    (next : CommitFrame) (cut : Nat) (valid : LogFrames baseGeneration (frames ++ [next]))
    (short : cut < next.record.length)
    (invalid : ∀ frame : CommitFrame, zeroFilled next.record cut ≠ frame.record) :
    replay baseGeneration (logBytes frames ++ zeroFilled next.record cut) =
      .ok { frames
            validLen := (logBytes frames).length
            lastLsn := (frames.getLast?.map CommitFrame.lsn).getD 0
            lastTxn := (frames.getLast?.map CommitFrame.txnId).getD 0 } ↔
      ¬ (headerLen ≤ next.record.length % 256 ^ (cut - headerLenOffset) ∧
        next.record.length % 256 ^ (cut - headerLenOffset) < next.record.length) := by
  have validFrames : LogFrames baseGeneration frames :=
    { sameBase := fun frame member => valid.sameBase frame (List.mem_append_left _ member)
      fits := fun frame member => valid.fits frame (List.mem_append_left _ member)
      ascending := (List.pairwise_append.mp valid.ascending).1 }
  have fits : next.recordLen < u32Bound := valid.fits next (by simp)
  have length := length_zeroFilled next.record short
  rw [length_record] at short length
  have header := headerLen_le_recordLen next
  have positive : 0 < headerLen := FixedLayout.size_pos
  have more : zeroFilled next.record cut ≠ [] := List.ne_nil_of_length_pos (by omega)
  rw [length_record, ← framedInside_zeroFilled fits short]
  constructor
  · intro replayed inside
    exact replay_append_inside validFrames (by omega) inside _ replayed rfl
  · intro outside
    refine replay_append_stop validFrames more fun cursor =>
      parseOneRecord_of_outside outside fun magic generation framed exactly checked => ?_
    obtain ⟨frame, parsed⟩ :=
      exists_frame_of_checked ⟨magic, generation, framed, exactly, checked⟩
    have same := (parseOneRecord_eq_frame parsed).2.1
    rw [take_length] at same
    exact invalid frame same

/-- A commit that creates four elements. -/
def createFourCommit : CommitFrame :=
  { lsn := 1, txnId := 1, baseGeneration := 0, blob := [],
    ops := [1, 2, 3, 4].map createElementOp }

/-- One byte of a 360-byte length word declares 104 bytes, so the torn record is no record. -/
theorem zeroFilled_createFour_invalid (frame : CommitFrame) :
    zeroFilled createFourCommit.record 29 ≠ frame.record := by
  intro same
  have length := congrArg List.length same
  rw [length_zeroFilled _ (by rw [length_record]; decide), length_record, length_record] at length
  have total : createFourCommit.recordLen = 360 := by decide
  have declared := @len_zeroFilled _ createFourCommit 29 (by decide) (by decide)
  have header : readFromPrefix frame.record = frame.header := by
    rw [CommitFrame.record, FixedLayout.read_asBytes]
  rw [same, header, toNat_header_len (by rw [← length]; decide), ← length, total] at declared
  exact absurd declared (by decide)

omit [Crc32c] in
/-- A first append of 360 bytes torn after one byte of its length word is not cut off silently. -/
theorem replay_zero_filled_reported :
    letI : Crc32c := castagnoli
    LogFrames 0 ([] ++ [createFourCommit]) ∧ 29 < createFourCommit.record.length ∧
      (∀ frame : CommitFrame, zeroFilled createFourCommit.record 29 ≠ frame.record) ∧
      replay 0 (logBytes [] ++ zeroFilled createFourCommit.record 29) ≠ .ok ⟨[], 0, 0, 0⟩ := by
  let _ : Crc32c := castagnoli
  refine ⟨⟨by decide, by decide, by decide⟩, by rw [length_record]; decide,
    zeroFilled_createFour_invalid, ?_⟩
  intro replayed
  have inside : FramedInside (zeroFilled createFourCommit.record 29) :=
    (framedInside_zeroFilled (by decide) (by decide)).mpr (by decide)
  have long : headerLen ≤ (zeroFilled createFourCommit.record 29).length := by
    rw [length_zeroFilled _ (by rw [length_record]; decide), length_record]
    decide
  exact replay_append_inside ⟨by simp, by simp, by simp⟩ long inside _ replayed rfl

omit [Crc32c] in
/-- The torn append of 360 bytes meets the condition of neither side. -/
theorem replay_zero_filled_iff_createFour :
    letI : Crc32c := castagnoli
    replay 0 (logBytes [] ++ zeroFilled createFourCommit.record 29) =
      .ok { frames := []
            validLen := (logBytes []).length
            lastLsn := (([] : List CommitFrame).getLast?.map CommitFrame.lsn).getD 0
            lastTxn := (([] : List CommitFrame).getLast?.map CommitFrame.txnId).getD 0 } ↔
      ¬ (headerLen ≤ createFourCommit.record.length % 256 ^ (29 - headerLenOffset) ∧
        createFourCommit.record.length % 256 ^ (29 - headerLenOffset) <
          createFourCommit.record.length) :=
  letI : Crc32c := castagnoli
  replay_zero_filled_iff 0 [] createFourCommit 29 ⟨by decide, by decide, by decide⟩
    (by rw [length_record]; decide) zeroFilled_createFour_invalid

end ZeroFilled

end Oxgraph
