import Oxgraph.Db.Wal
import Oxgraph.Proofs.Snapshot.Plan
import Oxgraph.Snapshot.Plan

/-! Sections streamed chunk by chunk, in every way a caller can drive a sink, encode like whole ones. -/

namespace Oxgraph.Container

/-- A section whose payload is pushed through a sink in chunks. -/
structure StreamedSection where
  kind : UInt32
  version : UInt32
  alignmentLog2 : UInt8
  chunks : List Bytes

namespace StreamedSection

/-- The section a plan describes with its whole payload at once. -/
def pending (streamed : StreamedSection) : PendingSection :=
  { kind := streamed.kind, version := streamed.version, alignmentLog2 := streamed.alignmentLog2
    payload := streamed.chunks.flatten }

/-- Begins a section on a writer and pushes every chunk of it. -/
def push (checksum : Checksum32) (writer : SnapshotWriter) (streamed : StreamedSection) :
    Except PlanError SectionSink := do
  let sink ← writer.beginSection streamed.kind streamed.version streamed.alignmentLog2
  return streamed.chunks.foldl (fun sink bytes => sink.write checksum bytes) sink

/-- Pushes a section through a sink and ends it. -/
def write (checksum : Checksum32) (writer : SnapshotWriter) (streamed : StreamedSection) :
    Except PlanError SnapshotWriter := do
  let sink ← streamed.push checksum writer
  sink.endSection

end StreamedSection

/-- Streams sections, each to its end, into a writer with a reservation, and finishes it. -/
def streamSnapshot (checksum : Checksum32) (maxSections : Nat)
    (streams : List StreamedSection) : Except PlanError Bytes := do
  let writer ← SnapshotWriter.new maxSections
  let writer ← streams.foldlM (StreamedSection.write checksum) writer
  writer.finish checksum

/-- Plans the same sections and writes them into a buffer of exactly the encoded length. -/
def planSnapshot (checksum : Checksum32) (sections : List PendingSection) :
    Except PlanError Bytes := do
  let plan ← SnapshotPlan.new sections
  let needed ← plan.encodedLen
  let (_, out) ← plan.writeInto (List.replicate needed 0) checksum
  return out

/-- One use of a sink: the chunks pushed before it was ended or dropped. -/
structure SinkUse where
  streamed : StreamedSection
  -- Whether the sink was ended, or dropped where it stood.
  ended : Bool

/-- The writer after one use of a sink, and the section when the use ended it. -/
def SinkUse.run (checksum : Checksum32) (writer : SnapshotWriter) (use : SinkUse) :
    SnapshotWriter × List PendingSection :=
  match use.streamed.push checksum writer with
  -- A section that cannot begin leaves the writer as it is.
  | .error _ => (writer, [])
  | .ok sink =>
    if use.ended then
      match sink.endSection with
      | .error _ => (sink.writer, [])
      | .ok after => (after, [use.streamed.pending])
    else (sink.writer, [])

/-- The writer after every use of a sink in order, and the sections that were ended. -/
def runSinks (checksum : Checksum32) :
    SnapshotWriter → List SinkUse → SnapshotWriter × List PendingSection
  | writer, [] => (writer, [])
  | writer, use :: rest =>
    let (next, ended) := use.run checksum writer
    let (final, later) := runSinks checksum next rest
    (final, ended ++ later)

end Oxgraph.Container

-- Streamed sections encode like planned ones.

namespace Oxgraph.Container

variable {checksum : Checksum32}

/-- A writer with one more section laid out after its buffer. -/
def placed (checksum : Checksum32) (writer : SnapshotWriter) (pending : PendingSection) :
    SnapshotWriter :=
  let start := alignUp writer.buf.length pending.alignmentLog2
  { writer with
    buf := writer.buf ++ List.replicate (start - writer.buf.length) 0 ++ pending.payload
    entries := writer.entries ++ [entryAt checksum start pending] }

/-- The kind of the last section a writer recorded. -/
def lastKind (writer : SnapshotWriter) : Option UInt32 :=
  writer.entries.getLast?.map RawSectionEntry.kind

/-- A sink that begins where a section is placed after a writer's buffer. -/
def began (writer : SnapshotWriter) (kind version : UInt32) (alignmentLog2 : UInt8) :
    SectionSink :=
  let start := alignUp writer.buf.length alignmentLog2
  { writer :=
      { writer with buf := writer.buf ++ List.replicate (start - writer.buf.length) 0 }
    start, kind, version, crc := 0, alignmentLog2 }

-- One section.

variable {writer : SnapshotWriter}

/-- A section begins exactly when its alignment, the reservation, its kind and its start allow. -/
theorem beginSection_eq_ok {kind version : UInt32} {alignmentLog2 : UInt8} {sink : SectionSink} :
    writer.beginSection kind version alignmentLog2 = .ok sink ↔
      ¬ alignmentLog2 > maxAlignmentLog2 ∧ writer.entries.length < writer.maxSections ∧
        ((lastKind writer).filter fun prev => decide (kind ≤ prev)) = none ∧
        writer.buf.length + (2 ^ alignmentLog2.toNat - 1) < usizeBound ∧
        sink = began writer kind version alignmentLog2 := by
  have last : ((lastKind writer).filter fun prev => decide (kind ≤ prev)) =
      (writer.entries.getLast?.filter fun prior => decide (kind ≤ prior.kind)).map
        RawSectionEntry.kind := by
    unfold lastKind
    rw [Option.filter_map]
    rfl
  rw [last, Option.map_eq_none_iff]
  unfold SnapshotWriter.beginSection
  by_cases small : alignmentLog2 > maxAlignmentLog2
  · simp [small]
  by_cases full : writer.entries.length ≥ writer.maxSections
  · simp [small, full, Nat.not_lt.mpr full]
  rw [if_neg small, if_neg full]
  cases ordered : writer.entries.getLast?.filter fun prior => decide (kind ≤ prior.kind) with
  | some prior => simp
  | none =>
    cases rounded : alignUpChecked writer.buf.length alignmentLog2 with
    | error error =>
      have beyond : ¬ writer.buf.length + (2 ^ alignmentLog2.toNat - 1) < usizeBound := by
        intro room
        rw [alignUpChecked_eq_ok.mpr ⟨room, rfl⟩] at rounded
        cases rounded
      simp [beyond]
    | ok aligned =>
      obtain ⟨room, rfl⟩ := alignUpChecked_eq_ok.mp rounded
      simp only [small, room, not_false_eq_true, Nat.lt_of_not_ge full, true_and,
        Except.ok.injEq, began]
      exact eq_comm

/-- Chunks written one after the other extend the buffer and fold into the checksum. -/
theorem writeChunks_eq (checksum : Checksum32) (chunks : List Bytes) (sink : SectionSink) :
    chunks.foldl (fun sink bytes => sink.write checksum bytes) sink =
      { sink with
        crc := chunks.foldl checksum sink.crc
        writer := { sink.writer with buf := sink.writer.buf ++ chunks.flatten } } := by
  induction chunks generalizing sink with
  | nil => simp
  | cons chunk rest ih =>
    rw [List.foldl_cons, ih, List.flatten_cons]
    simp only [SectionSink.write, List.append_assoc, List.foldl_cons]

/-- Folding a section's chunks one by one is folding its payload at once. -/
def StreamedSection.Folds (checksum : Checksum32) (streamed : StreamedSection) : Prop :=
  streamed.chunks.foldl checksum 0 = checksum 0 streamed.pending.payload

/-- Under a lawful checksum, every way of splitting a payload into chunks folds. -/
theorem Lawful.folds (lawful : Lawful checksum) (streamed : StreamedSection) :
    streamed.Folds checksum := by
  have shift (chunks : List Bytes) (before : Bytes) :
      chunks.foldl checksum (checksum 0 before) = checksum 0 (before ++ chunks.flatten) := by
    induction chunks generalizing before with
    | nil => simp
    | cons chunk rest ih =>
      rw [List.foldl_cons, lawful.continues, ih, List.flatten_cons, List.append_assoc]
  have whole := shift streamed.chunks []
  rw [lawful.nothing, List.nil_append] at whole
  exact whole

variable {writer after : SnapshotWriter}

/-- Writing a section to its end succeeds exactly when it begins and its length is a word. -/
theorem write_eq_ok {streamed : StreamedSection} (folds : streamed.Folds checksum) :
    streamed.write checksum writer = .ok after ↔
      ¬ streamed.alignmentLog2 > maxAlignmentLog2 ∧ writer.entries.length < writer.maxSections ∧
        ((lastKind writer).filter fun prev => decide (streamed.kind ≤ prev)) = none ∧
        writer.buf.length + (2 ^ streamed.alignmentLog2.toNat - 1) < usizeBound ∧
        streamed.pending.payload.length < usizeBound ∧
        after = placed checksum writer streamed.pending := by
  have up := le_alignUp writer.buf.length streamed.alignmentLog2
  have low := alignUp_le writer.buf.length streamed.alignmentLog2
  have size : UInt64.size = usizeBound := rfl
  -- What ending the sink does once the section began where it is placed.
  have ended (room : writer.buf.length + (2 ^ streamed.alignmentLog2.toNat - 1) < usizeBound) :
      (streamed.chunks.foldl (fun sink bytes => sink.write checksum bytes)
        (began writer streamed.kind streamed.version streamed.alignmentLog2)).endSection =
          .ok after ↔
        streamed.pending.payload.length < usizeBound ∧
          after = placed checksum writer streamed.pending := by
    have run : (writer.buf ++ List.replicate
        (alignUp writer.buf.length streamed.alignmentLog2 - writer.buf.length) (0 : UInt8) ++
          streamed.chunks.flatten).length - alignUp writer.buf.length streamed.alignmentLog2 =
        streamed.pending.payload.length := by
      change _ = streamed.chunks.flatten.length
      rw [List.length_append, List.length_append, List.length_replicate]
      omega
    rw [writeChunks_eq]
    unfold SectionSink.endSection
    unfold StreamedSection.Folds at folds
    simp only [began, run, folds]
    rw [size, if_neg (by omega)]
    by_cases long : streamed.pending.payload.length ≥ usizeBound
    · rw [if_pos long]
      simp [Nat.not_lt.mpr long]
    · rw [if_neg long]
      simp only [Nat.lt_of_not_ge long, true_and, Except.ok.injEq]
      exact eq_comm
  unfold StreamedSection.write StreamedSection.push
  constructor
  · intro written
    obtain ⟨sink, pushed, written⟩ := bind_eq_ok.mp written
    obtain ⟨first, begun, pushed⟩ := bind_eq_ok.mp pushed
    obtain ⟨small, capacity, ordered, room, rfl⟩ := beginSection_eq_ok.mp begun
    cases pushed
    exact ⟨small, capacity, ordered, room, (ended room).mp written⟩
  · rintro ⟨small, capacity, ordered, room, rest⟩
    exact bind_eq_ok.mpr ⟨_, bind_eq_ok.mpr ⟨_, beginSection_eq_ok.mpr
      ⟨small, capacity, ordered, room, rfl⟩, rfl⟩, (ended room).mpr rest⟩

-- All the sections of a snapshot.

/-- One more section passes the check of planned sections when it ascends past the last. -/
theorem checkPending_cons {prev : Option UInt32} {pending : PendingSection}
    {rest : List PendingSection} :
    checkPending prev (pending :: rest) = .ok () ↔
      ¬ pending.alignmentLog2 > maxAlignmentLog2 ∧
        (prev.filter fun prev => decide (pending.kind ≤ prev)) = none ∧
        checkPending (some pending.kind) rest = .ok () := by
  rw [checkPending]
  by_cases small : pending.alignmentLog2 > maxAlignmentLog2
  · simp [small]
  rw [if_neg small]
  cases ordered : prev.filter fun prev => decide (pending.kind ≤ prev) with
  | some kind => simp
  | none => simp [small]

variable {streams : List StreamedSection}

/-- Streaming sections to their ends lays them out as planned, or fails when planning does. -/
theorem writeAll_eq_ok (folds : ∀ streamed ∈ streams, streamed.Folds checksum)
    (capacity : writer.entries.length ≤ writer.maxSections) :
    (streams.foldlM (StreamedSection.write checksum) writer = .ok after ∧
        after.buf.length < usizeBound) ↔
      writer.entries.length + streams.length ≤ writer.maxSections ∧
        checkPending (lastKind writer) (streams.map StreamedSection.pending) = .ok () ∧
        Fits writer.buf.length (streams.map StreamedSection.pending) ∧
        after = { writer with
          buf := writer.buf ++
            layPayloads writer.buf.length (streams.map StreamedSection.pending)
          entries := writer.entries ++
            layTable checksum writer.buf.length (streams.map StreamedSection.pending) } := by
  induction streams generalizing writer with
  | nil =>
    constructor
    · rintro ⟨same, bound⟩
      cases same
      exact ⟨capacity, rfl, bound, by simp [layPayloads, layTable]⟩
    · rintro ⟨_, _, fits, rfl⟩
      rw [List.map_nil] at fits ⊢
      rw [layPayloads, layTable, List.append_nil, List.append_nil]
      exact ⟨rfl, fits⟩
  | cons streamed rest ih =>
    have own := folds streamed List.mem_cons_self
    have later := fun other member => folds other (List.mem_cons_of_mem streamed member)
    have up := le_alignUp writer.buf.length streamed.pending.alignmentLog2
    have size : (placed checksum writer streamed.pending).buf.length =
        alignUp writer.buf.length streamed.pending.alignmentLog2 +
          streamed.pending.payload.length := by
      unfold placed
      simp only [List.length_append, List.length_replicate]
      omega
    have count : (placed checksum writer streamed.pending).entries.length =
        writer.entries.length + 1 := by
      simp [placed]
    have last : lastKind (placed checksum writer streamed.pending) =
        some streamed.pending.kind := by
      simp [lastKind, placed, entryAt]
    -- The writer after the first section, with the others laid out after it.
    have joined : ({ placed checksum writer streamed.pending with
        buf := (placed checksum writer streamed.pending).buf ++ layPayloads
          (placed checksum writer streamed.pending).buf.length
            (rest.map StreamedSection.pending)
        entries := (placed checksum writer streamed.pending).entries ++ layTable checksum
          (placed checksum writer streamed.pending).buf.length
            (rest.map StreamedSection.pending) } : SnapshotWriter) =
        { writer with
          buf := writer.buf ++ layPayloads writer.buf.length
            ((streamed :: rest).map StreamedSection.pending)
          entries := writer.entries ++ layTable checksum writer.buf.length
            ((streamed :: rest).map StreamedSection.pending) } := by
      rw [size, List.map_cons, layPayloads, layTable]
      simp [placed]
    rw [List.foldlM_cons, List.map_cons, checkPending_cons, ← List.map_cons, ← joined]
    constructor
    · rintro ⟨streamedAll, bound⟩
      obtain ⟨next, written, others⟩ := bind_eq_ok.mp streamedAll
      obtain ⟨small, room, ordered, start, _, rfl⟩ := (write_eq_ok own).mp written
      obtain ⟨few, ascending, fits, same⟩ :=
        (ih later (by rw [count]; exact room)).mp ⟨others, bound⟩
      rw [count] at few
      rw [last] at ascending
      rw [size] at fits
      rw [List.length_cons]
      refine ⟨?_, ⟨small, ordered, ascending⟩, ⟨start, fits⟩, same⟩
      change writer.entries.length + 1 + rest.length ≤ writer.maxSections at few
      omega
    · rintro ⟨few, ⟨small, ordered, ascending⟩, fits, same⟩
      rw [List.length_cons] at few
      obtain ⟨start, fits⟩ := fits
      have within := fits.lt
      have reservation : (placed checksum writer streamed.pending).maxSections =
          writer.maxSections := rfl
      obtain ⟨others, bound⟩ := (ih later (by rw [count, reservation]; omega)).mpr
        ⟨by rw [count, reservation]; omega, by rw [last]; exact ascending,
          by rw [size]; exact fits, same⟩
      refine ⟨bind_eq_ok.mpr ⟨_, (write_eq_ok own).mpr ⟨small, by omega, ordered, start,
        by omega, rfl⟩, others⟩, bound⟩

/-- A finished snapshot exists exactly when the buffer's length is a word. -/
theorem finish_eq_ok (checksum : Checksum32) (few : writer.entries.length ≤ maxSectionCount) :
    (∃ bytes, writer.finish checksum = .ok bytes) ↔ writer.buf.length < usizeBound := by
  have size : UInt64.size = usizeBound := rfl
  have most : maxSectionCount < u32Bound := by decide
  unfold SnapshotWriter.finish
  rw [size]
  by_cases long : writer.buf.length ≥ usizeBound
  · simp [long, Nat.not_lt.mpr long]
  · rw [if_neg long, if_neg (by omega)]
    simp [Nat.lt_of_not_ge long]

variable {bytes : Bytes}

/-- A snapshot only finishes when its length is a word. -/
theorem finish_lt (finished : writer.finish checksum = .ok bytes) :
    writer.buf.length < usizeBound := by
  unfold SnapshotWriter.finish at finished
  split at finished
  · cases finished
  · rename_i fits
    exact Nat.lt_of_not_ge fits

/-- A plan is accepted when it has few sections that pass the check. -/
theorem new_eq_ok {sections : List PendingSection} {plan : SnapshotPlan} :
    SnapshotPlan.new sections = .ok plan ↔ sections.length ≤ maxSectionCount ∧
      checkPending none sections = .ok () ∧ plan = { sections } := by
  unfold SnapshotPlan.new
  by_cases many : sections.length > maxSectionCount
  · simp [many, Nat.not_le.mpr many]
  · rw [if_neg many]
    constructor
    · intro created
      obtain ⟨_, checked, created⟩ := bind_eq_ok.mp created
      cases created
      exact ⟨Nat.le_of_not_gt many, checked, rfl⟩
    · rintro ⟨_, checked, rfl⟩
      exact bind_eq_ok.mpr ⟨(), checked, rfl⟩

/-- A plan encodes exactly when it is accepted and its layout fits. -/
theorem planSnapshot_eq_ok {sections : List PendingSection} :
    planSnapshot checksum sections = .ok bytes ↔ sections.length ≤ maxSectionCount ∧
      checkPending none sections = .ok () ∧ Fits (tableEnd sections.length) sections ∧
      bytes = encoded checksum sections := by
  -- A buffer of exactly the encoded length is filled by the encoded snapshot.
  have filled (few : sections.length ≤ maxSectionCount)
      (fits : Fits (tableEnd sections.length) sections) :
      SnapshotPlan.writeInto { sections }
          (List.replicate (encoded checksum sections).length 0) checksum =
        .ok ((encoded checksum sections).length, encoded checksum sections) := by
    rw [writeInto_ok checksum few fits (by simp)]
    simp
  unfold planSnapshot
  constructor
  · intro encodedOk
    obtain ⟨plan, created, encodedOk⟩ := bind_eq_ok.mp encodedOk
    obtain ⟨few, checked, rfl⟩ := new_eq_ok.mp created
    obtain ⟨needed, size, encodedOk⟩ := bind_eq_ok.mp encodedOk
    obtain ⟨fits, total⟩ := (encodedLen_eq_ok few).mp size
    rw [← length_encoded checksum] at total
    rw [total] at encodedOk
    obtain ⟨result, written, encodedOk⟩ := bind_eq_ok.mp encodedOk
    rw [filled few fits] at written
    cases written
    cases encodedOk
    exact ⟨few, checked, fits, rfl⟩
  · rintro ⟨few, checked, fits, rfl⟩
    exact bind_eq_ok.mpr ⟨_, new_eq_ok.mpr ⟨few, checked, rfl⟩, bind_eq_ok.mpr ⟨_,
      (encodedLen_eq_ok few).mpr ⟨fits, length_encoded checksum sections⟩,
      bind_eq_ok.mpr ⟨_, filled few fits, rfl⟩⟩⟩

/-- A writer that has laid sections out over a reservation. -/
def laidOut (checksum : Checksum32) (maxSections : Nat) (sections : List PendingSection) :
    SnapshotWriter :=
  { buf := List.replicate (headerSize + maxSections * sectionEntrySize) 0 ++
      layPayloads (tableEnd maxSections) sections
    entries := layTable checksum (tableEnd maxSections) sections
    maxSections }

variable {maxSections : Nat}

/-- Streaming into a new writer lays the sections out over its reservation. -/
theorem writeAll_new (folds : ∀ streamed ∈ streams, streamed.Folds checksum)
    (created : SnapshotWriter.new maxSections = .ok writer) :
    (streams.foldlM (StreamedSection.write checksum) writer = .ok after ∧
        after.buf.length < usizeBound) ↔
      streams.length ≤ maxSections ∧
        checkPending none (streams.map StreamedSection.pending) = .ok () ∧
        Fits (tableEnd maxSections) (streams.map StreamedSection.pending) ∧
        after = laidOut checksum maxSections (streams.map StreamedSection.pending) := by
  unfold SnapshotWriter.new at created
  split at created
  · cases created
  cases created
  have size : (List.replicate (headerSize + maxSections * sectionEntrySize)
      (0 : UInt8)).length = tableEnd maxSections := List.length_replicate
  rw [writeAll_eq_ok folds (Nat.zero_le _)]
  simp only [List.length_nil, Nat.zero_add, size, List.nil_append, lastKind, List.getLast?_nil,
    Option.map_none, laidOut]

/-- A new writer keeps its reservation. -/
theorem new_maxSections (created : SnapshotWriter.new maxSections = .ok writer) :
    writer.maxSections = maxSections := by
  unfold SnapshotWriter.new at created
  split at created
  · cases created
  · cases created
    rfl

/-- Sections laid out over a reservation finish to the encoded snapshot over it. -/
theorem finish_laidOut {sections : List PendingSection} (few : maxSections ≤ maxSectionCount)
    (capacity : sections.length ≤ maxSections) :
    (laidOut checksum maxSections sections).finish checksum = .ok bytes ↔
      (laidOut checksum maxSections sections).buf.length < usizeBound ∧
        bytes = encodedIn checksum maxSections sections := by
  have entries : (laidOut checksum maxSections sections).entries.length = sections.length :=
    length_layTable _ _ _
  have slots : maxSections * sectionEntrySize = sections.length * sectionEntrySize +
      (maxSections - sections.length) * sectionEntrySize := by
    rw [← Nat.add_mul, Nat.add_sub_cancel' capacity]
  have reserve : headerSize + sections.length * sectionEntrySize ≤
      (List.replicate (headerSize + maxSections * sectionEntrySize) (0 : UInt8)).length := by
    rw [List.length_replicate, slots]
    omega
  have unused : (laidOut checksum maxSections sections).buf.drop
      (headerSize + sections.length * sectionEntrySize) =
      List.replicate ((maxSections - sections.length) * sectionEntrySize) 0 ++
        layPayloads (tableEnd maxSections) sections := by
    unfold laidOut
    rw [List.drop_append_of_le_length reserve, List.drop_replicate, slots]
    congr 2
    omega
  have whole {bytes : Bytes}
      (done : (laidOut checksum maxSections sections).finish checksum = .ok bytes) :
      bytes = encodedIn checksum maxSections sections := by
    obtain ⟨_, header, same, headerEq⟩ := finish_eq (by
      rw [entries]
      unfold laidOut
      rw [List.length_append]
      omega) done
    rw [same, entries, unused, headerEq]
    rfl
  constructor
  · intro done
    exact ⟨finish_lt done, whole done⟩
  · rintro ⟨short, rfl⟩
    obtain ⟨bytes, done⟩ := (finish_eq_ok checksum (by rw [entries]; omega)).mpr short
    rw [done, whole done]

/-- A stream of sections finishes exactly when a plan of them over the reservation does. -/
theorem streamSnapshot_eq_ok (folds : ∀ streamed ∈ streams, streamed.Folds checksum) :
    streamSnapshot checksum maxSections streams = .ok bytes ↔
      maxSections ≤ maxSectionCount ∧ streams.length ≤ maxSections ∧
        checkPending none (streams.map StreamedSection.pending) = .ok () ∧
        Fits (tableEnd maxSections) (streams.map StreamedSection.pending) ∧
        bytes = encodedIn checksum maxSections (streams.map StreamedSection.pending) := by
  have count : (streams.map StreamedSection.pending).length = streams.length := List.length_map _
  unfold streamSnapshot
  constructor
  · intro streamed
    obtain ⟨start, created, streamed⟩ := bind_eq_ok.mp streamed
    obtain ⟨after, written, done⟩ := bind_eq_ok.mp streamed
    have blank : Wrote checksum start [] := wrote_new created
    have few := blank.limit
    rw [new_maxSections created] at few
    obtain ⟨capacity, checked, fits, rfl⟩ :=
      (writeAll_new folds created).mp ⟨written, finish_lt done⟩
    exact ⟨few, capacity, checked, fits,
      ((finish_laidOut few (by rw [count]; exact capacity)).mp done).2⟩
  · rintro ⟨few, capacity, checked, fits, rfl⟩
    obtain ⟨start, created⟩ : ∃ start, SnapshotWriter.new maxSections = .ok start :=
      ⟨_, if_neg (Nat.not_lt.mpr few)⟩
    obtain ⟨written, short⟩ := (writeAll_new folds created).mpr ⟨capacity, checked, fits, rfl⟩
    exact bind_eq_ok.mpr ⟨_, created, bind_eq_ok.mpr ⟨_, written,
      (finish_laidOut few (by rw [count]; exact capacity)).mpr ⟨short, rfl⟩⟩⟩

-- Every way of driving the sinks.

/-- The section a reader reports, as a plan describes it. -/
def Section.planned (found : Section) : PendingSection :=
  { kind := found.kind, version := found.version, alignmentLog2 := found.alignmentLog2
    payload := found.payload }

variable {planned : List PendingSection}

/-- A reader reports the sections a writer has laid out, in order. -/
theorem Reopened.sections {snapshot : Snapshot}
    (reopened : Reopened checksum writer bytes snapshot) (wrote : Wrote checksum writer planned) :
    snapshot.sections.map Section.planned = planned := by
  rw [← wrote.planned]
  unfold Snapshot.sections
  rw [reopened.entries, reopened.same, List.map_map]
  refine List.map_congr_left fun entry member => ?_
  change ({ payload := entry.payload bytes, .. } : PendingSection) = _
  rw [reopened.kept entry member]
  rfl

/-- A section pushed through a sink is in progress with its whole payload. -/
theorem Wrote.push {streamed : StreamedSection} {sink : SectionSink}
    (folds : streamed.Folds checksum) (wrote : Wrote checksum writer planned)
    (pushed : streamed.push checksum writer = .ok sink) :
    Filling checksum sink planned streamed.pending.payload ∧
      sink.crc = checksum 0 streamed.pending.payload ∧
      (⟨sink.kind, sink.version, sink.alignmentLog2, streamed.pending.payload⟩ :
        PendingSection) = streamed.pending := by
  obtain ⟨first, begun, pushed⟩ := bind_eq_ok.mp pushed
  obtain ⟨filling, kind, version, alignmentLog2, crc, _, _⟩ := wrote.beginSection begun
  cases pushed
  have filled := filling.writeChunks streamed.chunks
  refine ⟨filled.filling, ?_, ?_⟩
  · rw [writeChunks_eq, crc]
    exact folds
  · rw [filled.kind, filled.version, filled.alignmentLog2, kind, version, alignmentLog2]
    rfl

/-- One use of a sink lays out the section it ends, and nothing else. -/
theorem Wrote.run (lawful : Lawful checksum) (wrote : Wrote checksum writer planned)
    (use : SinkUse) :
    Wrote checksum (use.run checksum writer).1 (planned ++ (use.run checksum writer).2) := by
  unfold SinkUse.run
  cases pushed : use.streamed.push checksum writer with
  | error error =>
    rw [List.append_nil]
    exact wrote
  | ok sink =>
    obtain ⟨filling, crc, same⟩ := wrote.push (lawful.folds use.streamed) pushed
    have dropped : Wrote checksum sink.writer (planned ++ []) := by
      rw [List.append_nil]
      exact filling.wrote
    dsimp only
    split
    · cases ended : sink.endSection with
      | error error => exact dropped
      | ok after =>
        have wrote := filling.endSection crc ended
        rw [same] at wrote
        exact wrote
    · exact dropped

/-- Any uses of sinks lay out the sections they end, in order. -/
theorem Wrote.runSinks (lawful : Lawful checksum) (wrote : Wrote checksum writer planned)
    (uses : List SinkUse) :
    Wrote checksum (runSinks checksum writer uses).1
      (planned ++ (Container.runSinks checksum writer uses).2) := by
  induction uses generalizing writer planned with
  | nil =>
    rw [Container.runSinks, List.append_nil]
    exact wrote
  | cons use rest ih =>
    have later := ih (wrote.run lawful use)
    rw [List.append_assoc] at later
    exact later

/-- Uses after other uses go on from the writer those left. -/
theorem runSinks_snoc (checksum : Checksum32) (writer : SnapshotWriter) (uses : List SinkUse)
    (use : SinkUse) : (runSinks checksum writer (uses ++ [use])).2 =
      (runSinks checksum writer uses).2 ++ (use.run checksum (runSinks checksum writer uses).1).2 := by
  induction uses generalizing writer with
  | nil => exact List.append_nil _
  | cons first rest ih =>
    rw [List.cons_append]
    simp only [runSinks, ih, List.append_assoc]

/-- No use of a sink changes the reservation. -/
theorem maxSections_runSinks (checksum : Checksum32) (writer : SnapshotWriter)
    (uses : List SinkUse) :
    (runSinks checksum writer uses).1.maxSections = writer.maxSections := by
  induction uses generalizing writer with
  | nil => rfl
  | cons use rest ih =>
    refine (ih (use.run checksum writer).1).trans ?_
    rw [SinkUse.run]
    cases pushed : use.streamed.push checksum writer with
    | error error => rfl
    | ok sink =>
      have kept : sink.writer.maxSections = writer.maxSections := by
        obtain ⟨first, begun, pushed⟩ := bind_eq_ok.mp pushed
        obtain ⟨_, _, _, _, rfl⟩ := beginSection_eq_ok.mp begun
        cases pushed
        rw [writeChunks_eq]
        rfl
      dsimp only
      split
      · cases ended : sink.endSection with
        | error error => exact kept
        | ok after =>
          simp only [SectionSink.endSection] at ended
          split at ended
          · cases ended
          · split at ended
            · cases ended
            · cases ended
              exact kept
      · exact kept

/-- Streaming every section to its end is one way of using the sinks. -/
theorem Wrote.writeAll (folds : ∀ streamed ∈ streams, streamed.Folds checksum)
    (wrote : Wrote checksum writer planned)
    (written : streams.foldlM (StreamedSection.write checksum) writer = .ok after) :
    Wrote checksum after (planned ++ streams.map StreamedSection.pending) := by
  induction streams generalizing writer planned with
  | nil =>
    cases written
    rw [List.map_nil, List.append_nil]
    exact wrote
  | cons streamed rest ih =>
    obtain ⟨next, first, others⟩ := bind_eq_ok.mp written
    obtain ⟨sink, pushed, ended⟩ := bind_eq_ok.mp first
    obtain ⟨filling, crc, same⟩ := wrote.push (folds streamed List.mem_cons_self) pushed
    have wroteNext := filling.endSection crc ended
    rw [same] at wroteNext
    have later := ih (fun other member => folds other (List.mem_cons_of_mem _ member)) wroteNext
      others
    rw [List.append_assoc] at later
    exact later

/-- A snapshot that holds exactly a list of sections: it opens, and reports them in order. -/
def Holds (checksum : Checksum32) (bytes : Bytes) (sections : List PendingSection) : Prop :=
  ∃ snapshot, Snapshot.openBytes bytes = .ok snapshot ∧
    Snapshot.openChecked bytes checksum = .ok snapshot ∧
    snapshot.sections.map Section.planned = sections

/-- What a writer has laid out is what its finished snapshot holds. -/
theorem Wrote.holds (wrote : Wrote checksum writer planned)
    (finished : writer.finish checksum = .ok bytes) : Holds checksum bytes planned := by
  obtain ⟨snapshot, reopened⟩ := wrote.reopen finished
  exact ⟨snapshot, reopened.opened, reopened.checked, reopened.sections wrote⟩

/-- A finished stream holds its sections. -/
theorem holds_of_stream (folds : ∀ streamed ∈ streams, streamed.Folds checksum)
    (streamed : streamSnapshot checksum maxSections streams = .ok bytes) :
    Holds checksum bytes (streams.map StreamedSection.pending) := by
  obtain ⟨writer, created, streamed⟩ := bind_eq_ok.mp streamed
  obtain ⟨after, written, finished⟩ := bind_eq_ok.mp streamed
  exact ((wrote_new created).writeAll folds written).holds finished

/--
Streaming over exactly the sections encodes as the plan does.

Over a larger reservation, or with sinks dropped anywhere, the finished snapshot holds exactly the
sections ended. Among these is each section whose sink is ended and whose kind, alignment and length
may follow what was ended before it, whatever was dropped in between.
-/
theorem stream_agrees_with_plan (lawful : Lawful checksum) :
    (∀ (streams : List StreamedSection) (bytes : Bytes),
      streamSnapshot checksum streams.length streams = .ok bytes ↔
        planSnapshot checksum (streams.map StreamedSection.pending) = .ok bytes) ∧
    (∀ (streams : List StreamedSection) (plan : SnapshotPlan) (maxSections : Nat),
      SnapshotPlan.new (streams.map StreamedSection.pending) = .ok plan →
      streams.length ≤ maxSections → maxSections ≤ maxSectionCount →
      Fits (tableEnd maxSections) (streams.map StreamedSection.pending) →
      ∃ bytes, streamSnapshot checksum maxSections streams = .ok bytes ∧
        Holds checksum bytes (streams.map StreamedSection.pending)) ∧
    (∀ (maxSections : Nat) (writer : SnapshotWriter) (uses : List SinkUse),
      SnapshotWriter.new maxSections = .ok writer →
      (runSinks checksum writer uses).1.buf.length < usizeBound →
      ∃ bytes, (runSinks checksum writer uses).1.finish checksum = .ok bytes ∧
        Holds checksum bytes (runSinks checksum writer uses).2) ∧
    ∀ (maxSections : Nat) (writer : SnapshotWriter) (uses : List SinkUse)
      (streamed : StreamedSection), SnapshotWriter.new maxSections = .ok writer →
      (runSinks checksum writer uses).2.length < maxSections →
      (∀ last ∈ (runSinks checksum writer uses).2.getLast?, last.kind < streamed.kind) →
      streamed.alignmentLog2 ≤ maxAlignmentLog2 →
      streamed.pending.payload.length < usizeBound →
      (runSinks checksum writer uses).1.buf.length + (2 ^ streamed.alignmentLog2.toNat - 1) <
        usizeBound →
      (runSinks checksum writer (uses ++ [⟨streamed, true⟩])).2 =
        (runSinks checksum writer uses).2 ++ [streamed.pending] := by
  refine ⟨?_, ?_, ?_, ?_⟩
  · intro streams bytes
    rw [streamSnapshot_eq_ok fun streamed _ => lawful.folds streamed, planSnapshot_eq_ok, List.length_map]
    have exact_ := encodedIn_self checksum (streams.map StreamedSection.pending)
    rw [List.length_map] at exact_
    rw [exact_]
    constructor
    · rintro ⟨few, _, rest⟩
      exact ⟨few, rest⟩
    · rintro ⟨few, rest⟩
      exact ⟨few, Nat.le_refl _, rest⟩
  · intro streams plan maxSections created capacity few fits
    obtain ⟨_, checked, _⟩ := new_eq_ok.mp created
    have streamed := (streamSnapshot_eq_ok fun streamed _ =>
      lawful.folds streamed).mpr ⟨few, capacity, checked, fits, rfl⟩
    exact ⟨_, streamed, holds_of_stream (fun streamed _ => lawful.folds streamed) streamed⟩
  · intro maxSections writer uses created short
    have wrote := (wrote_new created).runSinks lawful uses
    rw [List.nil_append] at wrote
    obtain ⟨bytes, finished⟩ :=
      (finish_eq_ok checksum (Nat.le_trans wrote.capacity wrote.limit)).mpr short
    exact ⟨bytes, finished, wrote.holds finished⟩
  · intro maxSections writer uses streamed created capacity ascends small short room
    have wrote := (wrote_new created).runSinks lawful uses
    rw [List.nil_append] at wrote
    have reservation := (maxSections_runSinks checksum writer uses).trans (new_maxSections created)
    rw [runSinks_snoc]
    generalize runSinks checksum writer uses = reached at *
    -- What was ended is what the writer recorded, so nothing keeps the section from beginning.
    have recorded : reached.1.entries.length = reached.2.length := by
      rw [← wrote.planned, List.length_map]
    have follows : (lastKind reached.1).filter (fun prev => decide (streamed.kind ≤ prev)) = none := by
      rw [Option.filter_eq_none_iff]
      intro kind found
      obtain ⟨last, recordedLast, rfl⟩ := Option.map_eq_some_iff.mp found
      have listed : RawSectionEntry.described reached.1.buf last ∈ reached.2.getLast? := by
        rw [← wrote.planned, List.getLast?_map, recordedLast]
        rfl
      exact fun most => UInt32.not_le.mpr (ascends _ listed) (of_decide_eq_true most)
    obtain ⟨sink, pushed, ended⟩ := bind_eq_ok.mp ((write_eq_ok (lawful.folds streamed)).mpr
      ⟨UInt8.not_lt.mpr small, by rw [recorded, reservation]; exact capacity, follows, room, short,
        rfl⟩)
    unfold SinkUse.run
    simp only [pushed, ended, if_true]

/-- The Castagnoli checksum is lawful. -/
theorem castagnoli_lawfulFold : Lawful castagnoli.crc32cAppend :=
  { continues := (@LawfulCrc32c.continues castagnoli castagnoli_lawful)
    nothing := (@LawfulCrc32c.nothing castagnoli castagnoli_lawful) }

/-- A section dropped after two chunks leaves only the one begun again and ended. -/
theorem stream_agrees_dropped_then_ended : ∃ writer bytes,
    SnapshotWriter.new 2 = .ok writer ∧
    (runSinks castagnoli.crc32cAppend writer
      [⟨⟨1, 1, 0, [[7], [8]]⟩, false⟩, ⟨⟨1, 1, 3, [[1], [2, 3]]⟩, true⟩]).1.finish
        castagnoli.crc32cAppend = .ok bytes ∧
    Holds castagnoli.crc32cAppend bytes [⟨1, 1, 3, [1, 2, 3]⟩] := by
  obtain ⟨bytes, finished, holds⟩ := (stream_agrees_with_plan castagnoli_lawfulFold).2.2.1 2 _
    [⟨⟨1, 1, 0, [[7], [8]]⟩, false⟩, ⟨⟨1, 1, 3, [[1], [2, 3]]⟩, true⟩] rfl (by decide +kernel)
  exact ⟨_, bytes, rfl, finished, holds⟩

-- A plan, read back.

/-- Within a layout, a byte outside every payload is padding. -/
theorem layPayloads_gap (checksum : Checksum32) {cursor index : Nat}
    {sections : List PendingSection} {byte : UInt8}
    (fits : Fits cursor sections) (found : (layPayloads cursor sections)[index]? = some byte)
    (outside : ∀ entry ∈ layTable checksum cursor sections,
      ¬ (entry.offset.toNat ≤ cursor + index ∧ cursor + index < entry.stop)) : byte = 0 := by
  induction sections generalizing cursor index with
  | nil => cases found
  | cons pending rest ih =>
    have up := le_alignUp cursor pending.alignmentLog2
    have low := alignUp_le cursor pending.alignmentLog2
    obtain ⟨room, later⟩ := fits
    have within := later.lt
    rw [layTable] at outside
    rw [layPayloads] at found
    have own := outside _ List.mem_cons_self
    have others := fun entry member => outside entry (List.mem_cons_of_mem _ member)
    generalize alignUp cursor pending.alignmentLog2 = start at *
    have offset : (entryAt checksum start pending).offset.toNat = start :=
      UInt64.toNat_ofNat_of_lt' (by change start < usizeBound; omega)
    have stop : (entryAt checksum start pending).stop = start + pending.payload.length := by
      unfold RawSectionEntry.stop
      rw [offset]
      exact congrArg _ (UInt64.toNat_ofNat_of_lt' (by
        change pending.payload.length < usizeBound
        omega))
    rw [offset, stop] at own
    by_cases padding : index < start - cursor
    · rw [List.getElem?_append_left (by rw [List.length_replicate]; exact padding)] at found
      exact List.eq_of_mem_replicate (List.mem_of_getElem? found)
    · rw [List.getElem?_append_right (by rw [List.length_replicate]; omega),
        List.length_replicate] at found
      -- Past the padding and outside this payload, the byte belongs to a later section.
      have beyond : pending.payload.length ≤ index - (start - cursor) := by omega
      rw [List.getElem?_append_right beyond] at found
      refine ih later found fun entry member => ?_
      have apart := others entry member
      have same : start + pending.payload.length +
          (index - (start - cursor) - pending.payload.length) = cursor + index := by omega
      rw [same]
      exact apart

/-- A plan's bytes are those of a writer that has laid out its sections. -/
theorem wrote_encoded (checksum : Checksum32) {sections : List PendingSection}
    (few : sections.length ≤ maxSectionCount) (checked : checkPending none sections = .ok ())
    (fits : Fits (tableEnd sections.length) sections) :
    Wrote checksum (laidOut checksum sections.length sections) sections ∧
      (laidOut checksum sections.length sections).finish checksum =
        .ok (encoded checksum sections) := by
  -- The writer that streams each payload as one chunk lays out the same bytes.
  let streams : List StreamedSection := sections.map fun pending =>
    { kind := pending.kind, version := pending.version, alignmentLog2 := pending.alignmentLog2
      chunks := [pending.payload] }
  have pendings : streams.map StreamedSection.pending = sections := by
    rw [List.map_map]
    refine (List.map_congr_left fun pending _ => ?_).trans (List.map_id sections)
    simp [StreamedSection.pending]
  have folds : ∀ streamed ∈ streams, streamed.Folds checksum := by
    intro streamed member
    obtain ⟨pending, _, rfl⟩ := List.mem_map.mp member
    simp [StreamedSection.Folds, StreamedSection.pending]
  have count : streams.length = sections.length := List.length_map _
  obtain ⟨start, created⟩ : ∃ start, SnapshotWriter.new sections.length = .ok start :=
    ⟨_, if_neg (Nat.not_lt.mpr few)⟩
  obtain ⟨written, short⟩ := (writeAll_new folds created).mpr
    ⟨Nat.le_of_eq count, by rw [pendings]; exact checked, by rw [pendings]; exact fits, rfl⟩
  have wrote := (wrote_new created).writeAll folds written
  rw [List.nil_append] at wrote
  rw [pendings] at wrote short
  have finished := (finish_laidOut few (Nat.le_refl _)).mpr ⟨short, rfl⟩
  rw [encodedIn_self] at finished
  exact ⟨wrote, finished⟩

/-- A plan accepted and sized fills exactly its encoded length, and what it writes opens to
exactly its sections, aligned and with zeros between them. -/
theorem plan_round_trip (checksum : Checksum32) {sections : List PendingSection}
    {plan : SnapshotPlan} {needed : Nat} {out : Bytes}
    (accepted : SnapshotPlan.new sections = .ok plan) (sized : plan.encodedLen = .ok needed)
    (room : needed ≤ out.length) :
    ∃ bytes snapshot, bytes.length = needed ∧
      plan.writeInto out checksum = .ok (needed, bytes ++ out.drop needed) ∧
      Snapshot.openBytes bytes = .ok snapshot ∧
      snapshot.entries.length = sections.length ∧
      snapshot.sections.map Section.planned = sections ∧
      (snapshot.sections.Pairwise fun before after => before.kind < after.kind) ∧
      (∀ entry ∈ snapshot.entries, entry.offset.toNat % 2 ^ entry.alignmentLog2.toNat = 0) ∧
      (∀ index byte, bytes[index]? = some byte → tableEnd sections.length ≤ index →
        (∀ entry ∈ snapshot.entries, ¬ (entry.offset.toNat ≤ index ∧ index < entry.stop)) →
        byte = 0) ∧
      ∀ kind, (snapshot.sectionOf kind).map Section.planned =
        sections.find? fun pending => pending.kind = kind := by
  obtain ⟨few, checked, rfl⟩ := new_eq_ok.mp accepted
  obtain ⟨fits, total⟩ := (encodedLen_eq_ok few).mp sized
  dsimp only at fits total
  rw [← length_encoded checksum] at total
  obtain ⟨wrote, finished⟩ := wrote_encoded checksum few checked fits
  obtain ⟨snapshot, reopened⟩ := wrote.reopen finished
  have entries : snapshot.entries =
      layTable checksum (tableEnd sections.length) sections := reopened.entries
  have listed := reopened.sections wrote
  refine ⟨encoded checksum sections, snapshot, total.symm, ?_, reopened.opened, ?_, listed, ?_, ?_,
    ?_, ?_⟩
  · rw [total]
    exact writeInto_ok checksum few fits (by rw [← total]; exact room)
  · rw [entries, length_layTable]
  · unfold Snapshot.sections
    rw [reopened.entries]
    exact List.pairwise_map.mpr wrote.ascending
  · rw [reopened.entries]
    exact fun entry member => (wrote.laid entry member).multiple
  · intro index byte found past outside
    rw [entries] at outside
    have width (header : RawHeader) : (asBytes header).length = headerSize :=
      FixedLayout.length_asBytes header
    have front (header : RawHeader) : (asBytes header ++ arrayBytes
        (layTable checksum (tableEnd sections.length) sections)).length =
          tableEnd sections.length := by
      rw [List.length_append, width, length_layTable_bytes, tableEnd]
    unfold encoded at found
    dsimp only at found
    rw [← List.append_assoc, List.getElem?_append_right (by rw [front]; exact past), front] at found
    refine layPayloads_gap checksum fits found fun entry member => ?_
    rw [Nat.add_sub_cancel' past]
    exact outside entry member
  · intro kind
    rw [sectionOf_eq_find (by rw [reopened.entries]; exact wrote.ascending) kind, Option.map_map]
    rw [← listed]
    unfold Snapshot.sections
    rw [List.map_map, List.find?_map]
    rfl

/-- An empty payload, a wide alignment and the largest kind make the round trip. -/
theorem plan_round_trip_mixed : ∃ bytes snapshot, bytes.length = 131 ∧
    SnapshotPlan.writeInto { sections := [⟨0, 1, 3, []⟩, ⟨0xFFFFFFFF, 2, 7, [1, 2, 3]⟩] }
      (List.replicate 132 9) castagnoli.crc32cAppend = .ok (131, bytes ++ [9]) ∧
    Snapshot.openBytes bytes = .ok snapshot ∧
    snapshot.sections.map Section.planned =
      [⟨0, 1, 3, []⟩, ⟨0xFFFFFFFF, 2, 7, [1, 2, 3]⟩] := by
  have accepted : SnapshotPlan.new [⟨0, 1, 3, []⟩, ⟨0xFFFFFFFF, 2, 7, [1, 2, 3]⟩] =
      .ok { sections := [⟨0, 1, 3, []⟩, ⟨0xFFFFFFFF, 2, 7, [1, 2, 3]⟩] } := rfl
  have sized : SnapshotPlan.encodedLen
      { sections := [⟨0, 1, 3, []⟩, ⟨0xFFFFFFFF, 2, 7, [1, 2, 3]⟩] } = .ok 131 := rfl
  have room : 131 ≤ (List.replicate 132 (9 : UInt8)).length := by rw [List.length_replicate]; decide
  obtain ⟨bytes, snapshot, size, written, opened, _, listed, _⟩ :=
    plan_round_trip castagnoli.crc32cAppend accepted sized room
  exact ⟨bytes, snapshot, size, written, opened, listed⟩

end Oxgraph.Container
