import Oxgraph.Layout.Arrays
import Oxgraph.Proofs.Snapshot.Stream

/-! Sections of raw bytes and of index words: what a snapshot writer lays out is what a reader binds. -/

namespace Oxgraph.Layout

open Container

/-- A section whose bytes are streamed as one chunk. -/
def rawSection (kind version : UInt32) (alignmentLog2 : UInt8) (bytes : Bytes) : StreamedSection :=
  { kind, version, alignmentLog2, chunks := [bytes] }

/-- Writing a section of raw bytes streams it. -/
theorem sectionBytes_eq (checksum : Checksum32) (writer : SnapshotWriter) (kind version : UInt32)
    (alignmentLog2 : UInt8) (bytes : Bytes) :
    sectionBytes checksum writer kind version alignmentLog2 bytes =
      (rawSection kind version alignmentLog2 bytes).write checksum writer := by
  unfold sectionBytes StreamedSection.write StreamedSection.push
  dsimp only [rawSection]
  cases writer.beginSection kind version alignmentLog2 with
  | error _ => rfl
  | ok _ => rfl

/-- The payload of a section that was planned. -/
theorem pending_rawSection (kind version : UInt32) (alignmentLog2 : UInt8) (bytes : Bytes) :
    (rawSection kind version alignmentLog2 bytes).pending =
      { kind, version, alignmentLog2, payload := bytes } := by
  unfold rawSection StreamedSection.pending
  rw [List.flatten_singleton]

/-- One chunk folds into its own checksum. -/
theorem folds_rawSection (checksum : Checksum32) (kind version : UInt32) (alignmentLog2 : UInt8)
    (bytes : Bytes) : (rawSection kind version alignmentLog2 bytes).Folds checksum := by
  unfold StreamedSection.Folds
  rw [pending_rawSection]
  rfl

section

variable {W : Type} [FixedLayout W]

/-- The section that holds index words, streamed as one chunk. -/
def wordSection (kind version : UInt32) (words : List W) : StreamedSection :=
  { kind, version, alignmentLog2 := 0, chunks := [arrayBytes words] }

/-- The payload of the section is the bytes of the words. -/
@[simp] theorem payload_wordSection (kind version : UInt32) (words : List W) :
    (wordSection kind version words).pending.payload = arrayBytes words :=
  List.flatten_singleton

/-- Writing index words streams their section. -/
theorem sectionWidths_eq (checksum : Checksum32) (writer : SnapshotWriter)
    (kind version : UInt32) (words : List W) :
    sectionWidths writer checksum kind version words =
      (wordSection kind version words).write checksum writer :=
  sectionBytes_eq checksum writer kind version 0 (arrayBytes words)

/-- A payload in one chunk folds into its own checksum, whatever the checksum is. -/
theorem folds_wordSection (checksum : Checksum32) (kind version : UInt32) (words : List W) :
    (wordSection kind version words).Folds checksum :=
  folds_rawSection checksum kind version 0 (arrayBytes words)

/-- Cutting the bytes of words at the word size gives back the words. -/
theorem map_elements_arrayBytes (words : List W) :
    (Section.elements (FixedLayout.size W) words.length (arrayBytes words)).map readFromPrefix =
      words := by
  induction words with
  | nil => rfl
  | cons word rest ih =>
    have width : (asBytes word).length = FixedLayout.size W := FixedLayout.length_asBytes word
    -- The first cut is exactly the first word, and the rest is cut the same way.
    rw [arrayBytes_cons, List.length_cons, Section.elements, List.take_left' width,
      List.drop_left' width, List.map_cons, ih]
    have read := FixedLayout.read_asBytes word []
    rw [List.append_nil] at read
    rw [read]

/-- A section that holds words is bound as the words. -/
theorem typedWords_eq_ok {snapshot : Container.Snapshot} {kind version : UInt32} {words : List W}
    {found : Section} (located : snapshot.sectionOf kind = some found)
    (holds : found.planned = (wordSection kind version words).pending) :
    typedWords W snapshot kind version = .ok words := by
  have same : found.version = version := congrArg PendingSection.version holds
  have payload : found.payload = arrayBytes words :=
    (congrArg PendingSection.payload holds).trans (payload_wordSection kind version words)
  have positive : 0 < FixedLayout.size W := FixedLayout.size_pos
  have length : (arrayBytes words).length = words.length * FixedLayout.size W :=
    length_arrayBytes words
  unfold typedWords Container.Snapshot.typedSection
  rw [located]
  dsimp only
  -- No check of the bind fails: the version, the word size and the address all agree.
  rw [if_neg (not_not.mpr same)]
  unfold Section.tryAsSliceAt
  dsimp only
  rw [payload, length, if_neg (by omega), if_neg (by simp), if_neg (by simp),
    Nat.mul_div_cancel _ positive]
  exact congrArg Except.ok (map_elements_arrayBytes words)

end

variable {checksum : Checksum32}

/-- A reopened snapshot finds each planned section by its kind. -/
theorem sectionOf_planned {writer : SnapshotWriter} {bytes : Bytes}
    {snapshot : Container.Snapshot} {planned : List PendingSection}
    (wrote : Wrote checksum writer planned) (reopened : Reopened checksum writer bytes snapshot)
    {pending : PendingSection} (member : pending ∈ planned) :
    ∃ found, snapshot.sectionOf pending.kind = some found ∧ found.planned = pending := by
  have sections := reopened.sections wrote
  unfold Container.Snapshot.sections at sections
  rw [← sections, List.map_map, List.mem_map] at member
  obtain ⟨entry, listed, rfl⟩ := member
  have ascending : snapshot.entries.Pairwise fun before after => before.kind < after.kind := by
    rw [reopened.entries]
    exact wrote.ascending
  have kinds : (snapshot.entries.map RawSectionEntry.kind).Nodup :=
    List.pairwise_map.mpr (ascending.imp UInt32.ne_of_lt)
  refine ⟨Section.fromEntry snapshot.bytes entry, ?_, rfl⟩
  rw [sectionOf_eq_find ascending]
  -- Kinds ascend, so the entry that is found for the kind is the entry itself.
  show (snapshot.entries.find? fun other => other.kind = entry.kind).map _ = _
  cases scan : snapshot.entries.find? fun other => other.kind = entry.kind with
  | none => exact absurd (decide_eq_true rfl) (List.find?_eq_none.mp scan entry listed)
  | some other =>
    have keeps := List.find?_some scan
    have same : other.kind = entry.kind := of_decide_eq_true keeps
    rw [List.inj_on_of_nodup_map kinds (List.mem_of_find?_eq_some scan) listed same]
    rfl

/-- A finished stream reopens, and each of its sections is found by its kind. -/
theorem reopened_of_stream {maxSections : Nat} {streams : List StreamedSection} {bytes : Bytes}
    (folds : ∀ streamed ∈ streams, streamed.Folds checksum)
    (encoded : streamSnapshot checksum maxSections streams = .ok bytes) :
    ∃ snapshot, Container.Snapshot.openBytes bytes = .ok snapshot ∧
      Container.Snapshot.openChecked bytes checksum = .ok snapshot ∧
      ∀ streamed ∈ streams, ∃ found, snapshot.sectionOf streamed.kind = some found ∧
        found.planned = streamed.pending := by
  obtain ⟨writer, created, encoded⟩ := bind_eq_ok.mp encoded
  obtain ⟨after, written, finished⟩ := bind_eq_ok.mp encoded
  have wrote := (wrote_new created).writeAll folds written
  obtain ⟨snapshot, reopened⟩ := wrote.reopen finished
  refine ⟨snapshot, reopened.opened, reopened.checked, fun streamed member => ?_⟩
  exact sectionOf_planned wrote reopened (List.mem_append_right _ (List.mem_map_of_mem member))

-- When a stream of unaligned sections finishes.

/-- Without an alignment of its own, a section starts where the one before ends. -/
@[simp] theorem alignUp_zero (value : Nat) : alignUp value 0 = value := by
  simp [alignUp]

variable {sections : List PendingSection}

/-- Unaligned sections fit exactly when their payloads can be counted. -/
theorem fits_unaligned {cursor : Nat}
    (unaligned : ∀ pending ∈ sections, pending.alignmentLog2 = 0) :
    Fits cursor sections ↔
      cursor + (sections.map fun pending => pending.payload.length).sum < usizeBound := by
  induction sections generalizing cursor with
  | nil => rfl
  | cons pending rest ih =>
    obtain ⟨own, others⟩ := List.forall_mem_cons.mp unaligned
    rw [Fits, own, alignUp_zero, ih others, List.map_cons, List.sum_cons]
    constructor
    · rintro ⟨_, later⟩
      omega
    · intro later
      refine ⟨?_, by omega⟩
      show cursor + (1 - 1) < usizeBound
      omega

/-- Sections of ascending kinds are accepted when their alignments are. -/
theorem checkPending_ok {prev : Option UInt32}
    (aligned : ∀ pending ∈ sections, pending.alignmentLog2 ≤ maxAlignmentLog2)
    (ascending : (prev.toList ++ sections.map PendingSection.kind).IsChain (· < ·)) :
    checkPending prev sections = .ok () := by
  induction sections generalizing prev with
  | nil => rfl
  | cons pending rest ih =>
    obtain ⟨own, others⟩ := List.forall_mem_cons.mp aligned
    refine checkPending_cons.mpr ⟨UInt8.not_lt.mpr own, ?_, ih others ?_⟩
    · cases prev with
      | none => rfl
      | some kind =>
        have below : kind < pending.kind := (List.isChain_cons_cons.mp ascending).1
        simp [below]
    · cases prev with
      | none => exact ascending
      | some kind => exact (List.isChain_cons_cons.mp ascending).2

/-- Unaligned sections of ascending kinds are accepted. -/
theorem checkPending_unaligned {prev : Option UInt32}
    (unaligned : ∀ pending ∈ sections, pending.alignmentLog2 = 0)
    (ascending : (prev.toList ++ sections.map PendingSection.kind).IsChain (· < ·)) :
    checkPending prev sections = .ok () := by
  refine checkPending_ok (fun pending member => ?_) ascending
  rw [unaligned pending member]
  decide

/-- Unaligned sections of ascending kinds stream over their reservation, if they can be counted. -/
theorem streamSnapshot_unaligned {streams : List StreamedSection}
    (folds : ∀ streamed ∈ streams, streamed.Folds checksum)
    (unaligned : ∀ streamed ∈ streams, streamed.alignmentLog2 = 0)
    (ascending : (streams.map StreamedSection.kind).IsChain (· < ·))
    (few : streams.length ≤ maxSectionCount) (small : tableEnd streams.length +
      (streams.map fun streamed => streamed.pending.payload.length).sum < usizeBound) :
    ∃ bytes, streamSnapshot checksum streams.length streams = .ok bytes := by
  have flat : ∀ pending ∈ streams.map StreamedSection.pending, pending.alignmentLog2 = 0 :=
    List.forall_mem_map.mpr unaligned
  have kinds : (streams.map StreamedSection.pending).map PendingSection.kind =
      streams.map StreamedSection.kind := List.map_map
  have checked : checkPending none (streams.map StreamedSection.pending) = .ok () := by
    refine checkPending_unaligned flat ?_
    rw [Option.toList_none, List.nil_append, kinds]
    exact ascending
  refine ⟨encodedIn checksum streams.length (streams.map StreamedSection.pending), ?_⟩
  rw [streamSnapshot_eq_ok folds]
  refine ⟨few, Nat.le_refl _, checked, (fits_unaligned flat).mpr ?_, rfl⟩
  rw [List.map_map]
  exact small

section

variable {W X : Type} [SnapshotWidth W] [SnapshotWidth X]

/-- Kinds of bases four apart stay in order, whatever the width codes in their low bits. -/
theorem kind_lt {base other : UInt32} (apart : base.toNat + 4 ≤ other.toNat) :
    base ||| SnapshotWidth.widthCode W < other ||| SnapshotWidth.widthCode X := by
  have small : (SnapshotWidth.widthCode W).toNat < 3 := SnapshotWidth.widthCode_lt
  -- The code only changes the two low bits of its base.
  have high : (base.toNat ||| (SnapshotWidth.widthCode W).toNat) / 2 ^ 2 = base.toNat / 2 ^ 2 := by
    rw [Nat.or_div_two_pow, Nat.div_eq_of_lt (a := (SnapshotWidth.widthCode W).toNat) (by omega),
      Nat.or_zero]
  have above : other.toNat ≤ other.toNat ||| (SnapshotWidth.widthCode X).toNat := Nat.left_le_or
  rw [UInt32.lt_iff_toNat_lt, UInt32.toNat_or, UInt32.toNat_or]
  omega

end

end Oxgraph.Layout
