import Oxgraph.Lib.Result
import Oxgraph.Proofs.Snapshot.Container

/-! The planning encoder and the streaming writer lay out the same bytes. -/

namespace Oxgraph.Container

open List (append_assoc length_append length_replicate)

/-- The least multiple of an alignment at or above a length. -/
def alignUp (value : Nat) (alignmentLog2 : UInt8) : Nat :=
  (value + (2 ^ alignmentLog2.toNat - 1)) / 2 ^ alignmentLog2.toNat * 2 ^ alignmentLog2.toNat

variable (checksum : Checksum32)

/-- The table entry of a section whose payload starts at an offset. -/
def entryAt (start : Nat) (pending : PendingSection) : RawSectionEntry :=
  { offset := .ofNat start
    length := .ofNat pending.payload.length
    kind := pending.kind
    version := pending.version
    crc32c := checksum 0 pending.payload
    alignmentLog2 := pending.alignmentLog2
    flags := 0
    reserved := .replicate 2 0 }

/-- The table of sections laid out one after the other from a cursor. -/
def layTable (checksum : Checksum32) : Nat → List PendingSection → List RawSectionEntry
  | _, [] => []
  | cursor, pending :: rest =>
    let start := alignUp cursor pending.alignmentLog2
    entryAt checksum start pending ::
      layTable checksum (start + pending.payload.length) rest

/-- The bytes from a cursor on: each payload, padded with zeros up to its alignment. -/
def layPayloads : Nat → List PendingSection → Bytes
  | _, [] => []
  | cursor, pending :: rest =>
    let start := alignUp cursor pending.alignmentLog2
    List.replicate (start - cursor) 0 ++ (pending.payload ++
      layPayloads (start + pending.payload.length) rest)

/-- Laying sections out from a cursor never leaves the address range. -/
def Fits : Nat → List PendingSection → Prop
  | cursor, [] => cursor < usizeBound
  | cursor, pending :: rest =>
    cursor + (2 ^ pending.alignmentLog2.toNat - 1) < usizeBound ∧
      Fits (alignUp cursor pending.alignmentLog2 + pending.payload.length) rest

/-- The header of a table. -/
def headerOf (table : List RawSectionEntry) : RawHeader :=
  { magic := formatMagic
    formatMajor
    formatMinor
    headerSize := .ofNat headerSize
    sectionCount := .ofNat table.length
    tableCrc32c := checksum 0 (arrayBytes table)
    reserved := .replicate 4 0 }

/-- The end of the table of a number of sections. -/
def tableEnd (count : Nat) : Nat := headerSize + count * sectionEntrySize

/-- The encoded snapshot of a list of sections. -/
def encoded (sections : List PendingSection) : Bytes :=
  let table := layTable checksum (tableEnd sections.length) sections
  asBytes (headerOf checksum table) ++
    (arrayBytes table ++ layPayloads (tableEnd sections.length) sections)

/-- The encoded snapshot of sections over a reservation, whose unused slots stay zero. -/
def encodedIn (maxSections : Nat) (sections : List PendingSection) :
    Bytes :=
  let table := layTable checksum (tableEnd maxSections) sections
  asBytes (headerOf checksum table) ++ (arrayBytes table ++
    (List.replicate ((maxSections - sections.length) * sectionEntrySize) 0 ++
      layPayloads (tableEnd maxSections) sections))

/-- A reservation of exactly the sections leaves no slot unused. -/
theorem encodedIn_self (sections : List PendingSection) :
    encodedIn checksum sections.length sections = encoded checksum sections := by
  simp [encodedIn, encoded]

theorem le_alignUp (value : Nat) (alignmentLog2 : UInt8) : value ≤ alignUp value alignmentLog2 := by
  have positive : 0 < 2 ^ alignmentLog2.toNat := Nat.two_pow_pos _
  have below := Nat.lt_div_mul_add (a := value + (2 ^ alignmentLog2.toNat - 1)) positive
  unfold alignUp
  omega

theorem alignUp_le (value : Nat) (alignmentLog2 : UInt8) :
    alignUp value alignmentLog2 ≤ value + (2 ^ alignmentLog2.toNat - 1) :=
  Nat.div_mul_le_self _ _

/-- Rounding up succeeds exactly when the intermediate sum does not overflow. -/
theorem alignUpChecked_eq_ok {value aligned : Nat} {alignmentLog2 : UInt8} :
    alignUpChecked value alignmentLog2 = .ok aligned ↔
      value + (2 ^ alignmentLog2.toNat - 1) < usizeBound ∧ aligned = alignUp value alignmentLog2 := by
  unfold alignUpChecked checkedAdd alignUp
  by_cases fits : value + (2 ^ alignmentLog2.toNat - 1) < usizeBound
  · simp [fits, eq_comm]
  · simp [fits]

theorem addChecked_eq_ok {left right sum : Nat} :
    addChecked left right = .ok sum ↔ left + right < usizeBound ∧ sum = left + right := by
  unfold addChecked checkedAdd
  by_cases fits : left + right < usizeBound
  · simp [fits, eq_comm]
  · simp [fits]

theorem mulChecked_eq_ok {left right product : Nat} :
    mulChecked left right = .ok product ↔ left * right < usizeBound ∧ product = left * right := by
  unfold mulChecked checkedMul
  by_cases fits : left * right < usizeBound
  · simp [fits, eq_comm]
  · simp [fits]

theorem u64Checked_eq_ok {value : Nat} {word : UInt64} :
    u64Checked value = .ok word ↔ value < usizeBound ∧ word = .ofNat value := by
  have size : UInt64.size = usizeBound := rfl
  unfold u64Checked
  rw [size]
  by_cases fits : value < usizeBound
  · simp [fits, eq_comm]
  · simp [fits]

variable {sections : List PendingSection}

/-- Each section of a layout fits in the address range, and so does the cursor it starts from. -/
theorem Fits.lt {cursor : Nat} (fits : Fits cursor sections) : cursor < usizeBound := by
  cases sections with
  | nil => exact fits
  | cons pending rest => exact Nat.lt_of_le_of_lt (Nat.le_add_right _ _) fits.1

@[simp] theorem length_layTable (cursor : Nat)
    (sections : List PendingSection) : (layTable checksum cursor sections).length = sections.length := by
  induction sections generalizing cursor with
  | nil => rfl
  | cons pending rest ih => rw [layTable, List.length_cons, ih, List.length_cons]

/-- The table of a list of sections occupies its entry count times the entry size. -/
theorem length_layTable_bytes (cursor : Nat)
    (sections : List PendingSection) :
    (arrayBytes (layTable checksum cursor sections)).length = sections.length * sectionEntrySize := by
  rw [length_arrayBytes, length_layTable]
  rfl

/-- A table of as many entries as a snapshot may hold ends inside the address range. -/
theorem tableEnd_lt {count : Nat} (few : count ≤ maxSectionCount) :
    count * sectionEntrySize < usizeBound ∧ headerSize + count * sectionEntrySize < usizeBound := by
  have entry : sectionEntrySize = 32 := rfl
  have header : headerSize = 32 := rfl
  have most : maxSectionCount = 1024 := rfl
  rw [entry, header, usizeBound]
  omega

-- The planning encoder.

/-- Planning the payloads succeeds exactly when the layout fits, and ends where the layout does. -/
theorem payloadEnd_eq_ok {cursor total : Nat} (start : cursor < usizeBound) :
    SnapshotPlan.payloadEnd cursor sections = .ok total ↔
      Fits cursor sections ∧ total = cursor + (layPayloads cursor sections).length := by
  induction sections generalizing cursor with
  | nil =>
    unfold SnapshotPlan.payloadEnd Fits layPayloads
    rw [List.foldlM_nil, List.length_nil, Nat.add_zero]
    exact ⟨fun same => ⟨start, (Except.ok.inj same).symm⟩, fun ⟨_, same⟩ => by rw [same]; rfl⟩
  | cons pending rest ih =>
    have up := le_alignUp cursor pending.alignmentLog2
    have split : SnapshotPlan.payloadEnd cursor (pending :: rest) =
        ((alignUpChecked cursor pending.alignmentLog2 >>= fun aligned =>
          addChecked aligned pending.payload.length) >>= fun next =>
            SnapshotPlan.payloadEnd next rest) := rfl
    have length : (layPayloads cursor (pending :: rest)).length =
        alignUp cursor pending.alignmentLog2 - cursor + (pending.payload.length +
          (layPayloads (alignUp cursor pending.alignmentLog2 + pending.payload.length)
            rest).length) := by
      rw [layPayloads, length_append, length_append, length_replicate]
    rw [split, length]
    constructor
    · intro planned
      obtain ⟨next, step, planned⟩ := bind_eq_ok.mp planned
      obtain ⟨aligned, rounded, added⟩ := bind_eq_ok.mp step
      obtain ⟨room, rfl⟩ := alignUpChecked_eq_ok.mp rounded
      obtain ⟨within, rfl⟩ := addChecked_eq_ok.mp added
      obtain ⟨fits, rfl⟩ := (ih within).mp planned
      exact ⟨⟨room, fits⟩, by omega⟩
    · rintro ⟨⟨room, fits⟩, rfl⟩
      refine bind_eq_ok.mpr ⟨_, bind_eq_ok.mpr ⟨_, alignUpChecked_eq_ok.mpr ⟨room, rfl⟩,
        addChecked_eq_ok.mpr ⟨fits.lt, rfl⟩⟩, (ih fits.lt).mpr ⟨fits, by omega⟩⟩

/-- A fitting layout ends inside the address range. -/
theorem Fits.end_lt {cursor : Nat} (fits : Fits cursor sections) :
    cursor + (layPayloads cursor sections).length < usizeBound := by
  induction sections generalizing cursor with
  | nil => exact fits
  | cons pending rest ih =>
    have up := le_alignUp cursor pending.alignmentLog2
    have later := ih fits.2
    rw [layPayloads, length_append, length_append, length_replicate]
    omega

/-- A layout that fits and a table that is not too large have an encoded length. -/
theorem encodedLen_eq_ok {plan : SnapshotPlan} {needed : Nat}
    (few : plan.sections.length ≤ maxSectionCount) :
    plan.encodedLen = .ok needed ↔
      Fits (tableEnd plan.sections.length) plan.sections ∧
        needed = tableEnd plan.sections.length +
          (layPayloads (tableEnd plan.sections.length) plan.sections).length := by
  obtain ⟨table, start⟩ := tableEnd_lt few
  unfold SnapshotPlan.encodedLen tableEnd
  constructor
  · intro planned
    obtain ⟨tableLen, product, planned⟩ := bind_eq_ok.mp planned
    obtain ⟨_, rfl⟩ := mulChecked_eq_ok.mp product
    obtain ⟨first, sum, planned⟩ := bind_eq_ok.mp planned
    obtain ⟨_, rfl⟩ := addChecked_eq_ok.mp sum
    obtain ⟨total, ended, planned⟩ := bind_eq_ok.mp planned
    obtain ⟨fits, rfl⟩ := (payloadEnd_eq_ok start).mp ended
    obtain ⟨_, _, planned⟩ := bind_eq_ok.mp planned
    exact ⟨fits, (Except.ok.inj planned).symm⟩
  · rintro ⟨fits, rfl⟩
    refine bind_eq_ok.mpr ⟨_, mulChecked_eq_ok.mpr ⟨table, rfl⟩, bind_eq_ok.mpr ⟨_,
      addChecked_eq_ok.mpr ⟨start, rfl⟩, bind_eq_ok.mpr ⟨_,
        (payloadEnd_eq_ok start).mpr ⟨fits, rfl⟩, bind_eq_ok.mpr ⟨_,
          u64Checked_eq_ok.mpr ⟨fits.end_lt, rfl⟩, rfl⟩⟩⟩⟩

/-- Overwriting exactly a middle part of a buffer replaces it. -/
theorem overwrite_middle {front middle bytes back : Bytes} {offset : Nat}
    (place : front.length = offset) (size : middle.length = bytes.length) :
    overwrite (front ++ (middle ++ back)) offset bytes = front ++ (bytes ++ back) := by
  have skip : (front ++ (middle ++ back)).drop (offset + bytes.length) = back := by
    rw [← append_assoc]
    exact List.drop_left' (by rw [length_append, place, size])
  unfold overwrite
  rw [List.take_left' place, skip, append_assoc]

/-- Writing one section fills the first zeroed slot, and the first zeroed space past its padding. -/
theorem writeSection_ok (pending : PendingSection) {index : Nat}
    {front between : Bytes} {slots spare cursor : Nat} (slot : front.length = tableEnd index)
    (few : index ≤ maxSectionCount)
    (place : cursor = front.length + (sectionEntrySize + slots) + between.length)
    (room : cursor + (2 ^ pending.alignmentLog2.toNat - 1) < usizeBound)
    (placed : alignUp cursor pending.alignmentLog2 + pending.payload.length < usizeBound)
    (enough : alignUp cursor pending.alignmentLog2 - cursor + pending.payload.length ≤ spare) :
    SnapshotPlan.writeSection checksum index pending
        (front ++ (List.replicate (sectionEntrySize + slots) 0 ++
          (between ++ List.replicate spare 0)), cursor) =
      .ok ((front ++ asBytes (entryAt checksum (alignUp cursor pending.alignmentLog2) pending)) ++
        (List.replicate slots 0 ++
          ((between ++ (List.replicate (alignUp cursor pending.alignmentLog2 - cursor) 0 ++
            pending.payload)) ++ List.replicate (spare - (alignUp cursor pending.alignmentLog2 -
              cursor + pending.payload.length)) 0)),
        alignUp cursor pending.alignmentLog2 + pending.payload.length) := by
  obtain ⟨product, sum⟩ := tableEnd_lt few
  have up := le_alignUp cursor pending.alignmentLog2
  have rounded := alignUpChecked_eq_ok.mpr ⟨room, rfl⟩
  generalize alignUp cursor pending.alignmentLog2 = start at *
  have width : (asBytes (entryAt checksum start pending)).length = sectionEntrySize :=
    FixedLayout.length_asBytes _
  have wroteEntry : overwrite (front ++ (List.replicate (sectionEntrySize + slots) 0 ++
      (between ++ List.replicate spare 0))) (headerSize + index * sectionEntrySize)
        (asBytes (entryAt checksum start pending)) =
      front ++ (asBytes (entryAt checksum start pending) ++
        (List.replicate slots 0 ++ (between ++ List.replicate spare 0))) := by
    rw [← List.replicate_append_replicate, append_assoc]
    exact overwrite_middle slot (by rw [length_replicate, width])
  -- The spare room splits at the start and at the end of the payload.
  have space : List.replicate spare (0 : UInt8) = List.replicate (start - cursor) 0 ++
      (List.replicate pending.payload.length 0 ++
        List.replicate (spare - (start - cursor + pending.payload.length)) 0) := by
    rw [List.replicate_append_replicate, List.replicate_append_replicate]
    congr 1
    omega
  have beyond : (front ++ (asBytes (entryAt checksum start pending) ++ (List.replicate slots 0 ++
      (between ++ List.replicate (start - cursor) 0)))).length = start := by
    simp only [length_append, length_replicate, width]
    omega
  have wrotePayload : overwrite (front ++ (asBytes (entryAt checksum start pending) ++
      (List.replicate slots 0 ++ (between ++ List.replicate spare 0)))) start pending.payload =
      (front ++ asBytes (entryAt checksum start pending)) ++ (List.replicate slots 0 ++
        ((between ++ (List.replicate (start - cursor) 0 ++ pending.payload)) ++
          List.replicate (spare - (start - cursor + pending.payload.length)) 0)) := by
    have middle := @overwrite_middle _ (List.replicate pending.payload.length 0) pending.payload
      (List.replicate (spare - (start - cursor + pending.payload.length)) 0) _ beyond
      length_replicate
    rw [space]
    simp only [append_assoc] at middle ⊢
    exact middle
  unfold SnapshotPlan.writeSection
  simp only [rounded, addChecked_eq_ok.mpr ⟨placed, rfl⟩,
    u64Checked_eq_ok.mpr ⟨Nat.lt_of_le_of_lt (Nat.le_add_right _ _) placed, rfl⟩,
    u64Checked_eq_ok.mpr ⟨Nat.lt_of_le_of_lt (Nat.le_add_left _ _) placed, rfl⟩,
    mulChecked_eq_ok.mpr ⟨product, rfl⟩, addChecked_eq_ok.mpr ⟨sum, rfl⟩, bind, Except.bind, pure,
    Except.pure]
  change Except.ok (overwrite (overwrite _ _ (asBytes (entryAt checksum start pending))) _ _, _) = _
  rw [wroteEntry, wrotePayload]

/-- Writing sections into zeroed slots and space fills in their table and their payloads. -/
theorem writeSections_ok (sections : List PendingSection) {index : Nat}
    {front between : Bytes} {spare cursor : Nat} (slot : front.length = tableEnd index)
    (few : index + sections.length ≤ maxSectionCount)
    (place : cursor = front.length + sections.length * sectionEntrySize + between.length)
    (fits : Fits cursor sections) (enough : (layPayloads cursor sections).length ≤ spare) :
    ∃ stop, SnapshotPlan.writeSections checksum index sections
        (front ++ (List.replicate (sections.length * sectionEntrySize) 0 ++
          (between ++ List.replicate spare 0)), cursor) =
      .ok (front ++ (arrayBytes (layTable checksum cursor sections) ++
        (between ++ (layPayloads cursor sections ++
          List.replicate (spare - (layPayloads cursor sections).length) 0))), stop) := by
  induction sections generalizing index front between spare cursor with
  | nil => exact ⟨cursor, by simp [SnapshotPlan.writeSections, layTable, layPayloads]⟩
  | cons pending rest ih =>
    have slots : (pending :: rest).length * sectionEntrySize =
        sectionEntrySize + rest.length * sectionEntrySize := by
      rw [List.length_cons, Nat.add_mul, Nat.one_mul, Nat.add_comm]
    rw [List.length_cons] at few
    rw [slots] at place ⊢
    have up := le_alignUp cursor pending.alignmentLog2
    have length : (layPayloads cursor (pending :: rest)).length =
        alignUp cursor pending.alignmentLog2 - cursor + (pending.payload.length +
          (layPayloads (alignUp cursor pending.alignmentLog2 + pending.payload.length)
            rest).length) := by
      rw [layPayloads, length_append, length_append, length_replicate]
    rw [length] at enough ⊢
    have room : alignUp cursor pending.alignmentLog2 - cursor + pending.payload.length ≤ spare := by
      omega
    have step := writeSection_ok checksum pending slot (by omega) place fits.1 fits.2.lt room
    have width : (asBytes (entryAt checksum (alignUp cursor pending.alignmentLog2)
        pending)).length = sectionEntrySize := FixedLayout.length_asBytes _
    -- The entry joins the front and the payload what is between: the invariant of the induction.
    obtain ⟨stop, written⟩ := @ih (index + 1)
      (front ++ asBytes (entryAt checksum (alignUp cursor pending.alignmentLog2) pending))
      (between ++ (List.replicate (alignUp cursor pending.alignmentLog2 - cursor) 0 ++
        pending.payload))
      (spare - (alignUp cursor pending.alignmentLog2 - cursor + pending.payload.length))
      (alignUp cursor pending.alignmentLog2 + pending.payload.length)
      (by
        rw [length_append, width, slot, tableEnd, tableEnd, Nat.add_mul, Nat.one_mul,
          Nat.add_assoc])
      (by omega)
      (by
        simp only [length_append, length_replicate, width]
        omega)
      fits.2 (by omega)
    refine ⟨stop, ?_⟩
    rw [SnapshotPlan.writeSections, step]
    simp only [bind, Except.bind]
    rw [written, layTable, arrayBytes_cons, layPayloads]
    have left : spare - (alignUp cursor pending.alignmentLog2 - cursor + pending.payload.length) -
        (layPayloads (alignUp cursor pending.alignmentLog2 + pending.payload.length)
          rest).length =
        spare - (alignUp cursor pending.alignmentLog2 - cursor + (pending.payload.length +
          (layPayloads (alignUp cursor pending.alignmentLog2 + pending.payload.length)
            rest).length)) := by omega
    simp only [append_assoc, left]

/-- An encoded snapshot ends where its layout does. -/
theorem length_encoded (sections : List PendingSection) :
    (encoded checksum sections).length = tableEnd sections.length +
      (layPayloads (tableEnd sections.length) sections).length := by
  have width (header : RawHeader) : (asBytes header).length = headerSize :=
    FixedLayout.length_asBytes header
  unfold encoded
  simp only [length_append, width, length_layTable_bytes]
  rw [tableEnd]
  omega

/-- Writing a plan that fits fills a buffer with exactly the encoded snapshot. -/
theorem writeInto_ok {plan : SnapshotPlan} {out : Bytes}
    (few : plan.sections.length ≤ maxSectionCount)
    (fits : Fits (tableEnd plan.sections.length) plan.sections)
    (room : (encoded checksum plan.sections).length ≤ out.length) :
    plan.writeInto out checksum =
      .ok ((encoded checksum plan.sections).length, encoded checksum plan.sections ++
        out.drop (encoded checksum plan.sections).length) := by
  obtain ⟨product, sum⟩ := tableEnd_lt few
  have width (header : RawHeader) : (asBytes header).length = headerSize :=
    FixedLayout.length_asBytes header
  have size := length_encoded checksum plan.sections
  have needed := (encodedLen_eq_ok few).mpr ⟨fits, size⟩
  have most : maxSectionCount < u32Bound := by decide
  have few32 : ¬ plan.sections.length ≥ u32Bound := by omega
  obtain ⟨stop, written⟩ := @writeSections_ok checksum plan.sections 0
    (List.replicate headerSize 0) []
    (layPayloads (tableEnd plan.sections.length) plan.sections).length
    (tableEnd plan.sections.length) (by simp [tableEnd]) (by omega)
    (by simp [tableEnd]) fits (Nat.le_refl _)
  have zeroed : List.replicate (encoded checksum plan.sections).length (0 : UInt8) =
      List.replicate headerSize 0 ++
        (List.replicate (plan.sections.length * sectionEntrySize) 0 ++
          ([] ++ List.replicate
            (layPayloads (tableEnd plan.sections.length) plan.sections).length 0)) := by
    rw [List.nil_append, List.replicate_append_replicate, List.replicate_append_replicate, size,
      tableEnd, Nat.add_assoc]
  have payloadStart : headerSize + plan.sections.length * sectionEntrySize =
      tableEnd plan.sections.length := rfl
  unfold SnapshotPlan.writeInto
  simp only [needed, bind, Except.bind, pure, Except.pure]
  rw [if_neg (by omega), if_neg few32, mulChecked_eq_ok.mpr ⟨product, rfl⟩]
  simp only [addChecked_eq_ok.mpr ⟨sum, rfl⟩, payloadStart, zeroed, written]
  rw [Nat.sub_self, List.replicate_zero, List.append_nil, List.nil_append]
  -- The table is read back from between the header region and the payloads.
  have table : ((List.replicate headerSize (0 : UInt8) ++
      (arrayBytes (layTable checksum (tableEnd plan.sections.length) plan.sections) ++
        layPayloads (tableEnd plan.sections.length) plan.sections)).take
          (tableEnd plan.sections.length)).drop headerSize =
      arrayBytes (layTable checksum (tableEnd plan.sections.length) plan.sections) := by
    rw [← append_assoc, List.take_left', List.drop_left' length_replicate]
    rw [length_append, length_replicate, length_layTable_bytes, tableEnd]
  have header (record : RawHeader) := @overwrite_middle [] (List.replicate headerSize 0)
    (asBytes record) (arrayBytes (layTable checksum (tableEnd plan.sections.length) plan.sections) ++
      layPayloads (tableEnd plan.sections.length) plan.sections) 0 rfl
    (by rw [length_replicate, width])
  simp only [List.nil_append] at header
  rw [table, header]
  simp only [encoded, headerOf, length_layTable, headerSize, formatMajor, formatMinor]

end Oxgraph.Container
