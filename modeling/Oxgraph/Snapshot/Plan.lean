import Oxgraph.Snapshot.Container

/-! The encoder that plans every section up front and writes into a caller's buffer. -/

namespace Oxgraph.Container

/-- Description of one section to include in a snapshot. -/
structure PendingSection where
  kind : UInt32
  version : UInt32
  -- Requested payload alignment, as a power of two.
  alignmentLog2 : UInt8
  payload : Bytes
  deriving DecidableEq

/-- Validated plan of the sections, in declaration order. -/
structure SnapshotPlan where
  sections : List PendingSection

/-- Checks the alignment of each section and the ascending order of kinds. -/
def checkPending : Option UInt32 → List PendingSection → Except PlanError Unit
  | _, [] => .ok ()
  | prevKind, pending :: rest =>
    if pending.alignmentLog2 > maxAlignmentLog2 then
      .error (.alignmentTooLarge pending.alignmentLog2)
    else
      match prevKind.filter fun prev => pending.kind ≤ prev with
      | some prev => .error (.nonAscendingKind pending.kind prev)
      | none => checkPending (some pending.kind) rest

/-- Adds, failing when the sum overflows `usize`. -/
def addChecked (left right : Nat) : Except PlanError Nat :=
  match checkedAdd left right with
  | none => .error .payloadOverflow
  | some sum => .ok sum

/-- Multiplies, failing when the product overflows `usize`. -/
def mulChecked (left right : Nat) : Except PlanError Nat :=
  match checkedMul left right with
  | none => .error .payloadOverflow
  | some product => .ok product

/-- Converts to `u64`, failing when the value does not fit. -/
def u64Checked (value : Nat) : Except PlanError UInt64 :=
  if value < UInt64.size then .ok (.ofNat value) else .error .payloadOverflow

namespace SnapshotPlan

/-- Validates pending sections and constructs a plan. -/
def new (sections : List PendingSection) : Except PlanError SnapshotPlan :=
  if sections.length > maxSectionCount then .error (.tooManySections sections.length)
  else do
    checkPending none sections
    return { sections }

/-- The end of the payloads when each is laid out, aligned, after a cursor. -/
def payloadEnd (cursor : Nat) (sections : List PendingSection) : Except PlanError Nat :=
  sections.foldlM (fun total pending => do
    let aligned ← alignUpChecked total pending.alignmentLog2
    addChecked aligned pending.payload.length) cursor

/-- Computes the total bytes the encoded snapshot will occupy. -/
def encodedLen (plan : SnapshotPlan) : Except PlanError Nat := do
  let tableLen ← mulChecked plan.sections.length sectionEntrySize
  let start ← addChecked headerSize tableLen
  let total ← payloadEnd start plan.sections
  let _ ← u64Checked total
  return total

/-- Writes one section's table entry and its payload, returning the cursor past the payload. -/
def writeSection (checksum : Checksum32) (index : Nat) (pending : PendingSection)
    (state : Bytes × Nat) : Except PlanError (Bytes × Nat) := do
  let (buf, cursor) := state
  let cursor ← alignUpChecked cursor pending.alignmentLog2
  let payloadEnd ← addChecked cursor pending.payload.length
  let entry : RawSectionEntry :=
    { offset := ← u64Checked cursor
      length := ← u64Checked pending.payload.length
      kind := pending.kind
      version := pending.version
      crc32c := checksum 0 pending.payload
      alignmentLog2 := pending.alignmentLog2
      flags := 0
      reserved := .replicate 2 0 }
  let entryOffset ← addChecked headerSize (← mulChecked index sectionEntrySize)
  return (overwrite (overwrite buf entryOffset (asBytes entry)) cursor pending.payload, payloadEnd)

/-- Writes the listed sections, the first of them at a table index. -/
def writeSections (checksum : Checksum32) :
    Nat → List PendingSection → Bytes × Nat → Except PlanError (Bytes × Nat)
  | _, [], state => .ok state
  | index, pending :: rest, state => do
    let state ← writeSection checksum index pending state
    writeSections checksum (index + 1) rest state

/-- Writes the encoded snapshot into a buffer, returning the bytes written and the buffer. -/
def writeInto (plan : SnapshotPlan) (out : Bytes) (checksum : Checksum32) :
    Except PlanError (Nat × Bytes) := do
  let needed ← plan.encodedLen
  if out.length < needed then .error (.bufferTooSmall needed out.length)
  else
    let zeroed := List.replicate needed (0 : UInt8)
    if plan.sections.length ≥ u32Bound then .error (.tooManySections plan.sections.length)
    else do
      let tableLen ← mulChecked plan.sections.length sectionEntrySize
      let payloadStart ← addChecked headerSize tableLen
      let (written, _) ← writeSections checksum 0 plan.sections (zeroed, payloadStart)
      -- The header is written last, so its checksum covers the final table.
      let header : RawHeader :=
        { magic := formatMagic
          formatMajor
          formatMinor
          headerSize := .ofNat headerSize
          sectionCount := .ofNat plan.sections.length
          tableCrc32c := checksum 0 ((written.take payloadStart).drop headerSize)
          reserved := .replicate 4 0 }
      return (needed, overwrite written 0 (asBytes header) ++ out.drop needed)

end SnapshotPlan

end Oxgraph.Container
