import Oxgraph.Layout.Arrays
import Oxgraph.Property.Rekey
import Oxgraph.Property.Snapshot

/-! The identity and property sections of a snapshot: their kinds, readers, and export. -/

namespace Oxgraph.Property

open Layout Container

-- Section kinds.

section

variable (W : Type) [SnapshotWidth W]

/-- Kind of the descriptor section at a metadata width. -/
def propertyDescriptorsKind : UInt32 := 0x0100 ||| SnapshotWidth.widthCode W

/-- Kind of the data section at a metadata width. -/
def propertyDataKind : UInt32 := 0x0104 ||| SnapshotWidth.widthCode W

/-- Kind of the section of identity modes at a metadata width. -/
def identityModesKind : UInt32 := 0x0110 ||| SnapshotWidth.widthCode W

/-- Kind of the explicit identity map of a family at a metadata width. -/
def identityMapKind : IdFamily → UInt32
  | .element => 0x0114 ||| SnapshotWidth.widthCode W
  | .relation => 0x0118 ||| SnapshotWidth.widthCode W
  | .incidence => 0x011C ||| SnapshotWidth.widthCode W

end

/-- The version of every property and identity section. -/
def snapshotPropertyVersion : UInt32 := 1

-- Identity modes.

/-- How the local IDs of a family map to canonical ones. -/
inductive IdentityMapMode where
  -- They are the same.
  | localEqualsCanonical
  -- The snapshot stores the map.
  | explicitMap
  deriving DecidableEq, Repr

namespace IdentityMapMode

/-- The snapshot tag of a mode. -/
def tag : IdentityMapMode → UInt32
  | localEqualsCanonical => 0
  | explicitMap => 1

/-- Reads a mode tag. -/
def fromTag (tag : UInt32) : Option IdentityMapMode :=
  if tag = 0 then some localEqualsCanonical else if tag = 1 then some explicitMap else none

end IdentityMapMode

/-- The mode of one family as it is stored. -/
structure IdentityModeRecord (W : Type) where
  idFamily : W
  mode : W
  -- The number of local IDs.
  localLen : W
  deriving DecidableEq, Repr

instance {W : Type} [FixedLayout W] : FixedLayout (IdentityModeRecord W) :=
  FixedLayout.ofFields (fun record => (record.idFamily, record.mode, record.localLen))
    (fun (idFamily, mode, localLen) => ⟨idFamily, mode, localLen⟩) (fun _ => rfl) (fun _ => rfl)

/-- A family's mode as it is decoded. -/
structure IdentityModeSummary where
  idFamily : IdFamily
  mode : IdentityMapMode
  localLen : Nat
  deriving DecidableEq, Repr

/-- What validated identity sections hold. -/
structure IdentitySnapshotSummary where
  records : List IdentityModeSummary
  deriving DecidableEq, Repr

namespace IdentityModeRecord

variable {W : Type} [PropertyIndex W]

/-- Builds the record of a mode. -/
def new (idFamily : IdFamily) (mode : IdentityMapMode) (localLen : Nat) :
    Except PropertyError (IdentityModeRecord W) := do
  return {
    idFamily := ← leWord (idFamilyTag idFamily).toNat
    mode := ← leWord mode.tag.toNat
    localLen := ← leWord localLen }

/-- Builds the record of a family whose local IDs are the canonical ones. -/
def localEqualsCanonical (idFamily : IdFamily) (localLen : Nat) :
    Except PropertyError (IdentityModeRecord W) :=
  new idFamily .localEqualsCanonical localLen

/-- Builds the record of a family whose map the snapshot stores. -/
def explicitMap (idFamily : IdFamily) (localLen : Nat) :
    Except PropertyError (IdentityModeRecord W) :=
  new idFamily .explicitMap localLen

variable (record : IdentityModeRecord W)

/-- The family of a record. -/
def readIdFamily : Except PropertyError IdFamily :=
  leWordToU32 record.idFamily >>= idFamilyFromTag

/-- The mode of a record. -/
def readMode : Except PropertyError IdentityMapMode := do
  let tag ← leWordToU32 record.mode
  match IdentityMapMode.fromTag tag with
  | none => .error (.unknownIdentityModeTag tag)
  | some mode => .ok mode

/-- The number of local IDs of a record; one past what `usize` holds saturates. -/
def readLocalLen : Nat :=
  match leWordToUsize record.localLen with
  | .error _ => usizeBound - 1
  | .ok localLen => localLen

end IdentityModeRecord

-- Reading.

/-- Finds a section that has to be there. -/
def findSection (snapshot : Container.Snapshot) (kind : UInt32) : Except PropertyError Section :=
  match snapshot.sectionOf kind with
  | none => .error (.missingSnapshotSection kind)
  | some found => .ok found

/-- Checks the version of a section. -/
def checkVersion (kind : UInt32) (found : Section) : Except PropertyError Unit :=
  if found.version ≠ snapshotPropertyVersion then
    .error (.snapshotSectionVersion kind found.version)
  else .ok ()

/-- Borrows a section as records. -/
def borrowRecords (R : Type) [FixedLayout R] (kind : UInt32) (found : Section) :
    Except PropertyError (List R) :=
  (found.tryAsSlice R).mapError (.snapshotSectionView kind)

section

variable (W : Type) [PropertyIndex W] (snapshot : Container.Snapshot)

/-- Checks that the explicit map of a family is there, with an entry for each local ID. -/
def validateIdentityMapSection (idFamily : IdFamily) (required : Nat) :
    Except PropertyError Unit :=
  match snapshot.sectionOf (identityMapKind W idFamily) with
  | none => .error (.missingIdentityMap idFamily)
  | some found => do
    checkVersion (identityMapKind W idFamily) found
    let map ← borrowRecords W (identityMapKind W idFamily) found
    if map.length ≠ required then .error (.identityMapLength idFamily required map.length)
    else .ok ()

/-- Validates the mode of one family, after the families that were seen. -/
def validateIdentityRecord (seen : BTreeSet IdFamily × List IdentityModeSummary)
    (record : IdentityModeRecord W) :
    Except PropertyError (BTreeSet IdFamily × List IdentityModeSummary) := do
  let idFamily ← record.readIdFamily
  if seen.1.contains idFamily then
    .error (.snapshotDescriptorMismatch "duplicate identity family mode record")
  else do
    let mode ← record.readMode
    let localLen := record.readLocalLen
    match mode with
    | .localEqualsCanonical => pure ()
    | .explicitMap => validateIdentityMapSection W snapshot idFamily localLen
    return (seen.1.insert idFamily, seen.2 ++ [⟨idFamily, mode, localLen⟩])

/-- Validates the modes of all families. -/
def validateIdentityRecords (records : List (IdentityModeRecord W)) :
    Except PropertyError (List IdentityModeSummary) := do
  let (_, summaries) ← records.foldlM (validateIdentityRecord W snapshot) (∅, [])
  return summaries

/-- Validates the identity modes of a snapshot, and the explicit maps they ask for. -/
def validateIdentitySnapshot : Except PropertyError IdentitySnapshotSummary := do
  let found ← findSection snapshot (identityModesKind W)
  checkVersion (identityModesKind W) found
  let records ← borrowRecords (IdentityModeRecord W) (identityModesKind W) found
  let records ← validateIdentityRecords W snapshot records
  return { records }

/-- The payloads of the descriptor section and of the data section. -/
def propertyPayloads : Except PropertyError (Bytes × Bytes) := do
  let descriptors ← findSection snapshot (propertyDescriptorsKind W)
  let data ← findSection snapshot (propertyDataKind W)
  checkVersion (propertyDescriptorsKind W) descriptors
  checkVersion (propertyDataKind W) data
  return (descriptors.payload, data.payload)

variable {T V : Type} [DecidableEq T] (ipc : ArrowIpc T V)

/-- Validates the property sections of a snapshot. -/
def validatePropertySnapshot : Fallible PropertyError PropertySnapshotSummary := do
  let (descriptors, data) ← .ofResult (propertyPayloads W snapshot)
  validatePropertySections W ipc descriptors data

/-- Decodes every layer of a snapshot. -/
def DecodedPropertyLayer.decodeAll : Fallible PropertyError (List (DecodedPropertyLayer T V)) := do
  let (descriptors, data) ← .ofResult (propertyPayloads W snapshot)
  DecodedPropertyLayer.decodeSections W ipc descriptors data

end

-- Exporting.

/-- Property layers of a graph, keyed by canonical nodes and by canonical edges. -/
structure GraphPropertyLayers (Id N E T V : Type) [PropertyIndex N] [PropertyIndex E]
    [DecidableEq T] where
  element : List (PropertyLayer Id N T V)
  relation : List (PropertyLayer Id E T V)

/-- Property layers of a hypergraph, keyed by canonical vertices, hyperedges, and incidences. -/
structure HyperPropertyLayers (Id V R O T U : Type) [PropertyIndex V] [PropertyIndex R]
    [PropertyIndex O] [DecidableEq T] where
  element : List (PropertyLayer Id V T U)
  relation : List (PropertyLayer Id R T U)
  incidence : List (PropertyLayer Id O T U)

/-- A property layer is shorter than its topology requires. -/
structure LayerLengthError where
  idFamily : IdFamily
  required : Nat
  actual : Nat
  deriving DecidableEq, Repr

section

variable {Id I T V : Type} [DecidableEq T] [PropertyIndex I]

/-- Checks that every layer has a row for each ID of its family. -/
def validateLayerLengths (layers : List (PropertyLayer Id I T V)) (idFamily : IdFamily)
    (required : Nat) : Except LayerLengthError Unit :=
  layers.forM fun layer =>
    if layer.len < required then .error { idFamily, required, actual := layer.len } else .ok ()

end

/-- Appends the descriptors, the data, the identity modes, and one explicit identity map. -/
def appendIdentityAndPropertySections {W M : Type} [PropertyIndex W] [SnapshotWidth M]
    (checksum : Checksum32) (writer : SnapshotWriter) (identityModes : List (IdentityModeRecord W))
    (identityMapKind : UInt32) (identityMap : List M) (encoded : EncodedPropertySnapshot) :
    Except PlanError SnapshotWriter := do
  let writer ← sectionBytes checksum writer (propertyDescriptorsKind W) snapshotPropertyVersion 0
    encoded.descriptors
  let writer ← sectionBytes checksum writer (propertyDataKind W) snapshotPropertyVersion 0
    encoded.data
  let writer ← sectionWidths writer checksum (identityModesKind W) snapshotPropertyVersion
    identityModes
  sectionWidths writer checksum identityMapKind snapshotPropertyVersion identityMap

end Oxgraph.Property
