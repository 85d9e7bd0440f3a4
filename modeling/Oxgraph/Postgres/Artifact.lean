import Oxgraph.Lib.TreeMap
import Oxgraph.Postgres.Error

/-! The Postgres artifact: its metadata, its inbound index, and its build from edge rows. -/

namespace Oxgraph.Postgres

open Layout Container Csr

-- Metadata.

/-- Kind of the inbound offsets section. -/
def inboundOffsetsKind : UInt32 := 0x0204 ||| SnapshotWidth.widthCode UInt32

/-- Kind of the inbound targets section. -/
def inboundTargetsKind : UInt32 := 0x0208 ||| SnapshotWidth.widthCode UInt32

/-- Kind of the metadata section. -/
def metadataKind : UInt32 := 0x020C

/-- Metadata of an artifact. -/
structure PostgresMetadata where
  version : UInt32
  flags : UInt32
  -- Seconds since the epoch when the artifact was built.
  builtAtUnix : UInt64
  nodeCount : UInt32
  edgeCount : UInt32
  deriving DecidableEq, Repr

instance : FixedLayout PostgresMetadata :=
  FixedLayout.ofFields
    (fun metadata => (metadata.version, metadata.flags, metadata.builtAtUnix, metadata.nodeCount,
      metadata.edgeCount))
    (fun (version, flags, builtAtUnix, nodeCount, edgeCount) =>
      ⟨version, flags, builtAtUnix, nodeCount, edgeCount⟩)
    (fun _ => rfl) (fun _ => rfl)

namespace PostgresMetadata

/-- Metadata format version. -/
def formatVersion : UInt32 := 1

/-- The artifact is read-only. -/
def flagReadOnly : UInt32 := 1

/-- The artifact has inbound index sections. -/
def flagHasReverseIndex : UInt32 := 2

/-- Metadata of a topology. -/
def new (nodeCount edgeCount : UInt32) (builtAtUnix : UInt64) (readOnly : Bool) :
    PostgresMetadata :=
  { version := formatVersion, flags := if readOnly then flagReadOnly else 0
    builtAtUnix, nodeCount, edgeCount }

/-- Metadata that says inbound index sections are present. -/
def withReverseIndex (metadata : PostgresMetadata) : PostgresMetadata :=
  { metadata with flags := metadata.flags ||| flagHasReverseIndex }

/-- Whether inbound index sections are present. -/
def hasReverseIndex (metadata : PostgresMetadata) : Bool :=
  metadata.flags &&& flagHasReverseIndex ≠ 0

end PostgresMetadata

/-- Reads the metadata of a snapshot. -/
def readMetadata (snapshot : Container.Snapshot) : Except PostgresGraphError PostgresMetadata :=
  match snapshot.sectionOf metadataKind with
  | none => .error (.build .missingMetadataSection)
  | some found =>
    if found.payload.length = FixedLayout.size PostgresMetadata then
      .ok (readFromPrefix found.payload)
    else .error (.build .malformedMetadata)

-- Section assembly.

/-- Whether a kind is one of the engine's own. -/
def isPostgresOwnedKind (kind : UInt32) : Bool := 0x0200 ≤ kind ∧ kind < 0x0300

/-- Copies one section of a forward topology. -/
def copySection (checksum : Checksum32) (writer : SnapshotWriter) (found : Section) :
    Except PlanError SnapshotWriter :=
  sectionBytes checksum writer found.kind found.version found.alignmentLog2 found.payload

/-- Copies a section of an inbound topology under another kind. -/
def copyCsrSection (checksum : Checksum32) (snapshot : Container.Snapshot)
    (sourceKind destKind : UInt32) (writer : SnapshotWriter) :
    Except PostgresGraphError SnapshotWriter :=
  match snapshot.sectionOf sourceKind with
  | none => .error (.build (.missingCsrSection sourceKind))
  | some found =>
    (sectionBytes checksum writer destKind found.version found.alignmentLog2
      found.payload).mapError fun error => .build (.plan error)

/-- Assembles the forward sections, the inbound sections when given, and the metadata. -/
def attachPostgresSections (checksum : Checksum32) (forwardTopologyBytes : Bytes)
    (inboundTopologyBytes : Option Bytes) (metadata : PostgresMetadata) :
    Except PostgresGraphError Bytes := do
  let forward ← (Snapshot.openBytes forwardTopologyBytes).mapError .snapshot
  let inbound ← (inboundTopologyBytes.mapM Snapshot.openBytes).mapError .snapshot
  let copied := forward.sections.filter fun found => ¬ isPostgresOwnedKind found.kind
  let inboundCount := if inbound.isSome then 2 else 0
  let planned (result : Except PlanError SnapshotWriter) :
      Except PostgresGraphError SnapshotWriter :=
    result.mapError fun error => .build (.plan error)
  let writer ← planned (SnapshotWriter.new (copied.length + inboundCount + 1))
  let writer ← planned (copied.foldlM (copySection checksum) writer)
  let writer ← match inbound with
    | none => pure writer
    | some inbound => do
      let writer ← copyCsrSection checksum inbound (offsetsKind UInt32) inboundOffsetsKind writer
      copyCsrSection checksum inbound (targetsKind UInt32) inboundTargetsKind writer
  let writer ← planned
    (sectionBytes checksum writer metadataKind PostgresMetadata.formatVersion 0 (asBytes metadata))
  (writer.finish checksum).mapError fun error => .build (.plan error)

/-- Assembles the forward sections and the metadata, without inbound sections. -/
def attachMetadata (checksum : Checksum32) (baseBytes : Bytes) (metadata : PostgresMetadata) :
    Except PostgresGraphError Bytes :=
  attachPostgresSections checksum baseBytes none metadata

-- Builds.

/-- One edge row by its endpoints' keys. -/
structure EdgeRow where
  source : NodeKey
  target : NodeKey
  deriving DecidableEq, Repr

/-- The endpoint keys of edge rows. -/
def distinctNodeKeys (edges : List EdgeRow) : BTreeSet NodeKey :=
  edges.foldl (fun keys edge => (keys.insert edge.source).insert edge.target) ∅

/-- Assigns dense ids from a first one to keys in ascending order. -/
def denseNodeMapFrom : Nat → List NodeKey → BTreeMap NodeKey UInt32 →
    Except BuildError (BTreeMap NodeKey UInt32)
  | _, [], map => .ok map
  | index, key :: rest, map =>
    if index < u32Bound then denseNodeMapFrom (index + 1) rest (map.insert key (.ofNat index))
    else .error .nodeCountOverflow

/-- The ascending dense id of each key. -/
def denseNodeMapFromKeys (keys : BTreeSet NodeKey) :
    Except BuildError (BTreeMap NodeKey UInt32) :=
  denseNodeMapFrom 0 keys.toList ∅

namespace DualTopologySnapshot

/-- Adds so many nodes to a builder. -/
def addNodes : Nat → GraphBuilder UInt32 UInt32 →
    Fallible PostgresGraphError (GraphBuilder UInt32 UInt32)
  | 0, builder => return builder
  | count + 1, builder => do
    let (_, builder) ← builder.addNode.adapt fun error => .build (.graph error)
    addNodes count builder

/-- Adds edges between dense ids to a builder. -/
def addEdges (builder : GraphBuilder UInt32 UInt32) (edges : List (UInt32 × UInt32)) :
    Fallible PostgresGraphError (GraphBuilder UInt32 UInt32) :=
  edges.foldlM (fun builder edge => do
    let (_, builder) ← (builder.addEdge edge.1 edge.2).adapt fun error => .build (.graph error)
    return builder) builder

/-- The dense id of a key. -/
def denseId (map : BTreeMap NodeKey UInt32) (key : NodeKey) : Except PostgresGraphError UInt32 :=
  match map.get? key with
  | some id => .ok id
  | none => .error (.build .missingNodeKey)

/-- Freezes a builder and its transpose, and assembles both into an artifact. -/
def assemble (checksum : Checksum32) (builder : GraphBuilder UInt32 UInt32) (nodeCount : Nat)
    (builtAtUnix : UInt64) : Fallible PostgresGraphError Bytes := do
  let frozen ← builder.freeze.adapt fun error => .build (.graph error)
  if u32Bound ≤ nodeCount then throw (.build .nodeCountOverflow)
  else if u32Bound ≤ frozen.topology.edgeIds.length then throw (.build .edgeCountOverflow)
  else
    let inboundFrozen ← frozen.transpose.adapt fun error => .build (.graph error)
    let forwardBytes ← .ofResult
      ((exportCsrSnapshot checksum frozen).mapError fun error => .build (.graph error))
    let inboundBytes ← .ofResult
      ((exportCsrSnapshot checksum inboundFrozen).mapError fun error => .build (.graph error))
    let metadata := (PostgresMetadata.new (.ofNat nodeCount)
      (.ofNat frozen.topology.edgeIds.length) builtAtUnix true).withReverseIndex
    .ofResult (attachPostgresSections checksum forwardBytes (some inboundBytes) metadata)

/-- Builds an artifact from edge rows. -/
def fromEdgeRows (checksum : Checksum32) (edges : List EdgeRow) (builtAtUnix : UInt64) :
    Fallible PostgresGraphError Bytes := do
  if edges.isEmpty then throw (.build .emptyEdges)
  else
    let keyToDense ← .ofResult
      ((denseNodeMapFromKeys (distinctNodeKeys edges)).mapError .build)
    let keyCount := keyToDense.size
    let builder ← addNodes keyCount .new
    let builder ← edges.foldlM (fun builder edge => do
      let source ← .ofResult (denseId keyToDense edge.source)
      let target ← .ofResult (denseId keyToDense edge.target)
      addEdges builder [(source, target)]) builder
    assemble checksum builder keyCount builtAtUnix

/-- Builds an artifact from dense edges over so many nodes. -/
def fromDenseU32EdgesWithNodeCount (checksum : Checksum32) (nodeCount : UInt32)
    (edges : List (UInt32 × UInt32)) (builtAtUnix : UInt64) :
    Fallible PostgresGraphError Bytes :=
  if nodeCount = 0 then throw (.build .emptyEdges)
  else if edges.any fun edge => edge.1 ≥ nodeCount ∨ edge.2 ≥ nodeCount then
    throw (.build .missingNodeKey)
  else do
    let builder ← addNodes nodeCount.toNat .new
    let builder ← addEdges builder edges
    assemble checksum builder nodeCount.toNat builtAtUnix

end DualTopologySnapshot

-- Rebuilds.

/-- Registered schema surface, of which a rebuild asks whether any table is registered. -/
structure Catalog where
  tables : List UInt32

/-- Validates that at least one table is registered. -/
def Catalog.validateForBuild (catalog : Catalog) : Except CatalogError Unit :=
  if catalog.tables.isEmpty then .error .emptyCatalog else .ok ()

/-- Builds an artifact from a validated catalog and edge rows. -/
def SnapshotRebuild.fromCatalogAndEdges (checksum : Checksum32) (catalog : Catalog)
    (edges : List EdgeRow) (builtAtUnix : UInt64) : Fallible PostgresGraphError Bytes := do
  .ofResult (catalog.validateForBuild.mapError .catalog)
  DualTopologySnapshot.fromEdgeRows checksum edges builtAtUnix

end Oxgraph.Postgres
