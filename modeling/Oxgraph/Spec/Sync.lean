import Mathlib.Data.List.DropRight
import Oxgraph.Postgres.Sync
import Oxgraph.Postgres.Topology
import Oxgraph.Proofs.Layout.Sections
import Oxgraph.Spec.Traversal

/-! What an artifact holds of its rows, when sync keys resolve, and what the log does to an overlay. -/

namespace Oxgraph.Postgres

open Layout Container Csr

-- Rows.

/-- The keys that edge rows name, each once and ascending. -/
structure KeysOf (edges : List EdgeRow) (keys : List NodeKey) : Prop where
  ascending : keys.Pairwise (· < ·)
  named : ∀ key, key ∈ keys ↔ ∃ edge ∈ edges, edge.source = key ∨ edge.target = key

/--
A topology numbers the keys of rows by their ranks, and lists the rows in input order.

A list of keys stands for the dense ids at which its keys are.
-/
structure GraphTopology.HoldsRows (topology : GraphTopology) (metadata : PostgresMetadata)
    (edges : List EdgeRow) (keys : List NodeKey) : Prop where
  nodeBound : topology.forward.nodeBound = keys.length ∧ topology.inbound.nodeBound = keys.length
  nodeCount : metadata.nodeCount.toNat = keys.length
  edgeCount : metadata.edgeCount.toNat = edges.length
  successors : ∀ (id : UInt32) (key : NodeKey), keys[id.toNat]? = some key →
    (topology.forward.elementSuccessors id).map (·.map fun next => keys[next.toNat]?) =
      some ((edges.filter fun edge => edge.source = key).map fun edge => some edge.target)
  predecessors : ∀ (id : UInt32) (key : NodeKey), keys[id.toNat]? = some key →
    (topology.inbound.elementSuccessors id).map (·.map fun prior => keys[prior.toNat]?) =
      some ((edges.filter fun edge => edge.target = key).map fun edge => some edge.source)

-- Sections.

/-- The sections of a snapshot that are not the engine's own. -/
def foreignSections (snapshot : Container.Snapshot) : List Section :=
  snapshot.sections.filter fun found => ¬ isPostgresOwnedKind found.kind

/-- The sections of a snapshot other than the metadata. -/
def besidesMetadata (snapshot : Container.Snapshot) : List Section :=
  snapshot.sections.filter fun found => found.kind ≠ metadataKind

/--
Attaching metadata to an artifact returns one with the same other sections.

Metadata of the same counts and flags leaves the rows of both directions as they were.
-/
def ReplacesMetadata (checksum : Checksum32) (bytes : Bytes) (snapshot : Container.Snapshot)
    (topology : GraphTopology) (metadata : PostgresMetadata) : Prop :=
  ∃ out after, attachMetadata checksum bytes metadata = .ok out ∧
    Snapshot.openBytes out = .ok after ∧
    (besidesMetadata after).map Section.planned = (besidesMetadata snapshot).map Section.planned ∧
    ∀ before, readMetadata snapshot = .ok before → metadata.flags = before.flags →
      metadata.nodeCount = before.nodeCount → metadata.edgeCount = before.edgeCount →
        GraphTopology.ofSnapshot after = pure topology

end Oxgraph.Postgres

-- When the keys of a sync log resolve.

namespace Oxgraph.Postgres

/-- Edge rows after insertions and deletions, with the rows that were inserted or deleted. -/
inductive Edited (edges : List EdgeRow) : List EdgeRow → List EdgeRow → Prop
  | start : Edited edges edges []
  | inserted {before after touched : List EdgeRow} (edge : EdgeRow)
    (edited : Edited edges (before ++ after) touched) :
    Edited edges (before ++ edge :: after) (edge :: touched)
  | deleted {before after touched : List EdgeRow} (edge : EdgeRow)
    (edited : Edited edges (before ++ edge :: after) touched) :
    Edited edges (before ++ after) (edge :: touched)

/-- A keyed row of a log has a key among its arguments. -/
def Names (rawRows : List RawSyncRow) (key : NodeKey) : Prop :=
  ∃ row ∈ rawRows, row.isKeyed ∧
    (nodeKeyFromI64 row.arg0 = some key ∨ nodeKeyFromI64 row.arg1 = some key)

/-- A key of an action, and the dense id that it was resolved to. -/
inductive ResolvesKey : SyncActionWire → SyncAction → NodeKey → UInt32 → Prop
  | insertSource {source target : NodeKey} {sourceId targetId : UInt32} :
    ResolvesKey (.insertEdge source target) (.insertEdge sourceId targetId) source sourceId
  | insertTarget {source target : NodeKey} {sourceId targetId : UInt32} :
    ResolvesKey (.insertEdge source target) (.insertEdge sourceId targetId) target targetId
  | removeSource {source target : NodeKey} {sourceId targetId : UInt32} :
    ResolvesKey (.removeOverlayEdge source target) (.removeOverlayEdge sourceId targetId) source
      sourceId
  | removeTarget {source target : NodeKey} {sourceId targetId : UInt32} :
    ResolvesKey (.removeOverlayEdge source target) (.removeOverlayEdge sourceId targetId) target
      targetId

/-- An id is the one that the artifact over keys gave a key, or one that it gave none. -/
def AgreesOn (keys : List NodeKey) (key : NodeKey) (id : UInt32) : Prop :=
  (∀ position, keys[position]? = some key → id.toNat = position) ∧
    (key ∉ keys → keys.length ≤ id.toNat)

/-- Every key of every row of a log is resolved to an id that agrees with the artifact. -/
def AgreesWithArtifact (keys : List NodeKey) (rawRows : List RawSyncRow) (rows : List SyncRow) :
    Prop :=
  ∀ (index : Nat) (raw : RawSyncRow) (row : SyncRow) (wire : SyncActionWire) (key : NodeKey)
    (id : UInt32), rawRows[index]? = some raw → rows[index]? = some row →
    SyncActionCodec.decodeWire raw.actionType raw.arg0 raw.arg1 = .ok wire →
      ResolvesKey wire row.action key id → AgreesOn keys key id

/-- A log names no key that the artifact has not and that sorts before one of its keys. -/
def NamesOnlyLater (keys : List NodeKey) (rawRows : List RawSyncRow) : Prop :=
  ∀ extra, Names rawRows extra → extra ∉ keys → ∀ key ∈ keys, key < extra

end Oxgraph.Postgres

-- What a sync log does to an overlay.

namespace Oxgraph.Postgres

namespace SyncLog

/-- The rows before the first one whose sequence does not exceed the one before it. -/
def inSequence : Option UInt64 → List SyncRow → List SyncRow
  | _, [] => []
  | last, row :: rest =>
    if last.any fun previous => row.sequence ≤ previous then []
    else row :: inSequence (some row.sequence) rest

/-- The actions of the rows that precede the first one out of sequence. -/
def accepted (rows : List SyncRow) : List SyncAction := (inSequence none rows).map SyncRow.action

/-- Rows in strictly increasing sequence order. -/
def Increasing (rows : List SyncRow) : Prop :=
  rows.Pairwise fun earlier later => earlier.sequence < later.sequence

-- The net effect of actions.

/-- The action that removes an edge. -/
def removal (edge : OverlayEdge) : SyncAction := .removeOverlayEdge edge.source edge.target

/-- The actions after the last truncate. -/
def sinceTruncate (actions : List SyncAction) : List SyncAction :=
  actions.rtakeWhile fun action => decide (action ≠ .truncateOverlays)

/-- The edges that no action removes; a truncate removes all. -/
def keptEdges (actions : List SyncAction) (edges : List OverlayEdge) : List OverlayEdge :=
  if .truncateOverlays ∈ actions then []
  else edges.filter fun edge => decide (removal edge ∉ actions)

/-- The inserted edges that no later action removes, in insertion order. -/
def insertedEdges : List SyncAction → List OverlayEdge
  | [] => []
  | .insertEdge source target :: rest => keptEdges rest [⟨source, target⟩] ++ insertedEdges rest
  | _ :: rest => insertedEdges rest

/-- An id is tombstoned before or deleted, and not forgotten by a truncate. -/
def Deleted (delete : UInt32 → SyncAction) (actions : List SyncAction) (before : BTreeSet UInt32)
    (id : UInt32) : Prop :=
  id ∈ before ∧ .truncateOverlays ∉ actions ∨ delete id ∈ sinceTruncate actions

/-- Actions that undo each other, or do what has been done already. -/
structure NoNetEffect (actions : List SyncAction) (overlay : OverlayState) : Prop where
  edges : keptEdges actions overlay.addedEdges ++ insertedEdges actions = overlay.addedEdges
  deletedEdges : ∀ edgeId, Deleted .deleteEdge actions overlay.tombstonedEdges edgeId ↔
    edgeId ∈ overlay.tombstonedEdges
  deletedNodes : ∀ nodeId, Deleted .deleteNode actions overlay.tombstonedNodes nodeId ↔
    nodeId ∈ overlay.tombstonedNodes

-- Multiplicities.

/-- One more for an insertion of an edge, and one less, but not below zero, for a removal of it. -/
def tallyOne (edge : OverlayEdge) (count : Nat) (action : SyncAction) : Nat :=
  if action = .insertEdge edge.source edge.target then count + 1
  else if action = removal edge then count - 1
  else count

/-- The copies of an edge that actions without a truncate leave, when a removal takes one. -/
def tally (edge : OverlayEdge) (actions : List SyncAction) : Nat :=
  actions.foldl (tallyOne edge) 0

/-- The copies of an edge that counting since the last truncate leaves. -/
def counted (edge : OverlayEdge) (actions : List SyncAction) : Nat :=
  tally edge (sinceTruncate actions)

/-- The last removal of an edge since the last truncate meets at most one copy of it. -/
def LastRemovalMeetsOne (edge : OverlayEdge) (actions : List SyncAction) : Prop :=
  ∀ earlier later, sinceTruncate actions = earlier ++ removal edge :: later →
    removal edge ∉ later → tally edge earlier ≤ 1

end SyncLog

end Oxgraph.Postgres
