import Oxgraph.Postgres.Artifact
import Oxgraph.Postgres.Overlay

/-! Decoding persisted sync rows, and resolving their node keys to dense ids. -/

namespace Oxgraph.Postgres

/-- Persisted sync-log action before dense-node resolution. -/
inductive SyncActionWire where
  | insertEdge (source target : NodeKey)
  | removeOverlayEdge (source target : NodeKey)
  -- Edge and node ids of the log are dense already.
  | deleteEdge (edgeId : UInt32)
  | deleteNode (nodeId : UInt32)
  | truncateOverlays
  deriving DecidableEq, Repr

/-- Persisted sync-log action types. -/
inductive SyncActionCodec where
  | insertEdge
  | deleteEdge
  | deleteNode
  | truncateOverlays
  | removeOverlayEdge
  deriving DecidableEq, Repr

/-- Raw sync-log row before dense resolution. -/
structure RawSyncRow where
  sequence : UInt64
  actionType : Int16
  arg0 : Option Int64
  arg1 : Option Int64
  deriving DecidableEq, Repr

/-- Parses a non-negative sync-log node key when present. -/
def nodeKeyFromI64 (value : Option Int64) : Option NodeKey :=
  value.bind fun value => if value < 0 then none else some value.toUInt64

/-- Decodes a persisted node-key argument from the sync log. -/
def decodeNodeKey (value : Option Int64) (actionType : Int16) : Except SyncError NodeKey :=
  match value with
  | none => .error (.invalidActionArgs actionType)
  | some value =>
    if value < 0 then .error (.invalidActionArgs actionType) else .ok value.toUInt64

/-- Decodes a persisted dense id. -/
def decodeDenseId (value : Option Int64) (actionType : Int16) : Except SyncError UInt32 :=
  match value with
  | none => .error (.invalidActionArgs actionType)
  | some value =>
    if 0 ≤ value ∧ value.toInt < u32Bound then .ok value.toUInt64.toUInt32
    else .error (.invalidActionArgs actionType)

/-- Maps a registered node key to its dense id. -/
def lookupDense (key : NodeKey) (nodeMap : BTreeMap NodeKey UInt32) : Except SyncError UInt32 :=
  match nodeMap.get? key with
  | some id => .ok id
  | none => .error (.unknownNodeKey key)

/-- Resolves one wire sync action into dense engine coordinates. -/
def resolveSyncAction (action : SyncActionWire) (nodeMap : BTreeMap NodeKey UInt32) :
    Except SyncError SyncAction :=
  match action with
  | .insertEdge source target => do
    return .insertEdge (← lookupDense source nodeMap) (← lookupDense target nodeMap)
  | .removeOverlayEdge source target => do
    return .removeOverlayEdge (← lookupDense source nodeMap) (← lookupDense target nodeMap)
  | .deleteEdge edgeId => .ok (.deleteEdge edgeId)
  | .deleteNode nodeId => .ok (.deleteNode nodeId)
  | .truncateOverlays => .ok .truncateOverlays

namespace SyncActionCodec

/-- Maps a persisted action-type id to its codec variant. -/
def tryFrom (value : Int16) : Except SyncError SyncActionCodec :=
  if value = 1 then .ok .insertEdge
  else if value = 2 then .ok .deleteEdge
  else if value = 3 then .ok .deleteNode
  else if value = 4 then .ok .truncateOverlays
  else if value = 5 then .ok .removeOverlayEdge
  else .error (.invalidActionType value)

/-- Whether an action carries registered node-key arguments. -/
def carriesNodeKeys : SyncActionCodec → Bool
  | .insertEdge | .removeOverlayEdge => true
  | .deleteEdge | .deleteNode | .truncateOverlays => false

/-- Decodes a persisted sync row into a wire action. -/
def decodeWire (actionType : Int16) (arg0 arg1 : Option Int64) :
    Except SyncError SyncActionWire := do
  match ← tryFrom actionType with
  | .insertEdge =>
    return .insertEdge (← decodeNodeKey arg0 actionType) (← decodeNodeKey arg1 actionType)
  | .deleteEdge => return .deleteEdge (← decodeDenseId arg0 actionType)
  | .deleteNode => return .deleteNode (← decodeDenseId arg0 actionType)
  | .truncateOverlays => return .truncateOverlays
  | .removeOverlayEdge =>
    return .removeOverlayEdge (← decodeNodeKey arg0 actionType) (← decodeNodeKey arg1 actionType)

/-- Decodes a persisted sync row into a dense action. -/
def decode (actionType : Int16) (arg0 arg1 : Option Int64) (nodeMap : BTreeMap NodeKey UInt32) :
    Except SyncError SyncAction := do
  resolveSyncAction (← decodeWire actionType arg0 arg1) nodeMap

end SyncActionCodec

/-- Whether the action type of a row is one that carries node keys. -/
def RawSyncRow.isKeyed (row : RawSyncRow) : Bool :=
  match SyncActionCodec.tryFrom row.actionType with
  | .ok codec => codec.carriesNodeKeys
  | .error _ => false

/-- Adds the keys of one keyed row. -/
def harvestKeys (keys : BTreeSet NodeKey) (row : RawSyncRow) : BTreeSet NodeKey :=
  if row.isKeyed then
    let keys := match nodeKeyFromI64 row.arg0 with
      | some key => keys.insert key
      | none => keys
    match nodeKeyFromI64 row.arg1 with
    | some key => keys.insert key
    | none => keys
  else keys

/-- Builds the dense node assignment used when replaying sync rows. -/
def denseNodeMapForSyncResolution (edges : List EdgeRow) (rawRows : List RawSyncRow) :
    Except PostgresGraphError (BTreeMap NodeKey UInt32) :=
  let keys := rawRows.foldl harvestKeys (distinctNodeKeys edges)
  (denseNodeMapFromKeys keys).mapError .build

/-- Resolves persisted sync rows using the current relational edge scan. -/
def resolveSyncRows (edges : List EdgeRow) (rawRows : List RawSyncRow) :
    Except PostgresGraphError (List SyncRow) := do
  let nodeMap ← denseNodeMapForSyncResolution edges rawRows
  rawRows.mapM fun row => do
    let action ← (SyncActionCodec.decode row.actionType row.arg0 row.arg1 nodeMap).mapError .sync
    return { sequence := row.sequence, action }

end Oxgraph.Postgres
