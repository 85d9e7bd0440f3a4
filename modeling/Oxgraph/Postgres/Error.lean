import Oxgraph.Csr.Build

/-! The error surface of the Postgres graph engine. -/

namespace Oxgraph.Postgres

open Layout Csr

/-- Composite key of a registered node: its table and its primary key. -/
abbrev NodeKey := UInt64

/-- Errors of building or opening an artifact. -/
inductive BuildError where
  | plan (error : Container.PlanError)
  | graph (error : GraphBuildError UInt32 UInt32)
  | missingSnapshotBytes
  | emptyEdges
  | nodeCountOverflow
  | edgeCountOverflow
  | missingNodeKey
  | missingCsrSection (kind : UInt32)
  | missingMetadataSection
  | malformedMetadata
  | missingReverseIndex
  | topologyNodeCountMismatch
  | topologyEdgeCountMismatch
  | metadataNodeCountMismatch
  | metadataEdgeCountMismatch

/-- Errors of a query. -/
inductive QueryError where
  | seedOutOfBounds (seed nodeCount : UInt32)
  | limitZero
  | internalInvariant (message : String)
  deriving DecidableEq

/-- Errors of replaying sync rows. -/
inductive SyncError where
  | nonMonotonicSequence (sequence previous : UInt64)
  | invalidActionType (actionType : Int16)
  | invalidActionArgs (actionType : Int16)
  | unknownNodeKey (key : NodeKey)
  deriving DecidableEq

/-- Errors of a configuration. -/
inductive ConfigError where
  | zeroTraverseLimit
  | zeroSearchLimit
  | maintenanceDisabled
  deriving DecidableEq

/-- Errors of a registration catalog. -/
inductive CatalogError where
  | emptyCatalog
  deriving DecidableEq

/-- Errors of the engine. -/
inductive PostgresGraphError where
  | snapshot (error : Container.SnapshotError)
  | forwardSnapshot (error : CsrSnapshotError UInt32 UInt32)
  | inboundSnapshot (error : CsrSnapshotError UInt32 UInt32)
  | build (error : BuildError)
  | catalog (error : CatalogError)
  | query (error : QueryError)
  | sync (error : SyncError)
  | config (error : ConfigError)

end Oxgraph.Postgres
