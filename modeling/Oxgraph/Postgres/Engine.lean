import Oxgraph.Algo.Bounded
import Oxgraph.Postgres.Topology

/-! The engine: its configuration, its queries, and the changes of its overlay and its artifact. -/

namespace Oxgraph.Postgres

open Layout Container Csr

-- Configuration.

/-- Policy for reading overlay data in a query. -/
inductive QueryFreshness where
  | baseOnly
  | overlayAware
  deriving DecidableEq, Repr

/-- Extension settings that affect queries and maintenance. -/
structure Config where
  traverseLimit : UInt32
  searchLimit : UInt32
  queryFreshness : QueryFreshness
  maintenanceEnabled : Bool
  deriving DecidableEq, Repr

namespace Config

/-- The default settings. -/
def default : Config :=
  { traverseLimit := 10000, searchLimit := 10000, queryFreshness := .overlayAware
    maintenanceEnabled := true }

/-- Validates that the limits are positive. -/
def validate (config : Config) : Except ConfigError Unit :=
  if config.traverseLimit = 0 then .error .zeroTraverseLimit
  else if config.searchLimit = 0 then .error .zeroSearchLimit
  else .ok ()

end Config

/-- Limits of one traversal; both numbers are positive. -/
structure TraverseLimits where
  resultLimit : Nat
  resultLimit_pos : 0 < resultLimit
  maxDepth : Option UInt32
  maxDepth_pos : ∀ depth, maxDepth = some depth → 0 < depth

/-- Caps the result limit by the configured one. -/
def TraverseLimits.cappedBy (limits : TraverseLimits) (config : Config) :
    Except PostgresGraphError TraverseLimits :=
  let capped := min limits.resultLimit config.traverseLimit.toNat
  if positive : 0 < capped then
    .ok { limits with resultLimit := capped, resultLimit_pos := positive }
  else .error (.query .limitZero)

-- The engine.

/-- Search scratch storage that is allocated once for each engine. -/
structure TraverseScratch where
  marks : List UInt32
  queue : List UInt32

namespace TraverseScratch

/-- Scratch without slots. -/
def default : TraverseScratch := { marks := [], queue := [] }

/-- Resizes slots to a length, with zeroes for new ones. -/
def resize (slots : List UInt32) (length : Nat) : List UInt32 :=
  slots.take length ++ List.replicate (length - slots.length) 0

/-- Sizes the marks and the queue for so many nodes. -/
def resizeForNodes (scratch : TraverseScratch) (nodeCount : Nat) : TraverseScratch :=
  { marks := resize scratch.marks nodeCount, queue := resize scratch.queue nodeCount }

/-- Drops all slots, and sizes for the nodes of a new snapshot. -/
def resetAfterSnapshot (_ : TraverseScratch) (nodeCount : Nat) : TraverseScratch :=
  default.resizeForNodes nodeCount

end TraverseScratch

/-- Active engine state loaded from an artifact. -/
structure Engine where
  backing : Bytes
  metadata : PostgresMetadata
  topology : GraphTopology
  overlay : OverlayState
  config : Config
  traverseScratch : TraverseScratch
  -- Node-unique rows, and whether they have been built from the topology.
  uniqueAdjacency : UniqueAdjacency
  uniqueCacheBuilt : Bool

/-- What stops an operation of the engine. -/
inductive EngineHalt where
  | error (error : PostgresGraphError)
  | panic

/-- An operation of the engine. -/
abbrev EngineMutation := Mutation EngineHalt Engine

namespace EngineMutation

/-- Lifts a computation that does not depend on the engine. -/
def ofFallible {T : Type} (result : Fallible PostgresGraphError T) : EngineMutation T :=
  match result.run with
  | none => .fail .panic
  | some (.error error) => .fail (.error error)
  | some (.ok value) => return value

/-- Lifts a result that does not depend on the engine. -/
def ofResult {T : Type} (result : Except PostgresGraphError T) : EngineMutation T :=
  ofFallible (.ofResult result)

end EngineMutation

/-- Validates artifact bytes and attaches an overlay and a configuration. -/
def EngineBuilder.build (backing : Bytes) (overlay : OverlayState) (config : Config) :
    Fallible PostgresGraphError Engine := do
  .ofResult (config.validate.mapError .config)
  let snapshot ← .ofResult ((Snapshot.openBytes backing).mapError .snapshot)
  let metadata ← .ofResult (readMetadata snapshot)
  let topology ← GraphTopology.ofSnapshot snapshot
  return {
    backing, metadata, topology, overlay, config
    traverseScratch := TraverseScratch.default.resizeForNodes metadata.nodeCount.toNat
    uniqueAdjacency := .default
    uniqueCacheBuilt := false }

-- Queries.

/-- What a traversal returns. -/
inductive TraverseMode where
  | collect
  | count
  deriving DecidableEq, Repr

/-- What a query reads, resolved from the freshness and the overlay. -/
structure TraverseProfile where
  direction : TraversalDirection
  useUnique : Bool
  mergeOverlay : Bool

/-- Resolves the profile of a query. -/
def TraverseProfile.resolve (direction : TraversalDirection) (freshness : QueryFreshness)
    (overlay : OverlayState) : TraverseProfile :=
  { direction
    useUnique := freshness = .baseOnly ∧ ¬ overlay.hasEdgeTombstones
    mergeOverlay := freshness = .overlayAware ∧ 0 < overlay.overlayEdgeCount }

/-- Parameters of one traversal. -/
structure TraverseSession where
  nodeCount : UInt32
  profile : TraverseProfile
  mode : TraverseMode
  resultLimit : Nat
  maxDepth : Option UInt32
  -- Visible seeds only.
  seeds : List UInt32
  checkNodes : Bool

/-- The visibility of a seed in the view of a direction. -/
def seedVisible (engine : Engine) (direction : TraversalDirection) (seed : UInt32) : Bool :=
  match direction with
  | .out => nodeVisibleIn engine.topology.forward seed engine.overlay
  | .in => nodeVisibleIn engine.topology.inbound seed engine.overlay

/-- Validates the seeds and resolves the query. -/
def TraverseSession.ofEngine (engine : Engine) (seeds : List UInt32) (limits : TraverseLimits)
    (direction : TraversalDirection) (mode : TraverseMode) :
    Except PostgresGraphError TraverseSession :=
  let nodeCount := engine.metadata.nodeCount
  match seeds.find? fun seed => seed ≥ nodeCount with
  | some seed => .error (.query (.seedOutOfBounds seed nodeCount))
  | none =>
    .ok { nodeCount
          profile := .resolve direction engine.config.queryFreshness engine.overlay
          mode
          resultLimit := limits.resultLimit
          maxDepth := limits.maxDepth
          seeds := seeds.filter (seedVisible engine direction)
          checkNodes := engine.overlay.hasNodeTombstones }

/-- Collector or counter of discovered nodes. -/
structure OutcomeVisitor where
  nodes : List UInt32
  count : Nat
  collect : Bool

/-- Observes one node. -/
def OutcomeVisitor.observe (visitor : OutcomeVisitor) (node _depth : UInt32) :
    ControlFlow × OutcomeVisitor :=
  (.continue, { visitor with
    count := visitor.count + 1
    nodes := if visitor.collect then visitor.nodes ++ [node] else visitor.nodes })

/-- Collected nodes, or a count. -/
inductive KernelOutcome where
  | nodes (nodes : List UInt32)
  | count (count : Nat)
  deriving DecidableEq, Repr

/-- What a visitor has observed. -/
def OutcomeVisitor.finish (visitor : OutcomeVisitor) : TraverseMode → KernelOutcome
  | .collect => .nodes visitor.nodes
  | .count => .count visitor.count

namespace Engine

/-- Builds the node-unique rows, unless they are there. -/
def ensureUnique (needsUnique : Bool) : EngineMutation Unit := do
  let engine ← .read
  if needsUnique ∧ ¬ engine.uniqueCacheBuilt then
    match UniqueAdjacency.fromTopology engine.topology.forward engine.topology.inbound with
    | none => .fail .panic
    | some unique =>
      .modify fun engine => { engine with uniqueAdjacency := unique, uniqueCacheBuilt := true }
  else return

/-- The bounded search of a direction, over scratch that is new to it. -/
def searchAlong (direction : TraversalDirection) (graph : TopologyView UInt32)
    (seeds : List UInt32) (bounds : BfsBounds) (scratch : TraverseScratch)
    (visitor : OutcomeVisitor) :
    Except BfsHalt Unit × BfsEpochScratch UInt32 × OutcomeVisitor :=
  match direction with
  | .out =>
    breadthFirstSearchBounded graph seeds bounds OutcomeVisitor.observe
      (.new scratch.marks scratch.queue) visitor
  | .in =>
    reverseBreadthFirstSearchBounded graph seeds bounds OutcomeVisitor.observe
      (.new scratch.marks scratch.queue) visitor

/-- Runs one bounded search over the overlay view of a session. -/
def runBfsMulti (session : TraverseSession) : EngineMutation KernelOutcome :=
  if session.seeds.isEmpty then
    return match session.mode with
      | .collect => .nodes []
      | .count => .count 0
  else do
    ensureUnique session.profile.useUnique
    let engine ← .read
    let view : OverlayView :=
      { topology := engine.topology
        overlay := engine.overlay
        unique := engine.uniqueAdjacency
        flags := { useUnique := session.profile.useUnique
                   mergeOverlay := session.profile.mergeOverlay
                   checkNodes := session.checkNodes }
        nodeCount := session.nodeCount.toNat }
    let bounds : BfsBounds :=
      { maxDepth := session.maxDepth, resultLimit := session.resultLimit, includeSeeds := true }
    let visitor : OutcomeVisitor :=
      { nodes := [], count := 0, collect := session.mode = .collect }
    match view.topologyView session.profile.direction with
    | none => .fail .panic
    | some graph =>
      let searched := searchAlong session.profile.direction graph session.seeds bounds
        engine.traverseScratch visitor
      .modify fun engine =>
        { engine with
          traverseScratch := { marks := searched.2.1.marks, queue := searched.2.1.queue } }
      match searched.1 with
      | .ok () => return searched.2.2.finish session.mode
      | .error (.error _) =>
        .fail (.error (.query (.internalInvariant "bounded BFS rejected engine scratch")))
      | .error _ => .fail .panic

/-- Runs one capped traversal. -/
def traverseCore (seeds : List UInt32) (limits : TraverseLimits) (direction : TraversalDirection)
    (mode : TraverseMode) : EngineMutation KernelOutcome := do
  let engine ← .read
  let limits ← .ofResult (limits.cappedBy engine.config)
  let session ← .ofResult (TraverseSession.ofEngine engine seeds limits direction mode)
  runBfsMulti session

/-- Breadth-first traversal from several seeds. -/
def traverseFromSeeds (seeds : List UInt32) (limits : TraverseLimits)
    (direction : TraversalDirection) : EngineMutation (List UInt32) := do
  match ← traverseCore seeds limits direction .collect with
  | .nodes nodes => return nodes
  | .count _ =>
    .fail (.error (.query (.internalInvariant "expected nodes from collect traversal")))

/-- Breadth-first traversal from one seed. -/
def traverse (seed : UInt32) (limits : TraverseLimits) (direction : TraversalDirection) :
    EngineMutation (List UInt32) :=
  traverseFromSeeds [seed] limits direction

/-- The number of nodes visited from one seed. -/
def visitedCount (seed : UInt32) (limits : TraverseLimits) (direction : TraversalDirection) :
    EngineMutation Nat := do
  match ← traverseCore [seed] limits direction .count with
  | .count count => return count
  | .nodes _ =>
    .fail (.error (.query (.internalInvariant "expected count from count-only traversal")))

-- Changes.

/-- Updates the configuration after validation. -/
def setConfig (config : Config) : EngineMutation Unit := do
  .ofResult (config.validate.mapError .config)
  .modify fun engine => { engine with config }

/-- Replaces the artifact; the overlay, the scratch, and the unique rows start afresh. -/
def replaceSnapshotBytes (bytes : Bytes) : EngineMutation Unit := do
  let engine ← .read
  let built ← .ofFallible (EngineBuilder.build bytes .default engine.config)
  .modify fun engine =>
    { engine with
      backing := built.backing
      metadata := built.metadata
      topology := built.topology
      overlay := engine.overlay.clear
      uniqueAdjacency := .default
      uniqueCacheBuilt := false
      traverseScratch :=
        engine.traverseScratch.resetAfterSnapshot built.metadata.nodeCount.toNat }

/-- Applies sync rows to the overlay. -/
def applySyncRows (rows : List SyncRow) : EngineMutation Nat := fun engine =>
  match SyncRow.applyInOrder rows engine.overlay with
  | (.ok applied, overlay) => (.ok applied, { engine with overlay })
  | (.error error, overlay) => (.error (.error (.sync error)), { engine with overlay })

/-- Rebuilds the artifact from edge rows and replaces it. -/
def rebuildFromCatalog (checksum : Checksum32) (catalog : Catalog) (edges : List EdgeRow)
    (builtAtUnix : UInt64) : EngineMutation Unit := do
  let engine ← .read
  if ¬ engine.config.maintenanceEnabled then .fail (.error (.config .maintenanceDisabled))
  else do
    let bytes ← .ofFallible
      (SnapshotRebuild.fromCatalogAndEdges checksum catalog edges builtAtUnix)
    replaceSnapshotBytes bytes

end Engine

end Oxgraph.Postgres
