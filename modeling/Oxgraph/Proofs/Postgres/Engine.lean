import Oxgraph.Proofs.Algo.Bounded
import Oxgraph.Proofs.Postgres.Rows

/-! A traversal returns the reference list, whatever the engine has been through. -/

namespace Oxgraph.Postgres

open Layout Container Csr
open Mutation (bind_apply)

-- The topology view of a resolved overlay view.

/-- The rows of a direction. -/
def rowsAlong (graph : TopologyView UInt32) : TraversalDirection → UInt32 → List UInt32
  | .out => graph.elementSuccessors
  | .in => graph.elementPredecessors

/-- A resolved view is a lawful topology view whose rows are the visible neighbours. -/
theorem Resolved.topologyView {view : OverlayView} {freshness : QueryFreshness} {nodeCount : UInt32}
    (resolved : Resolved view freshness nodeCount) (direction : TraversalDirection) : ∃ graph,
      view.topologyView direction = some graph ∧ graph.Lawful ∧
        graph.elementBound = nodeCount.toNat ∧
        graph.containsElement = visibleNode nodeCount view.overlay ∧
        ∀ node, node < nodeCount → rowsAlong graph direction node =
          (freshRow view.topology view.overlay freshness direction node).filter
            (visibleNode nodeCount view.overlay) := by
  let reference (node : UInt32) : List UInt32 :=
    (freshRow view.topology view.overlay freshness direction node).filter
      (visibleNode nodeCount view.overlay)
  have read : (List.range view.nodeCount).mapM (fun node => view.row direction (.ofNat node)) =
      some ((List.range view.nodeCount).map fun node => reference (.ofNat node)) := by
    refine mapM_some fun node member => ?_
    have below := List.mem_range.mp member
    rw [resolved.count] at below
    refine resolved.row_eq ?_ direction
    show (UInt32.ofNat node).toNat < nodeCount.toNat
    rw [UInt32.toNat_ofNat_of_lt' (Nat.lt_trans below nodeCount.toNat_lt)]
    exact below
  have row {node : UInt32} (inside : node < nodeCount) :
      ((List.range view.nodeCount).map fun node => reference (.ofNat node)).getD node.toNat [] =
        reference node := by
    have below : node.toNat < view.nodeCount := by
      rw [resolved.count]
      exact inside
    rw [List.getD_eq_getElem _ _ (by rw [List.length_map, List.length_range]; exact below),
      List.getElem_map, List.getElem_range, UInt32.ofNat_toNat]
  have contains : view.admits = visibleNode nodeCount view.overlay := funext resolved.admits_eq
  have inRange {node : UInt32} (visible : view.admits node = true) : node < nodeCount := by
    rw [contains] at visible
    exact of_decide_eq_true (Bool.and_eq_true_iff.mp visible).1
  -- A row lists visible nodes only, so a search never leaves them.
  have closed {node : UInt32} (visible : view.admits node = true) : ∀ target ∈
      ((List.range view.nodeCount).map fun node => reference (.ofNat node)).getD node.toNat [],
        view.admits target = true := by
    intro target member
    rw [row (inRange visible)] at member
    rw [contains]
    exact (List.mem_filter.mp member).2
  unfold OverlayView.topologyView
  rw [read]
  cases direction with
  | out =>
    refine ⟨_, rfl, ?_, resolved.count, contains, fun node inside => row inside⟩
    refine ⟨fun visible => ?_, fun _ _ same => UInt32.toNat_inj.mp same, closed,
      fun _ _ member => (nomatch member)⟩
    show UInt32.toNat _ < view.nodeCount
    rw [resolved.count]
    exact inRange visible
  | «in» =>
    refine ⟨_, rfl, ?_, resolved.count, contains, fun node inside => row inside⟩
    refine ⟨fun visible => ?_, fun _ _ same => UInt32.toNat_inj.mp same,
      fun _ _ member => (nomatch member), closed⟩
    show UInt32.toNat _ < view.nodeCount
    rw [resolved.count]
    exact inRange visible

-- What every engine keeps.

/-- A topology is made of accepted views over the same nodes. -/
structure Matches (topology : GraphTopology) (nodeCount : UInt32) : Prop where
  outward : Accepted topology.forward
  inward : Accepted topology.inbound
  forwardCount : topology.forward.nodeBound = nodeCount.toNat
  inboundCount : topology.inbound.nodeBound = nodeCount.toNat

/-- A topology that a snapshot opens as matches its metadata. -/
theorem matches_of_snapshot {snapshot : Container.Snapshot} {metadata : PostgresMetadata}
    {topology : GraphTopology} (read : readMetadata snapshot = .ok metadata)
    (opened : GraphTopology.ofSnapshot snapshot = pure topology) :
    Matches topology metadata.nodeCount := by
  obtain ⟨_, same, forwardOpened, inboundOpened, sameNodes, counted⟩ := ofSnapshot_checked opened
  cases read.symm.trans same
  exact {
    outward := accepted_of_snapshot forwardOpened
    inward := accepted_of_snapshot inboundOpened
    forwardCount := counted
    inboundCount := sameNodes.symm.trans counted }

namespace Engine

/-- The state of an engine is consistent: what its fields derive from agrees with them. -/
structure Consistent (engine : Engine) : Prop where
  artifact : ∃ snapshot, Snapshot.openBytes engine.backing = .ok snapshot ∧
    GraphTopology.ofSnapshot snapshot = pure engine.topology
  topology : Matches engine.topology engine.metadata.nodeCount
  indexed : engine.overlay.Indexed
  limit : engine.config.traverseLimit ≠ 0
  marks : engine.traverseScratch.marks.length = engine.metadata.nodeCount.toNat
  queue : engine.traverseScratch.queue.length = engine.metadata.nodeCount.toNat
  unique : engine.uniqueCacheBuilt = true → UniqueAdjacency.fromTopology
    engine.topology.forward engine.topology.inbound = some engine.uniqueAdjacency

/-- A step of an engine that keeps it consistent. -/
abbrev Upkeep (before after : Engine) : Prop := before.Consistent → after.Consistent

end Engine

/-- Resized scratch has a slot for each node. -/
theorem TraverseScratch.length_resize (slots : List UInt32) (length : Nat) :
    (TraverseScratch.resize slots length).length = length := by
  unfold TraverseScratch.resize
  rw [List.length_append, List.length_take, List.length_replicate]
  omega

/-- A validated configuration has a positive traversal limit. -/
theorem Config.limit_of_validate {config : Config} (valid : config.validate = .ok ()) :
    config.traverseLimit ≠ 0 := by
  intro zero
  unfold Config.validate at valid
  rw [if_pos zero] at valid
  cases valid

/-- An engine that is built from an artifact and an indexed overlay is consistent. -/
theorem EngineBuilder.build_consistent {backing : Bytes} {overlay : OverlayState} {config : Config}
    {engine : Engine} (built : EngineBuilder.build backing overlay config = pure engine)
    (indexed : overlay.Indexed) : engine.Consistent ∧ engine.backing = backing := by
  unfold EngineBuilder.build at built
  obtain ⟨_, valid, built⟩ := Fallible.bind_eq_pure.mp built
  obtain ⟨snapshot, loaded, built⟩ := Fallible.bind_eq_pure.mp built
  obtain ⟨metadata, read, built⟩ := Fallible.bind_eq_pure.mp built
  obtain ⟨topology, opened, built⟩ := Fallible.bind_eq_pure.mp built
  cases Fallible.pure_eq_pure.mp built
  have validated := mapError_eq_ok.mp (Fallible.ofResult_eq_pure.mp valid)
  refine ⟨?_, rfl⟩
  exact {
    artifact := ⟨snapshot, mapError_eq_ok.mp (Fallible.ofResult_eq_pure.mp loaded), opened⟩
    topology := matches_of_snapshot (Fallible.ofResult_eq_pure.mp read) opened
    indexed
    limit := Config.limit_of_validate validated
    marks := TraverseScratch.length_resize _ _
    queue := TraverseScratch.length_resize _ _
    unique := fun early => (nomatch early) }

-- What each operation does to it.

/-- A lifted computation succeeds as it does alone, and leaves the engine. -/
theorem EngineMutation.ofFallible_ok {T : Type} {result : Fallible PostgresGraphError T} {value : T}
    {engine after : Engine} : EngineMutation.ofFallible result engine = (.ok value, after) ↔
      result = pure value ∧ after = engine := by
  unfold EngineMutation.ofFallible
  rcases result with _ | _ | produced
  · exact ⟨fun impossible => (nomatch impossible), fun impossible => (nomatch impossible.1)⟩
  · exact ⟨fun impossible => (nomatch impossible), fun impossible => (nomatch impossible.1)⟩
  · constructor
    · rintro ⟨⟩
      exact ⟨rfl, rfl⟩
    · rintro ⟨⟨⟩, rfl⟩
      rfl

/-- A lifted result succeeds as it does alone, and leaves the engine. -/
theorem EngineMutation.ofResult_ok {T : Type} {result : Except PostgresGraphError T} {value : T}
    {engine after : Engine} : EngineMutation.ofResult result engine = (.ok value, after) ↔
      result = .ok value ∧ after = engine := by
  unfold EngineMutation.ofResult
  rw [EngineMutation.ofFallible_ok, Fallible.ofResult_eq_pure]

namespace Engine

theorem ofFallible_steps {T : Type} (result : Fallible PostgresGraphError T) (engine : Engine) :
    (EngineMutation.ofFallible result).Steps Upkeep engine := by
  unfold EngineMutation.ofFallible
  split
  · exact .fail _
  · exact .fail _
  · exact .pure _

theorem ofResult_steps {T : Type} (result : Except PostgresGraphError T) (engine : Engine) :
    (EngineMutation.ofResult result).Steps Upkeep engine := ofFallible_steps _ engine

theorem setConfig_steps (config : Config) (engine : Engine) :
    (setConfig config).Steps Upkeep engine := by
  refine .bind (ofResult_steps _ engine) fun _ state validated => .modify fun before => ?_
  obtain ⟨valid, rfl⟩ := EngineMutation.ofResult_ok.mp validated
  exact { before with limit := Config.limit_of_validate (mapError_eq_ok.mp valid) }

theorem replaceSnapshotBytes_steps (bytes : Bytes) (engine : Engine) :
    (replaceSnapshotBytes bytes).Steps Upkeep engine := by
  refine .read_bind (.bind (ofFallible_steps _ engine) fun built state opened => .modify ?_)
  intro before
  obtain ⟨ran, rfl⟩ := EngineMutation.ofFallible_ok.mp opened
  obtain ⟨fresh, _⟩ := EngineBuilder.build_consistent ran OverlayState.indexed_default
  -- The scratch is sized afresh, and the unique rows of the old topology are dropped.
  exact {
    artifact := fresh.artifact
    topology := fresh.topology
    indexed := before.indexed.edit .clear
    limit := before.limit
    marks := TraverseScratch.length_resize _ _
    queue := TraverseScratch.length_resize _ _
    unique := fun stale => (nomatch stale) }

theorem applySyncRows_upkeep (rows : List SyncRow) (engine : Engine) :
    Upkeep engine (applySyncRows rows engine).2 := by
  intro before
  have replayed := before.indexed.replayed rows
  unfold applySyncRows
  -- The rows before one that fails stay applied.
  split
  · rename_i same
    rw [same] at replayed
    exact { before with indexed := replayed }
  · rename_i same
    rw [same] at replayed
    exact { before with indexed := replayed }

theorem rebuildFromCatalog_steps (checksum : Checksum32) (catalog : Catalog) (edges : List EdgeRow)
    (builtAtUnix : UInt64) (engine : Engine) :
    (rebuildFromCatalog checksum catalog edges builtAtUnix).Steps Upkeep engine := by
  refine .read_bind ?_
  split
  · exact .fail _
  · refine .bind (ofFallible_steps _ engine) fun bytes state _ => ?_
    exact replaceSnapshotBytes_steps bytes state

theorem ensureUnique_steps (needsUnique : Bool) (engine : Engine) :
    (ensureUnique needsUnique).Steps Upkeep engine := by
  refine .read_bind ?_
  split
  · split
    · exact .fail _
    · rename_i unique built
      refine .modify fun before => ?_
      exact { before with unique := fun _ => built }
  · exact .pure _

/-- A search leaves scratch of the same lengths. -/
theorem searchAlong_lengths (direction : TraversalDirection) (graph : TopologyView UInt32)
    (seeds : List UInt32) (bounds : BfsBounds) (scratch : TraverseScratch)
    (visitor : OutcomeVisitor) :
    (searchAlong direction graph seeds bounds scratch visitor).2.1.marks.length =
        scratch.marks.length ∧
      (searchAlong direction graph seeds bounds scratch visitor).2.1.queue.length =
        scratch.queue.length := by
  cases direction with
  | out =>
    have usable := Bfs.uses_usable scratch.marks scratch.queue
      [.bounded graph graph.elementSuccessors seeds bounds OutcomeVisitor.observe visitor]
    exact ⟨usable.marks, usable.queue⟩
  | «in» =>
    have usable := Bfs.uses_usable scratch.marks scratch.queue
      [.bounded graph graph.elementPredecessors seeds bounds OutcomeVisitor.observe visitor]
    exact ⟨usable.marks, usable.queue⟩

theorem runBfsMulti_steps (session : TraverseSession) (engine : Engine) :
    (runBfsMulti session).Steps Upkeep engine := by
  unfold runBfsMulti
  split
  · exact .pure _
  refine .bind (ensureUnique_steps _ engine) fun _ state _ => .read_bind ?_
  simp only
  split
  · exact .fail _
  refine .bind (.modify fun before => ?_) fun _ after _ => ?_
  · obtain ⟨marks, queue⟩ := searchAlong_lengths session.profile.direction _ session.seeds _
      state.traverseScratch _
    exact { before with marks := marks.trans before.marks, queue := queue.trans before.queue }
  · split
    · exact .pure _
    · exact .fail _
    · exact .fail _

theorem traverseCore_steps (seeds : List UInt32) (limits : TraverseLimits)
    (direction : TraversalDirection) (mode : TraverseMode) (engine : Engine) :
    (traverseCore seeds limits direction mode).Steps Upkeep engine := by
  refine .read_bind (.bind (ofResult_steps _ engine) fun _ capped _ => ?_)
  refine .bind (ofResult_steps _ capped) fun session resolved _ => ?_
  exact runBfsMulti_steps session resolved

theorem traverseFromSeeds_steps (seeds : List UInt32) (limits : TraverseLimits)
    (direction : TraversalDirection) (engine : Engine) :
    (traverseFromSeeds seeds limits direction).Steps Upkeep engine := by
  refine .bind (traverseCore_steps seeds limits direction .collect engine) fun outcome after _ => ?_
  cases outcome with
  | nodes nodes => exact .pure _
  | count count => exact .fail _

theorem visitedCount_steps (seed : UInt32) (limits : TraverseLimits)
    (direction : TraversalDirection) (engine : Engine) :
    (visitedCount seed limits direction).Steps Upkeep engine := by
  refine .bind (traverseCore_steps [seed] limits direction .count engine) fun outcome after _ => ?_
  cases outcome with
  | nodes nodes => exact .fail _
  | count count => exact .pure _

/-- Every call keeps the engine consistent, whether it succeeded, failed or panicked. -/
theorem run_upkeep (engine : Engine) (op : EngineOp) : Upkeep engine (op.run engine) := by
  intro before
  cases op with
  | setConfig config => exact (setConfig_steps config engine).keeps before
  | applySyncRows rows => exact applySyncRows_upkeep rows engine before
  | editOverlay edits => exact { before with indexed := before.indexed.edits edits }
  | replaceSnapshotBytes bytes => exact (replaceSnapshotBytes_steps bytes engine).keeps before
  | rebuildFromCatalog checksum catalog edges builtAtUnix =>
    exact (rebuildFromCatalog_steps checksum catalog edges builtAtUnix engine).keeps before
  | traverse seed limits direction =>
    exact (traverseFromSeeds_steps [seed] limits direction engine).keeps before
  | traverseFromSeeds seeds limits direction =>
    exact (traverseFromSeeds_steps seeds limits direction engine).keeps before
  | visitedCount seed limits direction =>
    exact (visitedCount_steps seed limits direction engine).keeps before

/-- Every engine that is built is consistent after any calls. -/
theorem history_consistent {backing : Bytes} {edits : List OverlayEdit} {config : Config}
    {engine : Engine}
    (built : EngineBuilder.build backing (OverlayEdit.all edits) config = pure engine)
    (ops : List EngineOp) : (ops.foldl EngineOp.run engine).Consistent := by
  have initially :=
    (EngineBuilder.build_consistent built (OverlayState.indexed_default.edits edits)).1
  clear built
  -- Each call keeps the engine consistent, so this is by induction on the calls.
  induction ops generalizing engine with
  | nil => exact initially
  | cons op ops ih => exact ih (run_upkeep engine op initially)

-- One traversal.

/-- An observed visitor has counted the entries, and has collected them if it collects. -/
theorem observed_eq (visitor : OutcomeVisitor) (entries : List (UInt32 × Nat)) :
    Bfs.Bounded.observed OutcomeVisitor.observe visitor entries =
      { visitor with
        count := visitor.count + entries.length
        nodes := if visitor.collect then visitor.nodes ++ entries.map Prod.fst
          else visitor.nodes } := by
  induction entries generalizing visitor with
  | nil =>
    unfold Bfs.Bounded.observed
    simp
  | cons entry rest ih =>
    show Bfs.Bounded.observed OutcomeVisitor.observe
      (OutcomeVisitor.observe visitor entry.1 (UInt32.ofNat entry.2)).2 rest = _
    rw [ih]
    unfold OutcomeVisitor.observe
    cases visitor.collect <;> simp <;> omega

/-- What a mode returns of a list of discovered nodes. -/
def outcome : TraverseMode → List UInt32 → KernelOutcome
  | .collect, nodes => .nodes nodes
  | .count, nodes => .count nodes.length

/-- A search along a direction observes the entries that the bounds admit. -/
theorem searchAlong_eq {direction : TraversalDirection} {graph : TopologyView UInt32}
    (lawful : graph.Lawful) (small : graph.elementBound < 2 ^ 32)
    (closed : ∀ {node}, graph.containsElement node = true →
      ∀ next ∈ rowsAlong graph direction node, graph.containsElement next = true)
    {seeds : List UInt32} (contained : ∀ seed ∈ seeds, graph.containsElement seed = true)
    {scratch : TraverseScratch} (marksFit : graph.elementBound ≤ scratch.marks.length)
    (queueFits : graph.elementBound ≤ scratch.queue.length) (bounds : BfsBounds)
    (visitor : OutcomeVisitor) : ∃ after,
      searchAlong direction graph seeds bounds scratch visitor =
        (.ok (), after, Bfs.Bounded.observed OutcomeVisitor.observe visitor
          ((Bfs.Bounded.shown bounds (listing (rowsAlong graph direction)
            (Bfs.Bounded.depthLimit bounds) seeds graph.elementBound)).take
              (Bfs.Bounded.cap bounds))) := by
  have usable := Bfs.uses_usable scratch.marks scratch.queue []
  have marks : graph.elementBound ≤
      (BfsEpochScratch.new scratch.marks scratch.queue).marks.length :=
    Nat.le_trans marksFit (Nat.le_of_eq usable.marks.symm)
  cases direction with
  | out =>
    exact Bfs.Bounded.boundedSearch_eq lawful (fun _ _ _ => rfl) small closed contained
      usable.settled marks queueFits bounds visitor
  | «in» =>
    exact Bfs.Bounded.boundedSearch_eq lawful (fun _ _ _ => rfl) small closed contained
      usable.settled marks queueFits bounds visitor

/-- A query whose search goes through returns what its visitor has observed. -/
theorem runBfsMulti_searched {session : TraverseSession} {engine built : Engine}
    {graph : TopologyView UInt32} {scratch : BfsEpochScratch UInt32} {visitor : OutcomeVisitor}
    (seeded : session.seeds.isEmpty = false)
    (ran : ensureUnique session.profile.useUnique engine = (.ok (), built))
    (viewed : OverlayView.topologyView
      { topology := built.topology
        overlay := built.overlay
        unique := built.uniqueAdjacency
        flags := { useUnique := session.profile.useUnique
                   mergeOverlay := session.profile.mergeOverlay
                   checkNodes := session.checkNodes }
        nodeCount := session.nodeCount.toNat } session.profile.direction = some graph)
    (searched : searchAlong session.profile.direction graph session.seeds
      { maxDepth := session.maxDepth, resultLimit := session.resultLimit, includeSeeds := true }
      built.traverseScratch { nodes := [], count := 0, collect := session.mode = .collect } =
        (.ok (), scratch, visitor)) :
    runBfsMulti session engine = (.ok (visitor.finish session.mode),
      { built with traverseScratch := { marks := scratch.marks, queue := scratch.queue } }) := by
  unfold runBfsMulti
  rw [if_neg (by rw [seeded]; exact Bool.false_ne_true), bind_apply, ran]
  simp only [bind_apply, Mutation.read]
  rw [viewed]
  simp only [bind_apply, Mutation.modify_apply]
  rw [searched]
  rfl

/-- What a query in a direction reads. -/
def profileOf (engine : Engine) (direction : TraversalDirection) : TraverseProfile :=
  .resolve direction engine.config.queryFreshness engine.overlay

/-- The overlay view of a query in a direction. -/
def viewOf (engine : Engine) (direction : TraversalDirection) : OverlayView :=
  { topology := engine.topology
    overlay := engine.overlay
    unique := engine.uniqueAdjacency
    flags :=
      { useUnique := (engine.profileOf direction).useUnique
        mergeOverlay := (engine.profileOf direction).mergeOverlay
        checkNodes := engine.overlay.hasNodeTombstones }
    nodeCount := engine.metadata.nodeCount.toNat }

namespace Consistent

variable {engine : Engine} (consistent : engine.Consistent)

include consistent

/-- A seed is visible in either direction when it is a visible node. -/
theorem seedVisible_eq (direction : TraversalDirection) (seed : UInt32) :
    seedVisible engine direction seed =
      visibleNode engine.metadata.nodeCount engine.overlay seed := by
  have general {view : CsrGraph UInt32 UInt32}
      (count : view.nodeBound = engine.metadata.nodeCount.toNat) :
      nodeVisibleIn view seed engine.overlay =
        visibleNode engine.metadata.nodeCount engine.overlay seed := by
    unfold nodeVisibleIn visibleNode
    rw [count]
    -- Without tombstoned nodes, every node in range is visible.
    cases tombstones : engine.overlay.hasNodeTombstones with
    | false =>
      rw [OverlayState.nodeVisible_of_none tombstones]
      simp [UInt32.lt_iff_toNat_lt]
    | true => simp [UInt32.lt_iff_toNat_lt]
  cases direction with
  | out => exact general consistent.topology.forwardCount
  | «in» => exact general consistent.topology.inboundCount

/-- Building the unique rows where they are needed leaves the rest, and a view that is resolved. -/
theorem ensureUnique_eq (direction : TraversalDirection) : ∃ unique cached,
    ensureUnique (engine.profileOf direction).useUnique engine =
        (.ok (), { engine with uniqueAdjacency := unique, uniqueCacheBuilt := cached }) ∧
      Resolved (viewOf { engine with uniqueAdjacency := unique } direction)
        engine.config.queryFreshness engine.metadata.nodeCount := by
  have matched := consistent.topology
  obtain ⟨unique, ran, rows⟩ := UniqueAdjacency.fromTopology_rows matched.outward matched.inward
    (matched.forwardCount.trans matched.inboundCount.symm)
  -- The view is resolved whenever the unique rows are those of the topology or not read.
  have resolved {held : UniqueAdjacency}
      (exactly : (engine.profileOf direction).useUnique = true → held = unique) :
      Resolved (viewOf { engine with uniqueAdjacency := held } direction)
        engine.config.queryFreshness engine.metadata.nodeCount := {
    outward := matched.outward
    inward := matched.inward
    forwardCount := matched.forwardCount
    inboundCount := matched.inboundCount
    count := rfl
    indexed := consistent.indexed
    useUnique := rfl
    mergeOverlay := rfl
    checkNodes := rfl
    unique := fun needed node inside => by
      have same := exactly needed
      subst same
      exact rows node (by rw [matched.forwardCount]; exact inside) }
  unfold ensureUnique
  rw [bind_apply, Mutation.read]
  simp only
  split
  · -- The rows are built now.
    rw [ran]
    exact ⟨unique, true, rfl, resolved fun _ => rfl⟩
  · rename_i present
    refine ⟨engine.uniqueAdjacency, engine.uniqueCacheBuilt, rfl, resolved fun needed => ?_⟩
    have cached : engine.uniqueCacheBuilt = true := by
      by_contra absent
      exact present ⟨needed, absent⟩
    exact Option.some.inj ((consistent.unique cached).symm.trans ran)

/-- A resolved query returns as many discovered nodes as its limit admits. -/
theorem runBfsMulti_eq (direction : TraversalDirection) (mode : TraverseMode) {resultLimit : Nat}
    (positive : 0 < resultLimit) (maxDepth : Option UInt32) {seeds : List UInt32}
    (visible : ∀ seed ∈ seeds, visibleNode engine.metadata.nodeCount engine.overlay seed = true) :
    ∃ after, runBfsMulti
        { nodeCount := engine.metadata.nodeCount
          profile := engine.profileOf direction
          mode, resultLimit, maxDepth, seeds
          checkNodes := engine.overlay.hasNodeTombstones } engine =
      (.ok (outcome mode (((listing (engine.referenceRow direction) (maxDepth.map UInt32.toNat) seeds
        engine.metadata.nodeCount.toNat).map Prod.fst).take resultLimit)), after) := by
  cases empty : seeds.isEmpty with
  | true =>
    -- No visible seed is left, so nothing is discovered.
    cases List.isEmpty_iff.mp empty
    rw [listing_nil, List.map_nil, List.take_nil]
    refine ⟨engine, ?_⟩
    cases mode <;> rfl
  | false =>
    obtain ⟨unique, cached, ran, resolved⟩ := consistent.ensureUnique_eq direction
    obtain ⟨graph, viewed, lawful, bound, contains, rows⟩ := resolved.topologyView direction
    have inRange {node : UInt32} (member : graph.containsElement node = true) :
        node < engine.metadata.nodeCount := by
      rw [contains] at member
      exact of_decide_eq_true (Bool.and_eq_true_iff.mp member).1
    have closed {node : UInt32} (member : graph.containsElement node = true) :
        ∀ next ∈ rowsAlong graph direction node, graph.containsElement next = true := by
      intro next inRow
      rw [rows node (inRange member)] at inRow
      rw [contains]
      exact (List.mem_filter.mp inRow).2
    have seeded : ∀ seed ∈ seeds, graph.containsElement seed = true := by
      rw [contains]
      exact visible
    obtain ⟨after, searched⟩ := searchAlong_eq lawful
      (by rw [bound]; exact engine.metadata.nodeCount.toNat_lt) closed seeded
      (by rw [bound, ← consistent.marks]) (by rw [bound, ← consistent.queue])
      { maxDepth, resultLimit, includeSeeds := true }
      { nodes := [], count := 0, collect := mode = .collect }
    -- The graph's rows are the reference rows on every node that the search meets.
    have alike : listing (rowsAlong graph direction) (maxDepth.map UInt32.toNat) seeds
        graph.elementBound = listing (engine.referenceRow direction) (maxDepth.map UInt32.toNat)
          seeds engine.metadata.nodeCount.toNat := by
      rw [bound]
      exact listing_congr seeded (fun node => closed) (fun node member => rows node (inRange member)) _
    have all (entries : List (UInt32 × Nat)) :
        Bfs.Bounded.shown { maxDepth, resultLimit, includeSeeds := true } entries = entries :=
      List.filter_eq_self.mpr fun _ _ => rfl
    have capped : Bfs.Bounded.cap { maxDepth, resultLimit, includeSeeds := true } = resultLimit :=
      Nat.max_eq_right positive
    have depth : Bfs.Bounded.depthLimit { maxDepth, resultLimit, includeSeeds := true } =
      maxDepth.map UInt32.toNat := rfl
    rw [all, capped, depth, alike, observed_eq] at searched
    refine ⟨_, (runBfsMulti_searched empty ran viewed searched).trans
      (Prod.ext (congrArg Except.ok ?_) rfl)⟩
    cases mode with
    | collect =>
      refine congrArg KernelOutcome.nodes ?_
      exact List.map_take
    | count =>
      refine congrArg KernelOutcome.count ?_
      rw [Nat.zero_add, ← List.map_take, List.length_map]

/-- A traversal from seeds in bounds returns the expected list, or its length. -/
theorem traverseCore_eq {seeds : List UInt32}
    (inBounds : ∀ seed ∈ seeds, seed < engine.metadata.nodeCount) (limits : TraverseLimits)
    (direction : TraversalDirection) (mode : TraverseMode) : ∃ after,
      traverseCore seeds limits direction mode engine = (.ok (outcome mode
        (engine.expected (engine.referenceRow direction) seeds limits)), after) := by
  have positive : 0 < min limits.resultLimit engine.config.traverseLimit.toNat := by
    have configured : engine.config.traverseLimit.toNat ≠ 0 := fun zero =>
      consistent.limit (UInt32.toNat_inj.mp zero)
    have := limits.resultLimit_pos
    omega
  have capped : EngineMutation.ofResult (limits.cappedBy engine.config) engine =
      (.ok { limits with
        resultLimit := min limits.resultLimit engine.config.traverseLimit.toNat
        resultLimit_pos := positive }, engine) := by
    refine EngineMutation.ofResult_ok.mpr ⟨?_, rfl⟩
    unfold TraverseLimits.cappedBy
    exact dif_pos positive
  have inside : (seeds.find? fun seed => seed ≥ engine.metadata.nodeCount) = none := by
    refine List.find?_eq_none.mpr fun seed member => ?_
    have below := inBounds seed member
    simpa using below
  unfold traverseCore
  rw [bind_apply, Mutation.read]
  simp only
  rw [bind_apply, capped]
  simp only
  rw [bind_apply, EngineMutation.ofResult_ok.mpr ⟨by
    unfold TraverseSession.ofEngine
    simp only
    rw [inside], rfl⟩]
  simp only
  have filtered : seeds.filter (seedVisible engine direction) =
      seeds.filter (visibleNode engine.metadata.nodeCount engine.overlay) :=
    congrArg (seeds.filter ·) (funext (consistent.seedVisible_eq direction))
  rw [filtered]
  exact consistent.runBfsMulti_eq direction mode positive limits.maxDepth
    fun seed member => (List.mem_filter.mp member).2

/-- A traversal from several seeds returns the expected list. -/
theorem traverseFromSeeds_eq {seeds : List UInt32}
    (inBounds : ∀ seed ∈ seeds, seed < engine.metadata.nodeCount) (limits : TraverseLimits)
    (direction : TraversalDirection) : (traverseFromSeeds seeds limits direction engine).1 =
      .ok (engine.expected (engine.referenceRow direction) seeds limits) := by
  obtain ⟨after, ran⟩ := consistent.traverseCore_eq inBounds limits direction .collect
  unfold traverseFromSeeds
  rw [bind_apply, ran]
  rfl

/-- A count returns the length of the expected list. -/
theorem visitedCount_eq {seed : UInt32} (inBounds : seed < engine.metadata.nodeCount)
    (limits : TraverseLimits) (direction : TraversalDirection) :
    (visitedCount seed limits direction engine).1 =
      .ok (engine.expected (engine.referenceRow direction) [seed] limits).length := by
  obtain ⟨after, ran⟩ := consistent.traverseCore_eq
    (fun other member => List.mem_singleton.mp member ▸ inBounds) limits direction .count
  unfold visitedCount
  rw [bind_apply, ran]
  rfl

end Consistent

/-- Whatever an engine has been through, its traversals return the expected lists. -/
theorem traversals_expected {backing : Bytes} {edits : List OverlayEdit} {config : Config}
    {engine : Engine}
    (built : EngineBuilder.build backing (OverlayEdit.all edits) config = pure engine)
    (ops : List EngineOp) (limits : TraverseLimits) (direction : TraversalDirection) :
    let current := ops.foldl EngineOp.run engine
    (∀ seeds : List UInt32, (∀ seed ∈ seeds, seed < current.metadata.nodeCount) →
      (traverseFromSeeds seeds limits direction current).1 =
        .ok (current.expected (current.referenceRow direction) seeds limits)) ∧
    ∀ seed < current.metadata.nodeCount,
      (traverse seed limits direction current).1 =
          .ok (current.expected (current.referenceRow direction) [seed] limits) ∧
        (visitedCount seed limits direction current).1 =
          .ok (current.expected (current.referenceRow direction) [seed] limits).length := by
  intro current
  have consistent : current.Consistent := history_consistent built ops
  refine ⟨fun seeds inBounds => consistent.traverseFromSeeds_eq inBounds limits direction, ?_⟩
  intro seed inBounds
  refine ⟨consistent.traverseFromSeeds_eq ?_ limits direction,
    consistent.visitedCount_eq inBounds limits direction⟩
  intro other member
  rw [List.mem_singleton.mp member]
  exact inBounds

/-- The artifact of one edge between two nodes, with a copy of the forward rows as its index. -/
def crossed : Fallible PostgresGraphError Bytes := do
  let builder ← DualTopologySnapshot.addNodes 2 .new
  let builder ← DualTopologySnapshot.addEdges builder [(0, 1)]
  let frozen ← builder.freeze.adapt fun error => .build (.graph error)
  let forward ← .ofResult
    ((exportCsrSnapshot (fun _ _ => 0) frozen).mapError fun error => .build (.graph error))
  .ofResult (attachPostgresSections (fun _ _ => 0) forward (some forward)
    (PostgresMetadata.new 2 1 0 true).withReverseIndex)

/-- Five results at any depth. -/
def fiveResults : TraverseLimits :=
  { resultLimit := 5, resultLimit_pos := by decide, maxDepth := none
    maxDepth_pos := fun _ bounded => (nomatch bounded) }

/-- An accepted index may hold predecessors that no forward edge joins. -/
theorem traversals_not_joined : ¬ ∀ (backing : Bytes) (edits : List OverlayEdit) (config : Config)
    (engine : Engine),
    EngineBuilder.build backing (OverlayEdit.all edits) config = pure engine →
      ∀ (limits : TraverseLimits) (direction : TraversalDirection) (seeds : List UInt32),
        (∀ seed ∈ seeds, seed < engine.metadata.nodeCount) →
          (traverseFromSeeds seeds limits direction engine).1 =
            .ok (engine.expected (engine.joinedRow direction) seeds limits) := by
  intro always
  have ran : (crossed >>= fun bytes => EngineBuilder.build bytes .default .default).returns
      (fun engine => decide (0 < engine.metadata.nodeCount ∧
        (traverseFromSeeds [0] fiveResults .in engine).1.toOption = some [0, 1] ∧
        engine.expected (engine.joinedRow .in) [0] fiveResults = [0])) = true := by
    decide +kernel
  obtain ⟨engine, made, facts⟩ := Fallible.exists_of_returns ran
  obtain ⟨bytes, _, built⟩ := Fallible.bind_eq_pure.mp made
  obtain ⟨inBounds, returned, joined⟩ := of_decide_eq_true facts
  have claimed := always bytes [] .default engine built fiveResults .in [0]
    (fun seed member => List.mem_singleton.mp member ▸ inBounds)
  rw [claimed, joined] at returned
  exact absurd (Option.some.inj returned) (by decide)

/-- An overlay edge is followed again once the configuration is back at its default. -/
theorem traversals_expected_overlay : ∃ engine : Engine,
    (traverseFromSeeds [0] fiveResults .out ([EngineOp.setConfig
      { Config.default with queryFreshness := .baseOnly }, .visitedCount 0 fiveResults .in,
      .setConfig .default].foldl EngineOp.run engine)).1 = .ok [0, 1, 2] := by
  have ran : (DualTopologySnapshot.fromDenseU32EdgesWithNodeCount (fun _ _ => 0) 3 [(0, 1)] 0 >>=
      fun bytes => EngineBuilder.build bytes (OverlayEdit.all [.pushEdge ⟨1, 2⟩]) .default).returns
      (fun engine =>
        let current := [EngineOp.setConfig { Config.default with queryFreshness := .baseOnly },
          .visitedCount 0 fiveResults .in, .setConfig .default].foldl EngineOp.run engine
        decide (0 < current.metadata.nodeCount ∧
          current.expected (current.referenceRow .out) [0] fiveResults = [0, 1, 2])) = true := by
    decide +kernel
  obtain ⟨engine, made, facts⟩ := Fallible.exists_of_returns ran
  obtain ⟨bytes, _, built⟩ := Fallible.bind_eq_pure.mp made
  obtain ⟨inBounds, list⟩ := of_decide_eq_true facts
  refine ⟨engine, ?_⟩
  rw [(traversals_expected built _ fiveResults .out).1 [0]
    (fun seed member => List.mem_singleton.mp member ▸ inBounds), list]

end Engine

end Oxgraph.Postgres
