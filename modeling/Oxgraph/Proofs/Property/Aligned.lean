import Oxgraph.Proofs.Property.Exports
import Oxgraph.Proofs.Property.Layer

/-! Exporting a frozen graph or hypergraph keeps its property layers aligned with its topology. -/

namespace Oxgraph.Property

open Layout

section

variable {Id T U : Type} [DecidableEq T] {ipc : ArrowIpc T U} {arrow : ArrowSelect T U}
  (inverse : ipc.Inverse) (selects : arrow.Positional) (checksum : Container.Checksum32)
include inverse selects

section

variable {N E : Type} [PropertyIndex N] [PropertyIndex E] [LayerId Id E]
  {layers : GraphPropertyLayers Id N E T U}

/-- A frozen graph, or its transpose, is exported with its layers aligned. -/
theorem exportCsr_aligned {graph : Csr.FrozenGraph N E} (made : graph.Made)
    (suits : Csr.ExportsWith ipc arrow graph.topology layers) :
    Csr.ExportsAligned checksum ipc graph.topology layers
      (Csr.exportCsrSnapshotWithProperties checksum ipc arrow graph layers) := by
  obtain ⟨edges, groups⟩ := made.groups
  obtain ⟨encoded, encodes, aligned⟩ := groups.grouped.exportsAligned groups.memory groups.fits
    inverse selects suits checksum
  rw [Csr.exportCsrSnapshotWithProperties, encodes]
  exact aligned

/-- A frozen weighted graph is exported with its layers aligned. -/
theorem exportWeightedCsr_aligned {EW RW : Type} {additions : List (Csr.Addition N EW RW)}
    {builder : Csr.WeightedGraphBuilder N E EW RW} {graph : Csr.FrozenWeightedGraph N E EW RW}
    (ran : Fallible.runAll Csr.WeightedGraphBuilder.add additions .new = some builder)
    (frozen : builder.freeze = pure graph)
    (suits : Csr.ExportsWith ipc arrow graph.topology layers) :
    Csr.ExportsAligned checksum ipc graph.topology layers
      (Csr.exportWeightedCsrSnapshotWithProperties checksum ipc arrow graph layers) := by
  obtain ⟨topology, built, same⟩ := Fallible.bind_eq_pure.mp frozen
  rw [← Fallible.pure_eq_pure.mp same] at suits ⊢
  obtain ⟨memory, fits, -, grouped⟩ :=
    (Csr.WeightedGraphBuilder.keeps.runAll Csr.recorded_empty ran).grouped_of_freeze built
  obtain ⟨encoded, encodes, aligned⟩ := grouped.exportsAligned memory fits inverse selects suits
    checksum
  rw [Csr.exportWeightedCsrSnapshotWithProperties, encodes]
  exact aligned

end

section

variable {V R O : Type} [PropertyIndex V] [PropertyIndex R] [PropertyIndex O] [LayerId Id O]
  {layers : HyperPropertyLayers Id V R O T U}

/-- A frozen hypergraph is exported with its layers aligned. -/
theorem exportBcsr_aligned {builder : Bcsr.HypergraphBuilder V R O}
    {graph : Bcsr.FrozenHypergraph V R O} (frozen : builder.freeze = pure graph)
    (suits : Bcsr.ExportsWith ipc arrow graph.topology layers) :
    Bcsr.ExportsAligned checksum ipc graph.topology layers
      (Bcsr.exportBcsrSnapshotWithProperties checksum ipc arrow graph layers) := by
  obtain ⟨_, built, validated⟩ := Bcsr.HypergraphBuilder.freeze_eq_pure.mp frozen
  obtain ⟨encoded, encodes, aligned⟩ := (Bcsr.frozen_of_built built validated).exportsAligned
    inverse selects suits checksum
  rw [Bcsr.exportBcsrSnapshotWithProperties, encodes]
  exact aligned

/-- A frozen weighted hypergraph is exported with its layers aligned. -/
theorem exportWeightedBcsr_aligned {EW RW IW : Type}
    {builder : Bcsr.WeightedHypergraphBuilder V R O EW RW IW}
    {graph : Bcsr.FrozenWeightedHypergraph V R O EW RW IW} (frozen : builder.freeze = pure graph)
    (suits : Bcsr.ExportsWith ipc arrow graph.topology layers) :
    Bcsr.ExportsAligned checksum ipc graph.topology layers
      (Bcsr.exportWeightedBcsrSnapshotWithProperties checksum ipc arrow graph layers) := by
  obtain ⟨built, validated, _⟩ := Bcsr.WeightedHypergraphBuilder.freeze_eq_pure.mp frozen
  obtain ⟨encoded, encodes, aligned⟩ := (Bcsr.frozen_of_built built validated).exportsAligned
    inverse selects suits checksum
  rw [Bcsr.exportWeightedBcsrSnapshotWithProperties, encodes]
  exact aligned

end

end

/--
Every frozen graph and hypergraph is exported with layers that suit it, and reopens with them.

The layers are decoded in the order of the topology: each position holds what the source layer holds
at the canonical ID there. The topology of a graph opens when the node width can count its nodes.
-/
theorem exports_keep_layers_aligned :
    (∀ (N E Id T U : Type) [PropertyIndex N] [PropertyIndex E] [DecidableEq T] [LayerId Id E]
      (ipc : ArrowIpc T U) (arrow : ArrowSelect T U), ipc.Inverse → arrow.Positional →
      ∀ (checksum : Container.Checksum32) (layers : GraphPropertyLayers Id N E T U),
      (∀ graph : Csr.FrozenGraph N E, graph.Made →
        Csr.ExportsWith ipc arrow graph.topology layers →
          Csr.ExportsAligned checksum ipc graph.topology layers
            (Csr.exportCsrSnapshotWithProperties checksum ipc arrow graph layers)) ∧
      ∀ (EW RW : Type) (additions : List (Csr.Addition N EW RW))
        (builder : Csr.WeightedGraphBuilder N E EW RW) (graph : Csr.FrozenWeightedGraph N E EW RW),
        Fallible.runAll Csr.WeightedGraphBuilder.add additions .new = some builder →
        builder.freeze = pure graph → Csr.ExportsWith ipc arrow graph.topology layers →
          Csr.ExportsAligned checksum ipc graph.topology layers
            (Csr.exportWeightedCsrSnapshotWithProperties checksum ipc arrow graph layers)) ∧
    (∀ (V R O Id T U : Type) [PropertyIndex V] [PropertyIndex R] [PropertyIndex O] [DecidableEq T]
      [LayerId Id O] (ipc : ArrowIpc T U) (arrow : ArrowSelect T U),
      ipc.Inverse → arrow.Positional →
      ∀ (checksum : Container.Checksum32) (layers : HyperPropertyLayers Id V R O T U),
      (∀ (builder : Bcsr.HypergraphBuilder V R O) (graph : Bcsr.FrozenHypergraph V R O),
        builder.freeze = pure graph → Bcsr.ExportsWith ipc arrow graph.topology layers →
          Bcsr.ExportsAligned checksum ipc graph.topology layers
            (Bcsr.exportBcsrSnapshotWithProperties checksum ipc arrow graph layers)) ∧
      ∀ (EW RW IW : Type) (builder : Bcsr.WeightedHypergraphBuilder V R O EW RW IW)
        (graph : Bcsr.FrozenWeightedHypergraph V R O EW RW IW),
        builder.freeze = pure graph → Bcsr.ExportsWith ipc arrow graph.topology layers →
          Bcsr.ExportsAligned checksum ipc graph.topology layers
            (Bcsr.exportWeightedBcsrSnapshotWithProperties checksum ipc arrow graph layers)) := by
  refine ⟨?_, ?_⟩
  · intro N E Id T U _ _ _ _ ipc arrow inverse selects checksum layers
    exact ⟨fun graph made => exportCsr_aligned inverse selects checksum made,
      fun EW RW additions builder graph ran frozen =>
        exportWeightedCsr_aligned inverse selects checksum ran frozen⟩
  · intro V R O Id T U _ _ _ _ _ ipc arrow inverse selects checksum layers
    exact ⟨fun builder graph frozen => exportBcsr_aligned inverse selects checksum frozen,
      fun EW RW IW builder graph frozen =>
        exportWeightedBcsr_aligned inverse selects checksum frozen⟩

/-- Weights of three edges. -/
def weightsOfEdges (first second third : UInt32) : PropertyLayer UInt64 UInt16 Unit Unit where
  descriptor :=
    { layerId := 7, name := weightName, idFamily := .relation, role := .weight
      storage := .dense
      arrowField := { name := "weight", dataType := .uint32, nullable := false } }
  len := 3
  data := .dense (.uint32 ⟨[⟨first, false⟩, ⟨second, false⟩, ⟨third, false⟩]⟩)
  checked := { storage := rfl, type := rfl, nulls := fun _ => rfl, len := rfl }

/-- Three nodes, with an edge from the first to the last and two parallel ones behind it. -/
def someGraph : Csr.FrozenGraph UInt16 UInt16 :=
  ⟨⟨3, [0, 1, 1, 3], [1, 0, 2], [2, 1, 1], [2, 0, 2], [1, 2, 1]⟩⟩

/-- The weights can be exported with the graph. -/
theorem exportsWith_weights : Csr.ExportsWith ArrowIpc.plain .present someGraph.topology
    (⟨[], [weightsOfEdges 1 2 3]⟩ : GraphPropertyLayers UInt64 UInt16 UInt16 Unit Unit) where
  exportable := { ids := by decide, names := by decide, family := by decide, len := by decide }
  nodes := by decide
  invertible := List.forall_mem_singleton.mpr (.inl ⟨_, rfl⟩)
  representable relation rekeyed := by
    -- The second edge comes first.
    have stored : ([weightsOfEdges 1 2 3].mapM fun layer =>
        rekeyLayerToLocal .present layer someGraph.topology.edgeIds) =
          pure [weightsOfEdges 2 1 3] := rfl
    have same := Fallible.pure_eq_pure.mp (stored.symm.trans rekeyed)
    subst same
    refine ⟨⟨⟨?_, ?_, ?_, ?_, ?_, ?_, ?_, ?_, ?_⟩, trivial⟩, ?_⟩ <;> decide

/-- The weights reopen in the order of the stored edges. -/
theorem exports_keep_weights_aligned : ∃ bytes snapshot decoded,
    Csr.exportCsrSnapshotWithProperties (fun seed _ => seed) ArrowIpc.plain .present someGraph
        (⟨[], [weightsOfEdges 1 2 3]⟩ : GraphPropertyLayers UInt64 UInt16 UInt16 Unit Unit) =
      pure bytes ∧ Container.Snapshot.openBytes bytes = .ok snapshot ∧
    DecodedPropertyLayer.decodeAll UInt16 snapshot ArrowIpc.plain = pure decoded ∧
    decoded.map (fun layer => [layer.value 0, layer.value 1, layer.value 2]) =
      [[some (.uint32 2), some (.uint32 1), some (.uint32 3)]] := by
  have ran : Fallible.runAll Csr.GraphBuilder.add Csr.someAdditions .new =
      some Csr.someBuilder := by rfl
  have frozen : Csr.someBuilder.freeze = pure someGraph := by rfl
  obtain ⟨bytes, snapshot, graph, exported, opened, -, -, holds⟩ :=
    (exports_keep_layers_aligned.1 UInt16 UInt16 UInt64 Unit Unit .plain .present
      ArrowIpc.inverse_plain ArrowSelect.positional_present (fun seed _ => seed) _).1 someGraph
        (.frozen ran frozen) exportsWith_weights
  obtain ⟨decoded, decodes, aligned⟩ := holds.keeps.aligned (by decide)
  refine ⟨bytes, snapshot, decoded, exported, opened, decodes, ?_⟩
  -- There is one layer, whose positions are those of the edges 1, 0 and 2.
  obtain _ | ⟨own, others⟩ := aligned
  cases others
  rw [List.map_cons, List.map_nil, own.value 0 1 rfl, own.value 1 0 rfl, own.value 2 2 rfl]
  rfl

-- A node width that cannot count the nodes.

/-- Nodes that the width can number are all added. -/
theorem runAll_nodes {N E : Type} [LayoutIndex N] [LayoutIndex E] (count : Nat)
    {builder : Csr.GraphBuilder N E} (fits : builder.nodeCount + count ≤ LayoutIndex.bound N)
    (counted : builder.nodeCount + count < usizeBound) :
    Fallible.runAll Csr.GraphBuilder.add
        (List.replicate count (.node ()) : List (Csr.Addition N Unit Unit)) builder =
      some { builder with nodeCount := builder.nodeCount + count } := by
  induction count generalizing builder with
  | zero => rfl
  | succ count ih =>
    have next : (nextDenseIndex builder.nodeCount : Except Nat (N × Nat)) =
        .ok (LayoutIndex.ofNat builder.nodeCount, builder.nodeCount + 1) :=
      nextDenseIndex_eq_ok.mpr ⟨LayoutIndex.toNat_ofNat _ (by omega), rfl, by omega⟩
    have added : (builder.add (.node () : Csr.Addition N Unit Unit)).run =
        some (.ok { builder with nodeCount := builder.nodeCount + 1 }) := by
      rw [Csr.GraphBuilder.add, Csr.GraphBuilder.addNode, next]
      rfl
    have rest := @ih { builder with nodeCount := builder.nodeCount + 1 } (by dsimp only; omega)
      (by dsimp only; omega)
    rw [List.replicate_succ, Fallible.runAll, added]
    dsimp only at rest ⊢
    rw [rest, Nat.add_assoc, Nat.add_comm 1]

/-- No layers suit every graph whose nodes the edge width can count, and its file the memory. -/
theorem exportsWith_nil {N E : Type} [PropertyIndex N] [PropertyIndex E]
    {topology : Csr.FrozenTopology N E} (nodes : topology.nodeCount < LayoutIndex.bound E)
    (addressed : Csr.otherLen topology + FixedLayout.size PropertySnapshotHeader < usizeBound) :
    Csr.ExportsWith ArrowIpc.plain .present topology
      (⟨[], []⟩ : GraphPropertyLayers UInt64 N E Unit Unit) where
  exportable :=
    { ids := List.nodup_nil
      names := List.nodup_nil
      family := List.forall_mem_nil _
      len := List.forall_mem_nil _ }
  nodes := nodes
  invertible := List.forall_mem_nil _
  representable relation rekeyed := by
    have none : relation = [] := by
      simp only [List.mapM_nil] at rekeyed
      exact (Fallible.pure_eq_pure.mp rekeyed).symm
    subst none
    refine ⟨trivial, ?_⟩
    simp only [sectionsLen, List.map_nil, List.append_nil, List.length_nil, List.sum_nil,
      Nat.zero_mul, Nat.add_zero]
    exact addressed

/-- A file does not open as a topology where the node width cannot count the nodes. -/
theorem not_forall_exported_opens :
    ¬∀ graph : Csr.FrozenGraph UInt16 UInt32, graph.Made →
      ∀ layers : GraphPropertyLayers UInt64 UInt16 UInt32 Unit Unit,
        Csr.ExportsWith ArrowIpc.plain .present graph.topology layers →
          ∃ bytes snapshot, ∃ view : Csr.CsrGraph UInt16 UInt32,
            Csr.exportCsrSnapshotWithProperties (fun seed _ => seed) ArrowIpc.plain .present graph
              layers = pure bytes ∧
            Container.Snapshot.openBytes bytes = .ok snapshot ∧
            Csr.fromSnapshot snapshot = pure view := by
  intro always
  -- All 65536 values of the node width are nodes, and there is no edge.
  have ran := @runAll_nodes UInt16 UInt32 _ _ 65536 .new (by decide) (by decide)
  have recorded := Csr.GraphBuilder.keeps.runAll Csr.recorded_empty ran
  have freezes := Csr.GraphBuilder.freezesAs recorded
  have nodes : 65536 = _ := recorded.nodes
  have edges : _ = 0 := recorded.length_edges
  obtain ⟨graph, frozen⟩ := (freezes.returns (by rw [← nodes]; decide) (by rw [edges]; decide)).mpr
    (by rw [edges]; decide)
  obtain ⟨topology, built, same⟩ := Fallible.bind_eq_pure.mp frozen
  obtain ⟨-, -, -, grouped⟩ := recorded.grouped_of_freeze built
  rw [← Fallible.pure_eq_pure.mp same] at frozen
  have counted : topology.nodeCount = 65536 := grouped.nodes.trans nodes.symm
  have offsets : topology.offsets.length = 65537 := by
    rw [← @List.length_map _ _ _ Layout.toNat, grouped.edges.length_offsets, Csr.Digraph.length_rows,
      ← nodes]
  have targets : topology.targets.length = 0 := grouped.length_targets.trans edges
  have edgeIds : topology.edgeIds.length = 0 := by
    have same := grouped.permutes.length_eq
    rwa [List.length_map, List.length_range, edges] at same
  have suits : Csr.ExportsWith ArrowIpc.plain .present topology
      (⟨[], []⟩ : GraphPropertyLayers UInt64 UInt16 UInt32 Unit Unit) := by
    refine exportsWith_nil (by rw [counted]; decide) ?_
    rw [Csr.otherLen, length_arrayBytes, length_arrayBytes, length_arrayBytes, offsets, targets,
      edgeIds]
    decide
  obtain ⟨bytes, snapshot, view, exported, opened, viewed⟩ :=
    always ⟨topology⟩ (.frozen ran frozen) _ suits
  obtain ⟨_, other, _, exportedToo, openedToo, -, -, holds⟩ := exportCsr_aligned
    ArrowIpc.inverse_plain ArrowSelect.positional_present (fun seed _ => seed)
    (.frozen ran frozen) suits
  cases exported.symm.trans exportedToo
  cases opened.symm.trans openedToo
  have small := holds.opens.mp ⟨view, viewed⟩
  rw [show (⟨topology⟩ : Csr.FrozenGraph UInt16 UInt32).topology = topology from rfl,
    counted] at small
  exact absurd small (by decide)

end Oxgraph.Property
