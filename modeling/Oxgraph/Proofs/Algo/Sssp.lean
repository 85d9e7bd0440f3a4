import Oxgraph.Algo.Sssp
import Oxgraph.Proofs.Algo.Induced

/-! Shortest path lengths are the breadth-first listing of the induced rows. -/

namespace Oxgraph

namespace ShortestPaths

variable {Id : Type} [DecidableEq Id] {graph : TopologyView Id} {elements : List Id}

/-- The queue holds the listed entries that have not been taken, and the marks all listed nodes. -/
structure Tracks (graph : TopologyView Id) (elements : List Id) (taken : Nat)
    (entries : List (Id × Nat)) (paths : ShortestPaths Id) : Prop where
  requested : ∀ entry ∈ entries, graph.Requested elements entry.1
  visited : graph.Holds elements paths.visited
    fun element => decide (element ∈ entries.map Prod.fst)
  queue : paths.queue = entries.drop taken

variable {member : List Bool} (apart : graph.TellsApart elements)
  (marked : graph.Holds elements member fun element => decide (element ∈ graph.nodes elements))

include apart marked

variable {paths : ShortestPaths Id}

/-- Relaxing successors enters those that are members. -/
theorem Tracks.relax {taken : Nat} {entries : List (Id × Nat)}
    (tracks : Tracks graph elements taken entries paths) (inside : taken ≤ entries.length)
    {node : Id} (requested : graph.Requested elements node) (distance : Nat)
    {successors : List Id}
    (reached : ∀ successor ∈ successors, successor ∈ graph.elementSuccessors node) :
    Tracks graph elements taken
      (((successors.filter (graph.isMember member)).map fun successor =>
        (successor, distance + 1)).foldl enter entries)
      (successors.foldl (ShortestPaths.relax graph member distance) paths) := by
  induction successors generalizing entries paths with
  | nil => exact tracks
  | cons successor rest ih =>
    obtain ⟨own, others⟩ := List.forall_mem_cons.mp reached
    have tells := TopologyView.isMember_successor marked requested own
    rw [List.foldl_cons, List.filter_cons, ShortestPaths.relax]
    by_cases asked : successor ∈ graph.nodes elements
    · have known := TopologyView.mem_nodes.mp asked
      rw [tells, decide_eq_true asked, if_pos rfl, List.map_cons, List.foldl_cons, enter,
        tracks.visited successor known.meets]
      by_cases listed : successor ∈ entries.map Prod.fst
      · rw [if_pos listed, if_neg (by simp [listed])]
        exact ih tracks inside others
      · rw [if_neg listed, if_pos (by simp [listed])]
        refine ih ⟨?_, ?_, ?_⟩ (by rw [List.length_append]; omega) others
        · intro entry member
          rcases List.mem_append.mp member with old | new
          · exact tracks.requested entry old
          · rw [List.mem_singleton.mp new]
            exact known
        · rw [List.map_append]
          exact tracks.visited.mark apart known.meets
        · rw [List.drop_append_of_le_length inside, tracks.queue]
    · rw [tells, decide_eq_false asked, if_neg Bool.false_ne_true, if_neg (by simp)]
      exact ih tracks inside others

omit marked in
/-- No more entries are listed than there are indexes. -/
theorem Tracks.length_le {source : Id} {taken : Nat} (tracks : Tracks graph elements taken
      (listing (graph.inducedRow elements) none [source] taken) paths) :
    (listing (graph.inducedRow elements) none [source] taken).length ≤ graph.elementBound := by
  have part : (listing (graph.inducedRow elements) none [source] taken).map Prod.fst ⊆
      graph.nodes elements := by
    intro node member
    obtain ⟨entry, inside, rfl⟩ := List.mem_map.mp member
    exact TopologyView.mem_nodes.mpr (tracks.requested entry inside)
  have count := ((nodup_listing taken).subperm part).length_le
  rw [List.length_map] at count
  exact Nat.le_trans count (TopologyView.length_nodes_le apart)

/-- Taking an entry from the queue and relaxing its successors is one more step of the listing. -/
theorem Tracks.next {source node : Id} {taken distance : Nat} {queue : List (Id × Nat)}
    (tracks : Tracks graph elements taken
      (listing (graph.inducedRow elements) none [source] taken) paths)
    (here : listed (graph.inducedRow elements) none [source] taken = some (node, distance))
    (rest : queue = (listing (graph.inducedRow elements) none [source] taken).drop (taken + 1)) :
    Tracks graph elements (taken + 1)
      (listing (graph.inducedRow elements) none [source] (taken + 1))
      ((graph.elementSuccessors node).foldl (ShortestPaths.relax graph member distance)
        { paths with queue }) := by
  have requested := tracks.requested _ (List.mem_of_getElem? here)
  obtain ⟨below, _⟩ := List.getElem?_eq_some_iff.mp here
  have before : Tracks graph elements (taken + 1)
      (listing (graph.inducedRow elements) none [source] taken) { paths with queue } :=
    ⟨tracks.requested, tracks.visited, rest⟩
  have relaxed := before.relax apart marked below requested distance fun _ reached => reached
  rw [TopologyView.filter_isMember marked requested] at relaxed
  rw [listing_succ here]
  exact relaxed

/-- Draining the queue takes every entry that is listed. -/
theorem Tracks.drain {source : Id} {taken fuel : Nat} (tracks : Tracks graph elements taken
      (listing (graph.inducedRow elements) none [source] taken) paths)
    (inside : taken ≤ (listing (graph.inducedRow elements) none [source] taken).length)
    (enough : graph.elementBound < taken + fuel) :
    ShortestPaths.drain graph member fuel paths
        ((listing (graph.inducedRow elements) none [source] taken).take taken) =
      some (listing (graph.inducedRow elements) none [source] graph.elementBound) := by
  have fits := tracks.length_le apart
  induction fuel generalizing taken paths with
  | zero => omega
  | succ fuel ih =>
    unfold ShortestPaths.drain
    have queued := tracks.queue
    cases left : paths.queue with
    | nil =>
      -- Every listed entry has been taken, so that the listing is complete.
      rw [left] at queued
      have past := List.drop_eq_nil_iff.mp queued.symm
      have ended : listed (graph.inducedRow elements) none [source] taken = none :=
        List.getElem?_eq_none past
      obtain ⟨more, same⟩ := Nat.exists_eq_add_of_le (Nat.le_trans inside fits)
      dsimp only
      rw [List.take_of_length_le past, same, listing_ended ended]
    | cons entry queue =>
      obtain ⟨node, distance⟩ := entry
      rw [left] at queued
      have here : listed (graph.inducedRow elements) none [source] taken =
          some (node, distance) := by
        unfold listed
        rw [← List.head?_drop, ← queued]
        rfl
      have rest : queue =
          (listing (graph.inducedRow elements) none [source] taken).drop (taken + 1) := by
        rw [← List.tail_drop, ← queued]
        rfl
      have next := tracks.next apart marked here rest
      obtain ⟨added, grown⟩ : listing (graph.inducedRow elements) none [source] taken <+:
          listing (graph.inducedRow elements) none [source] (taken + 1) :=
        listing_isPrefix (Nat.le_succ taken)
      obtain ⟨below, same⟩ := List.getElem?_eq_some_iff.mp here
      have taking : (listing (graph.inducedRow elements) none [source] taken).take taken ++
          [(node, distance)] =
            (listing (graph.inducedRow elements) none [source] (taken + 1)).take (taken + 1) := by
        rw [← grown, List.take_append_of_le_length below, List.take_succ_eq_append_getElem below,
          same]
      dsimp only
      rw [taking]
      refine ih next ?_ (by omega) (next.length_le apart)
      rw [← grown, List.length_append]
      omega

end ShortestPaths

/-- Shortest path lengths are the listing of the induced rows from a requested source. -/
theorem shortestPathLengths_eq {Id : Type} [DecidableEq Id] {graph : TopologyView Id}
    {elements : List Id} (apart : graph.TellsApart elements) {source : Id}
    (requested : graph.Requested elements source) :
    shortestPathLengths graph source elements =
      some (listing (graph.inducedRow elements) none [source] graph.elementBound) := by
  have marked := TopologyView.markMembers_spec apart
  have member : graph.isMember (markMembers graph elements) source = true := by
    rw [TopologyView.isMember_eq marked fun _ => requested.meets]
    exact decide_eq_true (TopologyView.mem_nodes.mpr requested)
  unfold shortestPathLengths
  rw [if_pos member]
  have single : listing (graph.inducedRow elements) none [source] 0 = [(source, 0)] := rfl
  have begins : ShortestPaths.Tracks graph elements 0
      (listing (graph.inducedRow elements) none [source] 0)
      { visited := (List.replicate graph.elementBound false).set (graph.elementIndex source) true
        queue := [(source, 0)] } := by
    refine ⟨?_, ?_, single⟩
    · intro entry inside
      rw [single] at inside
      rw [List.mem_singleton.mp inside]
      exact requested
    · rw [single]
      have blank : graph.Holds elements (List.replicate graph.elementBound false)
          fun element => decide (element ∈ ([] : List Id)) := by
        simpa using TopologyView.Holds.replicate graph elements false
      exact blank.mark apart requested.meets
  exact begins.drain apart marked (Nat.zero_le _) (by omega)

end Oxgraph
