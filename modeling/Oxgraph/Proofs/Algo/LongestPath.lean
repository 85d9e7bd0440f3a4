import Oxgraph.Algo.Toposort
import Oxgraph.Lib.LongestWay
import Oxgraph.Proofs.Algo.Toposort

/-! The longest path is found by relaxing the rows in topological order. -/

namespace Oxgraph

namespace LongestPath

open Relaxation

variable {Id : Type} [DecidableEq Id] {graph : TopologyView Id} {elements : List Id}

/-- The slots by index are those of a run over the rows in bound. -/
structure Tracks (graph : TopologyView Id) (elements : List Id) (state : LongestPath Id)
    (relaxed : Relaxed Id) : Prop where
  lengths : graph.Holds elements state.lengths relaxed.lengths
  predecessor : graph.Holds elements state.predecessor relaxed.predecessor
  bestEnd : state.bestEnd = relaxed.bestEnd
  bestLength : state.bestLength = relaxed.bestLength

variable {state : LongestPath Id} {relaxed : Relaxed Id}

/-- Relaxing a successor in bound relaxes it in the run. -/
theorem Tracks.relax (apart : graph.TellsApart elements) {successor : Id}
    (meets : graph.Meets elements successor) (node : Id) (length : Nat)
    (tracks : Tracks graph elements state relaxed) : ∃ next,
      relax graph node length state successor = some next ∧
        Tracks graph elements next (relaxed.relax node length successor) := by
  have reads : LongestPath.relax graph node length state successor =
      if relaxed.lengths successor < length + 1 then some
        { state with
          lengths := state.lengths.set (graph.elementIndex successor) (length + 1)
          predecessor := state.predecessor.set (graph.elementIndex successor) (some node) }
      else some state := by
    unfold LongestPath.relax
    dsimp only
    rw [if_pos meets.1, tracks.lengths successor meets]
    rfl
  rw [reads]
  unfold Relaxed.relax
  -- Both take the same branch, since the slot holds the length.
  by_cases shorter : relaxed.lengths successor < length + 1
  · rw [if_pos shorter, if_pos shorter]
    exact ⟨_, rfl, tracks.lengths.set apart meets _, tracks.predecessor.set apart meets _,
      tracks.bestEnd, tracks.bestLength⟩
  · rw [if_neg shorter, if_neg shorter]
    exact ⟨state, rfl, tracks⟩

end LongestPath

variable {Id : Type} [DecidableEq Id] {graph : TopologyView Id} {elements : List Id}

end Oxgraph
