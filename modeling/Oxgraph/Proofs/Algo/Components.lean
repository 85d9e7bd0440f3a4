import Oxgraph.Lib.Words
import Oxgraph.Proofs.Algo.History
import Oxgraph.Proofs.Algo.UnionFind

/-! The components that union-find groups are the weakly connected components. -/

namespace Oxgraph

open Mutation (bind_apply)
open Relation (ReflTransGen)

namespace UnionFind

open DisjointSets

section Runs

variable {bound : Nat} {state : UnionFind} {root : Nat → Nat}

/-- A slot that is there is read. -/
theorem slot_eq {T : Type} {slots : UnionFind → List T} {index : Nat} {value : T}
    (read : (slots state)[index]? = some value) : slot slots index state = (.ok value, state) := by
  unfold slot
  rw [bind_apply, Mutation.read]
  dsimp only
  rw [read]
  rfl

/-- A find returns the root, by writes that keep it, in fewer rounds than there are ranks. -/
theorem findIn_spec {rounds cursor : Nat} (holds : Represents bound state root)
    (inside : cursor < bound) (enough : 255 < state.height cursor + rounds) : ∃ after,
      findIn rounds cursor state = (.ok (root cursor), after) ∧
        ReflTransGen Write state after ∧ Represents bound after root := by
  induction rounds generalizing state cursor with
  | zero =>
    obtain ⟨rank, _, same⟩ := holds.rank_eq inside
    have := rank.toNat_lt
    omega
  | succ rounds ih =>
    unfold findIn
    have read := holds.parent_eq inside
    rw [bind_apply, slot_eq read]
    dsimp only
    have member := Finset.mem_range.mpr inside
    by_cases still : state.up cursor = cursor
    · rw [if_pos still, holds.forest.atRoot cursor member still]
      exact ⟨state, rfl, .refl, holds⟩
    · rw [if_neg still]
      have aboveIn := holds.forest.inside cursor member
      have nextIn := holds.forest.inside _ aboveIn
      have readAbove := holds.parent_eq (Finset.mem_range.mp aboveIn)
      have ascends := holds.forest.ascends cursor member still
      have halved := holds.halve inside
      rw [bind_apply, slot_eq readAbove]
      dsimp only
      rw [bind_apply, Mutation.modify_apply]
      dsimp only
      -- The next cursor has a higher rank than the one before.
      have higher : state.height cursor < state.height (state.up (state.up cursor)) := by
        by_cases top : state.up (state.up cursor) = state.up cursor
        · rwa [top]
        · exact Nat.lt_trans ascends (holds.forest.ascends _ aboveIn top)
      obtain ⟨after, found, writes, kept⟩ := ih halved (Finset.mem_range.mp nextIn)
        (show 255 < state.height (state.up (state.up cursor)) + rounds by omega)
      refine ⟨after, ?_, .head (.halve state cursor _ _ read still readAbove) writes, kept⟩
      rw [found, holds.forest.sameRoot _ aboveIn, holds.forest.sameRoot _ member]

/-- A find returns the root of its slot. -/
theorem find_spec {cursor : Nat} (holds : Represents bound state root) (inside : cursor < bound) :
    ∃ after, find cursor state = (.ok (root cursor), after) ∧
      ReflTransGen Write state after ∧ Represents bound after root :=
  findIn_spec holds inside (by omega)

end Runs

/-- The relation of listed pairs. -/
def Listed (pairs : List (Nat × Nat)) (left right : Nat) : Prop := (left, right) ∈ pairs

section Join

variable {Id : Type} [DecidableEq Id] {graph : TopologyView Id} {elements : List Id}
  {member : List Bool}
  (marked : graph.Holds elements member fun element => decide (element ∈ graph.nodes elements))
  (small : graph.elementBound < usizeBound)

include marked small

end Join

section Groups

variable {Id : Type} [DecidableEq Id] {graph : TopologyView Id} {elements : List Id}

/-- The nodes under one root, in order. -/
def under (graph : TopologyView Id) (root : Nat → Nat) (nodes : List Id) (key : Nat) : List Id :=
  nodes.filter fun node => decide (root (graph.elementIndex node) = key)

variable {root : Nat → Nat}

end Groups

end UnionFind

end Oxgraph
