import Mathlib.Data.Nat.Log
import Mathlib.Data.Set.Card
import Oxgraph.Algo.Components
import Oxgraph.Lib.DisjointSets
import Oxgraph.Proofs.Algo.Induced
import Oxgraph.Spec.Search

/-! Forests of parent pointers, which every write of a union-find keeps with ranks that grow to roots. -/

namespace Oxgraph

namespace UnionFind

/-- A parent pointer leads from one slot to another, or a chain of them does. -/
def Leads (state : UnionFind) : Nat → Nat → Prop :=
  Relation.ReflTransGen fun low high => state.parent[low]? = some high

/-- A slot whose parent is itself. -/
def IsRoot (state : UnionFind) (slot : Nat) : Prop := state.parent[slot]? = some slot

/-- The single writes of finds and unions; a tie sets a parent and a rank. -/
inductive Write : UnionFind → UnionFind → Prop where
  | halve (state : UnionFind) (cursor above next : Nat) : state.parent[cursor]? = some above →
      above ≠ cursor → state.parent[above]? = some next →
      Write state { state with parent := state.parent.set cursor next }
  | lower (state : UnionFind) (low high : Nat) (lowRank highRank : UInt8) : low ≠ high →
      state.IsRoot low → state.IsRoot high →
      state.rank[low]? = some lowRank → state.rank[high]? = some highRank → lowRank < highRank →
      Write state { state with parent := state.parent.set low high }
  | tie (state : UnionFind) (low high : Nat) (rank : UInt8) : low ≠ high →
      state.IsRoot low → state.IsRoot high →
      state.rank[low]? = some rank → state.rank[high]? = some rank → rank ≠ 255 →
      Write state { parent := state.parent.set low high, rank := state.rank.set high (rank + 1) }

end UnionFind

end Oxgraph

-- Every write keeps the forest.

namespace Oxgraph

namespace UnionFind

open DisjointSets

/-- The parent of a slot. -/
def up (state : UnionFind) (slot : Nat) : Nat := state.parent.getD slot slot

/-- The rank of a slot as a number. -/
def height (state : UnionFind) (slot : Nat) : Nat := (state.rank.getD slot 0).toNat

/-- The slices hold a forest of so many slots with given roots. -/
structure Represents (bound : Nat) (state : UnionFind) (root : Nat → Nat) : Prop where
  parents : state.parent.length = bound
  ranks : state.rank.length = bound
  forest : Forest (Finset.range bound) state.up state.height root

/-- Writing a parent changes the parent of one slot. -/
theorem up_set {parent : List Nat} {rank : List UInt8} {slot : Nat} (inside : slot < parent.length)
    (above : Nat) : (UnionFind.mk (parent.set slot above) rank).up =
      Function.update (UnionFind.mk parent rank).up slot above := by
  funext other
  unfold up
  by_cases same : other = slot
  · subst same
    rw [Function.update_self, List.getD_eq_getElem?_getD, List.getElem?_set_self inside]
    rfl
  · rw [Function.update_of_ne same, List.getD_eq_getElem?_getD, List.getElem?_set_ne (Ne.symm same),
      ← List.getD_eq_getElem?_getD]

/-- Writing a rank changes the height of one slot. -/
theorem height_set {parent : List Nat} {rank : List UInt8} {slot : Nat}
    (inside : slot < rank.length) (value : UInt8) :
    (UnionFind.mk parent (rank.set slot value)).height =
      Function.update (UnionFind.mk parent rank).height slot value.toNat := by
  funext other
  unfold height
  by_cases same : other = slot
  · subst same
    rw [Function.update_self, List.getD_eq_getElem?_getD, List.getElem?_set_self inside]
    rfl
  · rw [Function.update_of_ne same, List.getD_eq_getElem?_getD, List.getElem?_set_ne (Ne.symm same),
      ← List.getD_eq_getElem?_getD]

section Represents

variable {bound : Nat} {state : UnionFind} {root : Nat → Nat} (holds : Represents bound state root)

include holds

variable {slot : Nat}

/-- A slot inside reads its parent. -/
theorem Represents.parent_eq (inside : slot < bound) :
    state.parent[slot]? = some (state.up slot) := by
  rw [← holds.parents] at inside
  unfold up
  rw [List.getD_eq_getElem?_getD, List.getElem?_eq_getElem inside]
  rfl

/-- A slot inside reads its rank. -/
theorem Represents.rank_eq (inside : slot < bound) : ∃ rank : UInt8,
    state.rank[slot]? = some rank ∧ rank.toNat = state.height slot := by
  rw [← holds.ranks] at inside
  refine ⟨state.rank[slot], List.getElem?_eq_getElem inside, ?_⟩
  unfold height
  rw [List.getD_eq_getElem?_getD, List.getElem?_eq_getElem inside]
  rfl

/-- What is read from the parents is inside, and the parent of the slot. -/
theorem Represents.of_parent {slot above : Nat} (read : state.parent[slot]? = some above) :
    slot < bound ∧ state.up slot = above := by
  obtain ⟨inside, _⟩ := List.getElem?_eq_some_iff.mp read
  rw [holds.parents] at inside
  rw [holds.parent_eq inside] at read
  exact ⟨inside, Option.some.inj read⟩

/-- What is read from the ranks is the height of the slot. -/
theorem Represents.of_rank {rank : UInt8} (read : state.rank[slot]? = some rank) :
    state.height slot = rank.toNat := by
  obtain ⟨inside, _⟩ := List.getElem?_eq_some_iff.mp read
  rw [holds.ranks] at inside
  obtain ⟨own, same, height⟩ := holds.rank_eq inside
  rw [same] at read
  rw [← height, Option.some.inj read]

/-- Halving keeps the roots. -/
theorem Represents.halve {cursor : Nat} (inside : cursor < bound) :
    Represents bound { state with parent := state.parent.set cursor (state.up (state.up cursor)) }
      root := by
  refine ⟨by rw [List.length_set, holds.parents], holds.ranks, ?_⟩
  rw [up_set (by rwa [holds.parents])]
  exact holds.forest.halve (Finset.mem_range.mpr inside)

/-- The tree of a root has the power of two by its height as its least size. -/
theorem Represents.large (inside : slot < bound) (still : state.up slot = slot) :
    2 ^ state.height slot ≤ (tree (Finset.range bound) root slot).card :=
  holds.forest.large slot (Finset.mem_range.mpr inside) still

/-- Putting the lower of two roots under the other joins their trees. -/
theorem Represents.lower {low high : Nat} (lowIn : low < bound) (highIn : high < bound)
    (lowStill : state.up low = low) (highStill : state.up high = high) (apart : high ≠ low)
    (lower : state.height low < state.height high) :
    Represents bound { state with parent := state.parent.set low high }
      (merged root high low) := by
  refine ⟨by rw [List.length_set, holds.parents], holds.ranks, ?_⟩
  have linked := holds.forest.link (Finset.mem_range.mpr highIn) (Finset.mem_range.mpr lowIn)
    highStill lowStill apart (Nat.le_refl _) lower
    (Nat.le_add_right_of_le (holds.large highIn highStill))
  rw [Function.update_eq_self] at linked
  rw [up_set (by rwa [holds.parents])]
  exact linked

/-- Putting one of two roots of a rank under the other joins their trees, and its rank grows. -/
theorem Represents.tie {low high : Nat} {rank : UInt8} (lowIn : low < bound)
    (highIn : high < bound) (lowStill : state.up low = low) (highStill : state.up high = high)
    (apart : high ≠ low) (lowRank : state.height low = rank.toNat)
    (highRank : state.height high = rank.toNat) (fits : rank ≠ 255) :
    Represents bound
      { parent := state.parent.set low high, rank := state.rank.set high (rank + 1) }
      (merged root high low) := by
  have grown : (rank + 1).toNat = rank.toNat + 1 := by
    have below := rank.toNat_lt
    have differs : rank.toNat ≠ 255 := fun same => fits (UInt8.toNat_inj.mp same)
    rw [UInt8.toNat_add]
    show (rank.toNat + 1) % 256 = _
    omega
  refine ⟨by rw [List.length_set, holds.parents], by rw [List.length_set, holds.ranks], ?_⟩
  have large : 2 ^ (rank.toNat + 1) ≤ (tree (Finset.range bound) root high).card +
      (tree (Finset.range bound) root low).card := by
    have first := holds.large highIn highStill
    have second := holds.large lowIn lowStill
    rw [highRank] at first
    rw [lowRank] at second
    rw [Nat.pow_succ]
    omega
  have linked := holds.forest.link (Finset.mem_range.mpr highIn) (Finset.mem_range.mpr lowIn)
    highStill lowStill apart (by rw [highRank]; exact Nat.le_succ _)
    (by rw [lowRank]; exact Nat.lt_succ_self _) large
  rw [height_set (by rwa [holds.ranks]), up_set (by rwa [holds.parents]), grown]
  exact linked

end Represents

variable {bound : Nat} {state : UnionFind} {root : Nat → Nat}

/-- A slot that points to itself is a root. -/
theorem Represents.isRoot_iff (holds : Represents bound state root) {slot : Nat} :
    state.IsRoot slot ↔ slot < bound ∧ state.up slot = slot := by
  constructor
  · exact holds.of_parent
  · rintro ⟨inside, still⟩
    unfold IsRoot
    rw [holds.parent_eq inside, still]

/-- Every write keeps a forest of as many slots. -/
theorem Write.keeps {before after : UnionFind} (write : Write before after)
    (holds : Represents bound before root) : ∃ roots, Represents bound after roots := by
  cases write with
  | halve cursor above next read moved second =>
    obtain ⟨inside, first⟩ := holds.of_parent read
    obtain ⟨_, same⟩ := holds.of_parent second
    rw [← first] at same
    rw [← same]
    exact ⟨root, holds.halve inside⟩
  | lower low high lowRank highRank apart lowRoot highRoot readLow readHigh less =>
    obtain ⟨lowIn, lowStill⟩ := holds.isRoot_iff.mp lowRoot
    obtain ⟨highIn, highStill⟩ := holds.isRoot_iff.mp highRoot
    refine ⟨_, holds.lower lowIn highIn lowStill highStill (Ne.symm apart) ?_⟩
    rw [holds.of_rank readLow, holds.of_rank readHigh]
    exact UInt8.lt_iff_toNat_lt.mp less
  | tie low high rank apart lowRoot highRoot readLow readHigh fits =>
    obtain ⟨lowIn, lowStill⟩ := holds.isRoot_iff.mp lowRoot
    obtain ⟨highIn, highStill⟩ := holds.isRoot_iff.mp highRoot
    exact ⟨_, holds.tie lowIn highIn lowStill highStill (Ne.symm apart) (holds.of_rank readLow)
      (holds.of_rank readHigh) fits⟩

/-- A chain of pointers keeps the root, and leads to it. -/
theorem Represents.leads {bound : Nat} {state : UnionFind} {root : Nat → Nat}
    (holds : Represents bound state root) {slot : Nat} (inside : slot < bound) :
    state.Leads slot (root slot) ∧ state.IsRoot (root slot) ∧
      ∀ other, state.Leads slot other → other < bound ∧ root other = root slot := by
  obtain ⟨rootIn, still, _, leads⟩ := holds.forest.root_spec slot (Finset.mem_range.mpr inside)
  refine ⟨Relation.ReflTransGen.mono (fun low high step => ?_) _ _ leads, ?_,
    fun other chain => ?_⟩
  · rw [holds.parent_eq (Finset.mem_range.mp step.1), step.2]
  · exact holds.isRoot_iff.mpr ⟨Finset.mem_range.mp rootIn, still⟩
  · induction chain with
    | refl => exact ⟨inside, rfl⟩
    | tail _ step ih =>
      obtain ⟨here, same⟩ := holds.of_parent step
      have member := Finset.mem_range.mpr here
      rw [← same]
      refine ⟨Finset.mem_range.mp (holds.forest.inside _ member), ?_⟩
      rw [holds.forest.sameRoot _ member, ih.2]

end UnionFind

end Oxgraph
