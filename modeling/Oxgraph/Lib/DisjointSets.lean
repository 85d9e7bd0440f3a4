import Mathlib.Algebra.Order.Group.Nat
import Mathlib.Data.Finset.Card
import Mathlib.Data.Finset.Lattice.Fold
import Mathlib.Data.Nat.Log
import Mathlib.Logic.Function.Basic
import Mathlib.Logic.Relation
import Mathlib.Tactic.Ring

/-! Forests of parent pointers with ranks, and the classes they stand for. -/

namespace Oxgraph

open Function (update update_of_ne update_self)

namespace DisjointSets

variable {S : Type} [DecidableEq S]

/-- The slots that have the same root. -/
def tree (slots : Finset S) (root : S → S) (slot : S) : Finset S :=
  slots.filter fun other => root other = slot

/-- Pointers lead each slot up to its root by growing ranks, which the trees are large enough for. -/
structure Forest (slots : Finset S) (up : S → S) (rank : S → Nat) (root : S → S) : Prop where
  inside : ∀ slot ∈ slots, up slot ∈ slots
  ascends : ∀ slot ∈ slots, up slot ≠ slot → rank slot < rank (up slot)
  sameRoot : ∀ slot ∈ slots, root (up slot) = root slot
  atRoot : ∀ slot ∈ slots, up slot = slot → root slot = slot
  large : ∀ slot ∈ slots, up slot = slot → 2 ^ rank slot ≤ (tree slots root slot).card

/-- At first every slot is its own root. -/
theorem Forest.start (slots : Finset S) : Forest slots id (fun _ => 0) id := by
  refine ⟨fun _ inside => inside, fun _ _ moved => absurd rfl moved, fun _ _ => rfl,
    fun _ _ _ => rfl, fun slot inside _ => ?_⟩
  rw [pow_zero]
  exact Finset.card_pos.mpr ⟨slot, Finset.mem_filter.mpr ⟨inside, rfl⟩⟩

section Forest

variable {slots : Finset S} {up : S → S} {rank : S → Nat} {root : S → S}
  (forest : Forest slots up rank root)

include forest

/-- What holds of roots and of a slot when it holds of the next slot holds of all slots. -/
theorem Forest.ascend {motive : S → Prop} (atRoot : ∀ slot ∈ slots, up slot = slot → motive slot)
    (below : ∀ slot ∈ slots, up slot ≠ slot → motive (up slot) → motive slot) :
    ∀ slot ∈ slots, motive slot := by
  -- By induction on how far the rank of the slot is from the highest.
  have general (distance : Nat) : ∀ slot ∈ slots, slots.sup rank ≤ rank slot + distance →
      motive slot := by
    induction distance with
    | zero =>
      intro slot inside top
      by_cases still : up slot = slot
      · exact atRoot slot inside still
      · have higher := forest.ascends slot inside still
        have bound := Finset.le_sup (f := rank) (forest.inside slot inside)
        omega
    | succ distance ih =>
      intro slot inside near
      by_cases still : up slot = slot
      · exact atRoot slot inside still
      · have higher := forest.ascends slot inside still
        exact below slot inside still (ih (up slot) (forest.inside slot inside) (by omega))
  exact fun slot inside => general (slots.sup rank) slot inside (Nat.le_add_left _ _)

/-- The root of a slot is a slot that points to itself, and no rank below it is higher. -/
theorem Forest.root_spec : ∀ slot ∈ slots,
    root slot ∈ slots ∧ up (root slot) = root slot ∧ rank slot ≤ rank (root slot) ∧
      Relation.ReflTransGen (fun low high => low ∈ slots ∧ up low = high) slot (root slot) := by
  refine forest.ascend ?_ ?_
  · intro slot inside still
    rw [forest.atRoot slot inside still]
    exact ⟨inside, still, Nat.le_refl _, .refl⟩
  · intro slot inside moved above
    rw [forest.sameRoot slot inside] at above
    obtain ⟨rootIn, rootStill, higher, leads⟩ := above
    have ascends := forest.ascends slot inside moved
    exact ⟨rootIn, rootStill, by omega, .head ⟨inside, rfl⟩ leads⟩

/-- Pointing a slot to the parent of its parent keeps every root. -/
theorem Forest.halve {slot : S} (here : slot ∈ slots) :
    Forest slots (update up slot (up (up slot))) rank root := by
  have upIn := forest.inside slot here
  have grand := forest.inside (up slot) upIn
  constructor
  case inside =>
    intro other inside
    by_cases same : other = slot
    · rw [same, update_self]
      exact grand
    · rw [update_of_ne same]
      exact forest.inside other inside
  case ascends =>
    intro other inside
    by_cases same : other = slot
    · rw [same, update_self]
      intro moved
      have first : up slot ≠ slot := by
        intro still
        rw [still, still] at moved
        exact moved rfl
      have ascends := forest.ascends slot here first
      by_cases still : up (up slot) = up slot
      · rw [still]
        exact ascends
      · exact Nat.lt_trans ascends (forest.ascends (up slot) upIn still)
    · rw [update_of_ne same]
      exact forest.ascends other inside
  case sameRoot =>
    intro other inside
    by_cases same : other = slot
    · rw [same, update_self, forest.sameRoot (up slot) upIn, forest.sameRoot slot here]
    · rw [update_of_ne same]
      exact forest.sameRoot other inside
  -- A slot that points to itself afterwards did so before, since ranks only grow.
  all_goals
    have before {other : S} (inside : other ∈ slots)
        (still : update up slot (up (up slot)) other = other) : up other = other := by
      by_cases same : other = slot
      · rw [same, update_self] at still
        rw [same]
        by_contra moved
        have first := forest.ascends slot here moved
        by_cases stays : up (up slot) = up slot
        · rw [stays] at still
          exact moved still
        · have second := forest.ascends (up slot) upIn stays
          rw [still] at second
          omega
      · rwa [update_of_ne same] at still
  case atRoot => exact fun other inside still => forest.atRoot other inside (before inside still)
  case large => exact fun other inside still => forest.large other inside (before inside still)

/-- The roots after the tree of one root has been put under another. -/
def merged (root : S → S) (high low : S) (slot : S) : S :=
  if root slot = low then high else root slot

omit forest in
theorem merged_high {high low slot : S} (same : root slot = low) : merged root high low slot = high :=
  if_pos same

omit forest in
theorem merged_other {high low slot : S} (other : root slot ≠ low) :
    merged root high low slot = root slot :=
  if_neg other

omit forest in
/-- The tree of the upper root takes the other in. -/
theorem tree_merged_high {high low : S} : tree slots (merged root high low) high =
    tree slots root high ∪ tree slots root low := by
  ext other
  unfold tree merged
  rw [Finset.mem_union, Finset.mem_filter, Finset.mem_filter, Finset.mem_filter, ← and_or_left]
  refine and_congr_right fun _ => ?_
  split
  case isTrue under => exact ⟨fun _ => .inr under, fun _ => rfl⟩
  case isFalse away => exact ⟨.inl, fun either => either.resolve_right away⟩

omit forest in
theorem tree_merged_other {high low slot : S} (high_ : slot ≠ high) (low_ : slot ≠ low) :
    tree slots (merged root high low) slot = tree slots root slot := by
  refine Finset.filter_congr fun other _ => ?_
  unfold merged
  split
  case isTrue under =>
    rw [under]
    exact ⟨fun equal => absurd equal.symm high_, fun equal => absurd equal.symm low_⟩
  case isFalse => rfl

/-- Putting a root under another whose rank is or becomes higher joins their trees. -/
theorem Forest.link {high low : S} (highIn : high ∈ slots) (lowIn : low ∈ slots)
    (highStill : up high = high) (lowStill : up low = low) (apart : high ≠ low) {height : Nat}
    (grown : rank high ≤ height) (higher : rank low < height)
    (large : 2 ^ height ≤ (tree slots root high).card + (tree slots root low).card) :
    Forest slots (update up low high) (update rank high height)
      (merged root high low) := by
  have rootHigh := forest.atRoot high highIn highStill
  have rootLow := forest.atRoot low lowIn lowStill
  -- No rank falls.
  have stays {slot : S} : rank slot ≤ update rank high height slot := by
    by_cases same : slot = high
    · rw [same, update_self]
      exact grown
    · rw [update_of_ne same]
  constructor
  case inside =>
    intro slot inside
    by_cases same : slot = low
    · rw [same, update_self]
      exact highIn
    · rw [update_of_ne same]
      exact forest.inside slot inside
  case ascends =>
    intro slot inside moved
    by_cases same : slot = low
    · rw [same, update_self, update_self, update_of_ne apart.symm]
      exact higher
    · rw [update_of_ne same] at moved ⊢
      have away : slot ≠ high := by
        intro atHigh
        rw [atHigh] at moved
        exact moved highStill
      rw [update_of_ne away]
      exact Nat.lt_of_lt_of_le (forest.ascends slot inside moved) stays
  case sameRoot =>
    intro slot inside
    by_cases same : slot = low
    · rw [same, update_self, merged_high rootLow,
        merged_other (by rw [rootHigh]; exact apart), rootHigh]
    · rw [update_of_ne same]
      unfold merged
      rw [forest.sameRoot slot inside]
  case atRoot =>
    intro slot inside still
    by_cases same : slot = low
    · rw [same, update_self] at still
      exact absurd still apart
    · rw [update_of_ne same] at still
      have own := forest.atRoot slot inside still
      rw [merged_other (by rw [own]; exact same), own]
  case large =>
    intro slot inside still
    by_cases same : slot = low
    · rw [same, update_self] at still
      exact absurd still apart
    · rw [update_of_ne same] at still
      by_cases atHigh : slot = high
      · -- The tree of the upper root takes the other in.
        subst atHigh
        have disjoint : Disjoint (tree slots root slot) (tree slots root low) := by
          refine Finset.disjoint_filter.mpr fun other _ first second => ?_
          exact apart (first.symm.trans second)
        rw [update_self, tree_merged_high, Finset.card_union_of_disjoint disjoint]
        exact large
      · -- The other trees stay as they are.
        rw [update_of_ne atHigh, tree_merged_other atHigh same]
        exact forest.large slot inside still

end Forest

/-- Two slots have the same root when a chain of joined slots connects them. -/
def Classes (root : S → S) (joined : S → S → Prop) : Prop :=
  ∀ left right, root left = root right ↔ Relation.EqvGen joined left right

/-- A relation with one more pair. -/
def WithEdge (joined : S → S → Prop) (left right : S) : S → S → Prop :=
  fun first second => joined first second ∨ first = left ∧ second = right

omit [DecidableEq S] in
/-- Before anything is joined every slot is a class of its own. -/
theorem Classes.start : Classes (id : S → S) fun _ _ => False := by
  intro left right
  constructor
  · intro same
    cases same
    exact .refl left
  · intro connected
    induction connected with
    | rel _ _ never => exact never.elim
    | refl => rfl
    | symm _ _ _ ih => exact ih.symm
    | trans _ _ _ _ _ first second => exact first.trans second

variable {root : S → S} {joined : S → S → Prop}

omit [DecidableEq S] in
/-- Joining a pair either way connects the same slots. -/
theorem Classes.swap {left right : S} (classes : Classes root (WithEdge joined left right)) :
    Classes root (WithEdge joined right left) := by
  have turned {one other first second : S}
      (connected : Relation.EqvGen (WithEdge joined one other) first second) :
      Relation.EqvGen (WithEdge joined other one) first second := by
    induction connected with
    | rel first second step =>
      rcases step with old | ⟨rfl, rfl⟩
      · exact .rel _ _ (.inl old)
      · exact .symm _ _ (.rel _ _ (.inr ⟨rfl, rfl⟩))
    | refl slot => exact .refl slot
    | symm _ _ _ ih => exact .symm _ _ ih
    | trans _ _ _ _ _ before after => exact .trans _ _ _ before after
  exact fun first second => (classes first second).trans ⟨turned, turned⟩

omit [DecidableEq S] in
/-- Joining a pair that is connected changes nothing. -/
theorem Classes.known (classes : Classes root joined) {left right : S}
    (same : root left = root right) : Classes root (WithEdge joined left right) := by
  intro first second
  rw [classes first second]
  constructor
  · exact fun connected => connected.mono fun _ _ old => .inl old
  · intro connected
    induction connected with
    | rel first second step =>
      rcases step with old | ⟨rfl, rfl⟩
      · exact .rel _ _ old
      · exact (classes first second).mp same
    | refl slot => exact .refl slot
    | symm _ _ _ ih => exact .symm _ _ ih
    | trans _ _ _ _ _ before after => exact .trans _ _ _ before after

end DisjointSets

end Oxgraph
