import Mathlib.Data.List.Forall2
import Oxgraph.Lib.TreeMap

/-! Binary search and partition points over a list sorted by a key. -/

namespace Oxgraph

variable {T : Type}

/-- Halves the range `[low, high)` until the probe compares equal or nothing is left. -/
def bisect (items : List T) (order : T → Ordering) : Nat → Nat → Nat → Option Nat
  | 0, _, _ => none
  | fuel + 1, low, high =>
    if high ≤ low then none
    else
      let middle := low + (high - low) / 2
      match items[middle]? with
      | none => none
      | some item =>
        match order item with
        | .lt => bisect items order fuel (middle + 1) high
        | .eq => some middle
        | .gt => bisect items order fuel low middle

/-- Finds the position of an item that compares equal, where items compare against the target. -/
def binarySearchBy (items : List T) (order : T → Ordering) : Option Nat :=
  bisect items order items.length 0 items.length

/-- Halves the range `[low, high)` until it is the boundary after the items that satisfy `holds`. -/
def bisectPoint (items : List T) (holds : T → Bool) : Nat → Nat → Nat → Nat
  | 0, low, _ => low
  | fuel + 1, low, high =>
    if high ≤ low then low
    else
      let middle := low + (high - low) / 2
      if items[middle]?.any holds then bisectPoint items holds fuel (middle + 1) high
      else bisectPoint items holds fuel low middle

/-- The number of leading items that satisfy a predicate which holds of a prefix. -/
def partitionPoint (items : List T) (holds : T → Bool) : Nat :=
  bisectPoint items holds items.length 0 items.length

/-- Before an item that compares low every item compares low, and after a high one every one high. -/
structure Monotone (items : List T) (order : T → Ordering) : Prop where
  low : items.Pairwise fun before after => order after ≠ .gt → order before = .lt
  high : items.Pairwise fun before after => order before ≠ .lt → order after = .gt

variable {items : List T} {order : T → Ordering}

/-- Bisection finds an equal item, or shows that the range it searched holds none. -/
theorem bisect_spec (sorted : Monotone items order) (fuel low high : Nat)
    (enough : high - low ≤ fuel) (inside : high ≤ items.length) :
    match bisect items order fuel low high with
    | some index => ∃ item, items[index]? = some item ∧ order item = .eq
    | none => ∀ index item, low ≤ index → index < high → items[index]? = some item →
        order item ≠ .eq := by
  induction fuel generalizing low high with
  | zero =>
    intro index item above below
    omega
  | succ fuel ih =>
    rw [bisect]
    by_cases empty : high ≤ low
    · rw [if_pos empty]
      intro index item above below
      omega
    · rw [if_neg empty]
      have bound : low + (high - low) / 2 < items.length := by omega
      have probe : items[low + (high - low) / 2]? = some items[low + (high - low) / 2] :=
        List.getElem?_eq_getElem bound
      simp only [probe]
      cases found : order items[low + (high - low) / 2] with
      | eq => exact ⟨_, probe, found⟩
      | lt =>
        -- Everything up to the middle compares low, so only the right half matters.
        have right := ih (low + (high - low) / 2 + 1) high (by omega) inside
        revert right
        cases bisect items order fuel (low + (high - low) / 2 + 1) high with
        | some index => exact id
        | none =>
          intro right index item above below at_index
          by_cases later : low + (high - low) / 2 < index
          · exact right index item later below at_index
          · obtain ⟨index_bound, rfl⟩ := List.getElem?_eq_some_iff.mp at_index
            rcases Nat.lt_or_eq_of_le (Nat.le_of_not_lt later) with earlier | same
            · have before := List.pairwise_iff_getElem.mp sorted.low index _ index_bound bound
                earlier (by rw [found]; decide)
              rw [before]
              decide
            · subst same
              rw [found]
              decide
      | gt =>
        -- Everything from the middle on compares high, so only the left half matters.
        have left := ih low (low + (high - low) / 2) (by omega) (by omega)
        revert left
        cases bisect items order fuel low (low + (high - low) / 2) with
        | some index => exact id
        | none =>
          intro left index item above below at_index
          by_cases earlier : index < low + (high - low) / 2
          · exact left index item above earlier at_index
          · obtain ⟨index_bound, rfl⟩ := List.getElem?_eq_some_iff.mp at_index
            rcases Nat.lt_or_eq_of_le (Nat.le_of_not_lt earlier) with later | same
            · have after := List.pairwise_iff_getElem.mp sorted.high _ index bound index_bound
                later (by rw [found]; decide)
              rw [after]
              decide
            · subst same
              rw [found]
              decide

/-- A search that finds a position finds an item there, also in a list that is not sorted. -/
theorem binarySearchBy_found {index : Nat} (found : binarySearchBy items order = some index) :
    ∃ item, items[index]? = some item := by
  have general (fuel low high : Nat) (found : bisect items order fuel low high = some index) :
      ∃ item, items[index]? = some item := by
    induction fuel generalizing low high with
    | zero => cases found
    | succ fuel ih =>
      unfold bisect at found
      split at found
      · cases found
      · cases middle : items[low + (high - low) / 2]? with
        | none => simp [middle] at found
        | some item =>
          simp only [middle] at found
          cases compared : order item <;> simp only [compared] at found
          · exact ih _ _ found
          · exact ⟨item, Option.some.inj found ▸ middle⟩
          · exact ih _ _ found
  exact general _ _ _ found

/-- A search of a sorted list lands on an equal item exactly when there is one. -/
theorem binarySearchBy_spec (sorted : Monotone items order) :
    match binarySearchBy items order with
    | some index => ∃ item, items[index]? = some item ∧ order item = .eq
    | none => ∀ item ∈ items, order item ≠ .eq := by
  have found := bisect_spec sorted items.length 0 items.length (by omega) (Nat.le_refl _)
  unfold binarySearchBy
  revert found
  cases bisect items order items.length 0 items.length with
  | some index => exact id
  | none =>
    intro absent item member
    obtain ⟨index, bound, rfl⟩ := List.getElem_of_mem member
    exact absent index _ (Nat.zero_le _) bound (List.getElem?_eq_getElem bound)

/-- Comparing keys against a target is monotone along ascending keys. -/
theorem monotone_of_ascending {K : Type} [Ord K] [Std.TransOrd K] {key : T → K}
    (sorted : Ascending (items.map key)) (target : K) :
    Monotone items fun item => compare (key item) target := by
  have ordered := List.pairwise_map.mp sorted
  constructor
  · refine ordered.imp ?_
    intro before after less notAbove
    have below : (compare (key after) target).isLE := by
      cases found : compare (key after) target with
      | gt => exact absurd found notAbove
      | lt | eq => rfl
    exact Std.TransCmp.lt_of_lt_of_isLE less below
  · refine ordered.imp ?_
    intro before after less notBelow
    have above : (compare target (key before)).isLE := by
      rw [Std.OrientedOrd.eq_swap (a := target)]
      cases found : compare (key before) target with
      | lt => exact absurd found notBelow
      | eq | gt => rfl
    have later := Std.TransCmp.lt_of_isLE_of_lt above less
    rw [Std.OrientedOrd.eq_swap (a := key after), later]
    rfl

section Directory

variable {K V : Type} [Ord K] [Std.TransOrd K] [Std.LawfulEqOrd K]

end Directory

/-- A bisected boundary separates the items that satisfy the predicate from the others. -/
theorem bisectPoint_spec {items : List T} {holds : T → Bool}
    (partitioned : items.Pairwise fun before after => holds after → holds before)
    (fuel low high : Nat) (enough : high - low ≤ fuel) (ordered : low ≤ high)
    (inside : high ≤ items.length)
    (below : ∀ index (bound : index < items.length), index < low → holds items[index])
    (above : ∀ index (bound : index < items.length), high ≤ index → ¬ holds items[index]) :
    bisectPoint items holds fuel low high ≤ items.length ∧
      ∀ index (bound : index < items.length),
        (holds items[index] ↔ index < bisectPoint items holds fuel low high) := by
  -- Everything before the window holds and nothing from its end on: the window halves.
  induction fuel generalizing low high with
  | zero =>
    have same : low = high := by omega
    subst same
    refine ⟨inside, fun index bound => ⟨?_, below index bound⟩⟩
    intro satisfied
    by_contra later
    exact above index bound (by rw [bisectPoint] at later; omega) satisfied
  | succ fuel ih =>
    rw [bisectPoint]
    split
    · have same : low = high := by omega
      subst same
      refine ⟨inside, fun index bound => ⟨?_, below index bound⟩⟩
      intro satisfied
      by_contra later
      exact above index bound (by omega) satisfied
    · have bound : low + (high - low) / 2 < items.length := by omega
      have pairs := List.pairwise_iff_getElem.mp partitioned
      simp only [List.getElem?_eq_getElem bound, Option.any_some]
      split
      · rename_i satisfied
        refine ih _ _ (by omega) (by omega) inside ?_ above
        intro index indexBound early
        rcases Nat.lt_or_eq_of_le (Nat.le_of_lt_succ early) with earlier | same
        · exact pairs index _ indexBound bound earlier satisfied
        · subst same
          exact satisfied
      · rename_i failed
        refine ih _ _ (by omega) (by omega) (by omega) below ?_
        intro index indexBound late satisfied
        rcases Nat.lt_or_eq_of_le late with later | same
        · exact failed (pairs _ index bound indexBound later satisfied)
        · subst same
          exact failed satisfied

end Oxgraph
