import Mathlib.Algebra.GroupWithZero.Nat
import Mathlib.Data.List.Basic

/-!
Tokens: one word for a list of words, and one list for a multiset.

A list of words is written word after word, each behind its size. A multiset is sorted.
-/

namespace Oxgraph

universe u

/-- A way to write the size of a word in front of it, over one alphabet. -/
structure LengthPrefix (A : Type u) where
  /-- The size that one letter adds to a word. -/
  size : A → Nat
  /-- The letters that write a size. -/
  digits : Nat → List A
  /-- The letter between a size and its word. -/
  separator : A
  size_pos : ∀ letter, 0 < size letter
  digits_injective : Function.Injective digits
  separator_notMem : ∀ number, separator ∉ digits number

/-- The letters in front of the first separator of a word, and those behind it, are its own. -/
theorem append_cons_inj {A : Type u} {separator : A} {front other rest tail : List A}
    (frontFree : separator ∉ front) (otherFree : separator ∉ other) :
    front ++ separator :: rest = other ++ separator :: tail ↔ front = other ∧ rest = tail := by
  constructor
  · intro same
    induction front generalizing other with
    | nil =>
      cases other with
      | nil => simpa using same
      | cons letter other =>
        rw [List.nil_append, List.cons_append, List.cons_eq_cons] at same
        exact absurd (same.1 ▸ List.mem_cons_self) otherFree
    | cons letter front ih =>
      cases other with
      | nil =>
        rw [List.nil_append, List.cons_append, List.cons_eq_cons] at same
        exact absurd (same.1 ▸ List.mem_cons_self) frontFree
      | cons first other =>
        rw [List.cons_append, List.cons_append, List.cons_eq_cons] at same
        have step := ih (List.not_mem_of_not_mem_cons frontFree)
          (List.not_mem_of_not_mem_cons otherFree) same.2
        exact ⟨by rw [same.1, step.1], step.2⟩
  · rintro ⟨rfl, rfl⟩
    rfl

namespace LengthPrefix

variable {A : Type u} (code : LengthPrefix A)

/-- The size of a word. -/
def weight (word : List A) : Nat := (word.map code.size).sum

/-- A word behind its size. -/
def frame (word : List A) : List A := code.digits (code.weight word) ++ code.separator :: word

/-- Several words, each behind its size. -/
def encode (words : List (List A)) : List A := words.flatMap code.frame

@[simp] theorem weight_nil : code.weight [] = 0 := rfl

@[simp] theorem weight_append (left right : List A) :
    code.weight (left ++ right) = code.weight left + code.weight right := by
  rw [weight, List.map_append, List.sum_append, weight, weight]

/-- Only the empty word has no size. -/
theorem weight_eq_zero {word : List A} : code.weight word = 0 ↔ word = [] := by
  cases word with
  | nil => simp
  | cons letter rest =>
    have positive := code.size_pos letter
    simp only [weight, List.map_cons, List.sum_cons, reduceCtorEq, iff_false]
    omega

/-- A word is cut from what follows it by its size. -/
theorem append_inj_of_weight {left right rest tail : List A}
    (same : left ++ rest = right ++ tail) (weights : code.weight left = code.weight right) :
    left = right ∧ rest = tail := by
  -- Where one word reaches further than the other, the letters between have no size.
  obtain ⟨between, reach, tails⟩ | ⟨between, reach, tails⟩ := List.append_eq_append_iff.mp same
  · rw [reach, weight_append] at weights
    have none := code.weight_eq_zero.mp (by omega : code.weight between = 0)
    rw [none, List.append_nil] at reach
    rw [none, List.nil_append] at tails
    exact ⟨reach.symm, tails⟩
  · rw [reach, weight_append] at weights
    have none := code.weight_eq_zero.mp (by omega : code.weight between = 0)
    rw [none, List.append_nil] at reach
    rw [none, List.nil_append] at tails
    exact ⟨reach, tails.symm⟩

/-- A framed word is read back from in front of anything. -/
theorem frame_append_inj {left right rest tail : List A} :
    code.frame left ++ rest = code.frame right ++ tail ↔ left = right ∧ rest = tail := by
  constructor
  · intro same
    simp only [frame, List.append_assoc, List.cons_append] at same
    -- The digits end at the first separator, and tell where the word ends.
    have parts := (append_cons_inj (code.separator_notMem _) (code.separator_notMem _)).mp same
    exact code.append_inj_of_weight parts.2 (code.digits_injective parts.1)
  · rintro ⟨rfl, rfl⟩
    rfl

theorem frame_ne_nil (word : List A) : code.frame word ≠ [] := by simp [frame]

/-- Different lists of words are written differently. -/
theorem encode_injective : Function.Injective code.encode := by
  intro left
  induction left with
  | nil =>
    intro right same
    cases right with
    | nil => rfl
    | cons word rest =>
      have empty := List.append_eq_nil_iff.mp same.symm
      exact absurd empty.1 (code.frame_ne_nil word)
  | cons word rest ih =>
    intro right same
    cases right with
    | nil => exact absurd (List.append_eq_nil_iff.mp same).1 (code.frame_ne_nil word)
    | cons other tail =>
      have parts := code.frame_append_inj.mp same
      rw [parts.1, ih parts.2]

end LengthPrefix

section Sorted

variable {K : Type u} [Ord K]

/-- A list in ascending order. -/
def ascending (keys : List K) : List K := keys.mergeSort fun left right => (compare left right).isLE

theorem ascending_perm (keys : List K) : (ascending keys).Perm keys := List.mergeSort_perm _ _

variable [Std.TransOrd K]

theorem pairwise_ascending (keys : List K) :
    (ascending keys).Pairwise fun left right => (compare left right).isLE := by
  refine @List.pairwise_mergeSort K (fun left right => (compare left right).isLE)
    (fun _ _ _ => Std.TransOrd.isLE_trans) (fun left right => ?_) keys
  have swap : compare right left = (compare left right).swap := Std.OrientedOrd.eq_swap
  rw [swap]
  cases compare left right <;> rfl

/-- Sorting forgets the order of a list, and nothing else. -/
theorem ascending_eq_iff [Std.LawfulEqOrd K] {left right : List K} :
    ascending left = ascending right ↔ left.Perm right := by
  constructor
  · intro same
    exact (ascending_perm left).symm.trans (same ▸ ascending_perm right)
  · intro perm
    have sorted : (ascending left).Perm (ascending right) :=
      (ascending_perm left).trans (perm.trans (ascending_perm right).symm)
    refine sorted.eq_of_pairwise (fun first second _ _ before after => ?_)
      (pairwise_ascending left) (pairwise_ascending right)
    exact Std.LawfulEqOrd.eq_of_compare (Std.OrientedCmp.isLE_antisymm before after)

end Sorted

end Oxgraph
