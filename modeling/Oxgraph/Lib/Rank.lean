import Oxgraph.Lib.TreeMap

/-! Ranks in ascending lists, and when a longer list keeps the ranks of a shorter one. -/

namespace Oxgraph

variable {K : Type} [Ord K] [Std.TransOrd K] [Std.LawfulEqOrd K] [DecidableEq K]
  {items few many : List K} {key : K}

/-- The items before a key. -/
def itemsBelow (items : List K) (key : K) : List K :=
  items.filter fun item => compare item key = .lt

omit [Std.TransOrd K] [Std.LawfulEqOrd K] [DecidableEq K] in
theorem mem_itemsBelow {item : K} :
    item ∈ itemsBelow items key ↔ item ∈ items ∧ compare item key = .lt := by
  rw [itemsBelow, List.mem_filter, decide_eq_true_eq]

omit [DecidableEq K] in
/-- Of two keys that differ, one comes before the other. -/
theorem compare_lt_or_lt {left right : K} (apart : left ≠ right) :
    compare left right = .lt ∨ compare right left = .lt := by
  cases order : compare left right with
  | lt => exact .inl rfl
  | eq => exact absurd (Std.LawfulEqOrd.eq_of_compare order) apart
  | gt =>
    refine .inr ?_
    rw [Std.OrientedOrd.eq_swap (a := right), order]
    rfl

/-- The position of a key in an ascending list is the number of items before it. -/
theorem idxOf_eq_length_itemsBelow (sorted : Ascending items) (member : key ∈ items) :
    items.idxOf key = (itemsBelow items key).length := by
  induction items with
  | nil => cases member
  | cons head tail ih =>
    obtain ⟨first, sortedTail⟩ := ascending_cons.mp sorted
    by_cases same : head = key
    · subst same
      -- Nothing comes before the first item.
      have none : itemsBelow (head :: tail) head = [] := by
        refine List.filter_eq_nil_iff.mpr fun item inside => ?_
        rw [decide_eq_true_eq]
        rcases List.mem_cons.mp inside with rfl | later
        · exact compare_self_ne_lt _
        · exact not_compare_lt_symm (first item later)
      rw [List.idxOf_cons_self, none]
      rfl
    · have inside : key ∈ tail := (List.mem_cons.mp member).resolve_left (Ne.symm same)
      rw [List.idxOf_cons_ne _ same, ih sortedTail inside, itemsBelow, itemsBelow,
        List.filter_cons_of_pos (by simpa using first key inside), List.length_cons]

omit [Std.LawfulEqOrd K] [DecidableEq K] in
/-- Of the items before a key, a list with more items has no fewer. -/
theorem length_itemsBelow_le (sorted : Ascending few) (within : few ⊆ many) :
    (itemsBelow few key).length ≤ (itemsBelow many key).length := by
  refine List.Subperm.length_le ((sorted.filter _).nodup.subperm fun item member => ?_)
  obtain ⟨listed, before⟩ := mem_itemsBelow.mp member
  exact mem_itemsBelow.mpr ⟨within listed, before⟩

section

variable (sortedFew : Ascending few) (sortedMany : Ascending many) (within : few ⊆ many)
include sortedFew sortedMany within

/-- A longer ascending list keeps the ranks of a shorter one when all it adds comes after. -/
theorem ranks_agree_iff : (∀ key ∈ few, many.idxOf key = few.idxOf key) ↔
    ∀ extra ∈ many, extra ∉ few → ∀ key ∈ few, compare key extra = .lt := by
  constructor
  · intro agree extra added other key listed
    have apart : key ≠ extra := fun same => other (same ▸ listed)
    refine (compare_lt_or_lt apart).resolve_right fun before => ?_
    -- Otherwise the addition would come before the key besides all that does already.
    have more : extra :: itemsBelow few key ⊆ itemsBelow many key := by
      refine List.cons_subset.mpr ⟨mem_itemsBelow.mpr ⟨added, before⟩, fun item member => ?_⟩
      obtain ⟨inside, below⟩ := mem_itemsBelow.mp member
      exact mem_itemsBelow.mpr ⟨within inside, below⟩
    have distinct : (extra :: itemsBelow few key).Nodup :=
      List.nodup_cons.mpr ⟨fun member => other (mem_itemsBelow.mp member).1,
        (sortedFew.filter _).nodup⟩
    have longer := (distinct.subperm more).length_le
    have ranks := agree key listed
    rw [idxOf_eq_length_itemsBelow sortedMany (within listed),
      idxOf_eq_length_itemsBelow sortedFew listed] at ranks
    rw [List.length_cons] at longer
    omega
  · intro after key listed
    rw [idxOf_eq_length_itemsBelow sortedMany (within listed),
      idxOf_eq_length_itemsBelow sortedFew listed]
    refine Nat.le_antisymm ?_ (length_itemsBelow_le sortedFew within)
    refine List.Subperm.length_le ((sortedMany.filter _).nodup.subperm fun item member => ?_)
    obtain ⟨inside, before⟩ := mem_itemsBelow.mp member
    -- What comes before a key of the shorter list is no addition.
    refine mem_itemsBelow.mpr ⟨by_contra fun other => ?_, before⟩
    exact not_compare_lt_symm (after item inside other key listed) before

/-- All that a longer ascending list adds ranks past the shorter one when it all comes after. -/
theorem ranks_beyond_iff : (∀ extra ∈ many, extra ∉ few → few.length ≤ many.idxOf extra) ↔
    ∀ extra ∈ many, extra ∉ few → ∀ key ∈ few, compare key extra = .lt := by
  constructor
  · intro beyond
    by_contra violated
    push Not at violated
    obtain ⟨early, added, other, key, listed, notAfter⟩ := violated
    -- The first addition that does not come after all keys ranks among them.
    let additions := many.filter fun item => item ∉ few
    have sortedAdditions : Ascending additions := sortedMany.filter _
    have member : early ∈ additions := List.mem_filter.mpr ⟨added, by simpa using other⟩
    obtain ⟨least, rest, split⟩ := List.exists_cons_of_ne_nil (List.ne_nil_of_mem member)
    have leastMember : least ∈ many ∧ least ∉ few := by
      have inside : least ∈ additions := by
        rw [split]
        exact List.mem_cons_self
      simpa using List.mem_filter.mp inside
    rw [split] at sortedAdditions member
    have atMost : least = early ∨ compare least early = .lt := by
      rcases List.mem_cons.mp member with same | later
      · exact .inl same.symm
      · exact .inr ((ascending_cons.mp sortedAdditions).1 _ later)
    have beforeKey : compare least key = .lt := by
      have before : compare early key = .lt :=
        (compare_lt_or_lt fun same : early = key => other (same ▸ listed)).resolve_right notAfter
      rcases atMost with rfl | lower
      · exact before
      · exact Std.TransCmp.lt_trans lower before
    have belowLeast : key :: itemsBelow many least ⊆ few := by
      refine List.cons_subset.mpr ⟨listed, fun item inside => ?_⟩
      obtain ⟨itemListed, itemBefore⟩ := mem_itemsBelow.mp inside
      by_contra itemOther
      -- An addition before the first one would be a member of the additions.
      have itemMember : item ∈ additions := List.mem_filter.mpr ⟨itemListed, by simpa using itemOther⟩
      rw [split] at itemMember
      rcases List.mem_cons.mp itemMember with rfl | later
      · exact compare_self_ne_lt _ itemBefore
      · exact not_compare_lt_symm ((ascending_cons.mp sortedAdditions).1 _ later) itemBefore
    have distinct : (key :: itemsBelow many least).Nodup :=
      List.nodup_cons.mpr ⟨fun inside => not_compare_lt_symm beforeKey (mem_itemsBelow.mp inside).2,
        (sortedMany.filter _).nodup⟩
    have shorter := (distinct.subperm belowLeast).length_le
    have past := beyond least leastMember.1 leastMember.2
    rw [idxOf_eq_length_itemsBelow sortedMany leastMember.1] at past
    rw [List.length_cons] at shorter
    omega
  · intro after extra added other
    rw [idxOf_eq_length_itemsBelow sortedMany added]
    refine List.Subperm.length_le (sortedFew.nodup.subperm fun key listed => ?_)
    exact mem_itemsBelow.mpr ⟨within listed, after extra added other key listed⟩

end

end Oxgraph
