import Oxgraph.Lib.TreeMap

/-! Posting maps, and the added and removed postings an overlay keeps against a base. -/

namespace Oxgraph

section Postings

variable {K M : Type} [Ord K] [Std.TransOrd K] [Ord M] [Std.TransOrd M]

/-- The members posted under a key. -/
def posted (map : BTreeMap K (BTreeSet M)) (key : K) : BTreeSet M := map.getD key ∅

/-- Posts a member under a key. -/
def joinPosting (map : BTreeMap K (BTreeSet M)) (key : K) (member : M) : BTreeMap K (BTreeSet M) :=
  map.insert key ((posted map key).insert member)

/-- Removes a member from the posting at a key, dropping the posting when it becomes empty. -/
def removePosting (map : BTreeMap K (BTreeSet M)) (key : K) (member : M) :
    BTreeMap K (BTreeSet M) :=
  match map[key]? with
  | none => map
  | some members =>
    if member ∈ members then
      let rest := members.erase member
      if rest.isEmpty then map.erase key else map.insert key rest
    else map

variable {map : BTreeMap K (BTreeSet M)}

omit [Std.TransOrd M] in
/-- The members a lookup of one key would read. -/
theorem posted_of_get {key : K} {members : BTreeSet M} (found : map[key]? = some members) :
    posted map key = members := by
  rw [posted, Std.ExtTreeMap.getD_eq_getD_getElem?, found, Option.getD_some]

omit [Std.TransOrd M] in
/-- A key without a posting has no members. -/
theorem posted_of_get_none {key : K} (absent : map[key]? = none) : posted map key = ∅ := by
  rw [posted, Std.ExtTreeMap.getD_eq_getD_getElem?, absent, Option.getD_none]

/-- A member of some read posting is a posted member. -/
theorem exists_mem_posting {key : K} {member : M} :
    (∃ members, map[key]? = some members ∧ member ∈ members) ↔ member ∈ posted map key := by
  cases found : map[key]? with
  | none => simp [posted_of_get_none found]
  | some members => simp [posted_of_get found]

variable [Std.LawfulEqOrd K] [DecidableEq K]

omit [Std.TransOrd M] in
/-- Replacing one posting leaves the others alone. -/
theorem posted_insert (map : BTreeMap K (BTreeSet M)) (key probe : K) (members : BTreeSet M) :
    posted (map.insert key members) probe = if key = probe then members else posted map probe := by
  simp only [posted, Std.ExtTreeMap.getD_eq_getD_getElem?, get_insert]
  split <;> rfl

omit [Std.TransOrd M] in
/-- Dropping one posting leaves the others alone. -/
theorem posted_erase (map : BTreeMap K (BTreeSet M)) (key probe : K) :
    posted (map.erase key) probe = if key = probe then ∅ else posted map probe := by
  simp only [posted, Std.ExtTreeMap.getD_eq_getD_getElem?, get_erase]
  split <;> rfl

variable [Std.LawfulEqOrd M]

/-- Posting adds exactly one pair. -/
theorem mem_joinPosting {key probe : K} {member other : M} :
    other ∈ posted (joinPosting map key member) probe ↔
      (key = probe ∧ member = other) ∨ other ∈ posted map probe := by
  rw [joinPosting, posted_insert]
  split
  · rename_i same
    subst same
    simp
  · rename_i apart
    simp [apart]

/-- Removing drops exactly one pair. -/
theorem mem_removePosting {key probe : K} {member other : M} :
    other ∈ posted (removePosting map key member) probe ↔
      ¬ (key = probe ∧ member = other) ∧ other ∈ posted map probe := by
  unfold removePosting
  split
  · -- Nothing is posted under the key, so there is nothing to drop.
    rename_i absent
    constructor
    · intro present
      refine ⟨?_, present⟩
      rintro ⟨rfl, rfl⟩
      simp [posted_of_get_none absent] at present
    · exact And.right
  · rename_i members found
    have read := posted_of_get found
    split
    · -- The pair is posted; whether its posting survives depends on what is left of it.
      have erased : ∀ item, item ∈ members.erase member ↔ member ≠ item ∧ item ∈ members :=
        fun item => mem_erase_set
      by_cases drained : (members.erase member).isEmpty
      · simp only [drained, if_true, posted_erase]
        have nothing : ∀ item, item ∉ members.erase member := by
          intro item
          rw [Std.ExtTreeSet.isEmpty_iff.mp drained]
          exact Std.ExtTreeSet.not_mem_empty
        split
        · rename_i same
          subst same
          rw [read]
          constructor
          · intro present
            simp at present
          · rintro ⟨apart, present⟩
            exact absurd ((erased other).mpr ⟨fun same => apart ⟨rfl, same⟩, present⟩)
              (nothing other)
        · rename_i apart
          simp [apart]
      · simp only [drained, Bool.false_eq_true, if_false, posted_insert]
        split
        · rename_i same
          subst same
          rw [erased, read]
          simp
        · rename_i apart
          simp [apart]
    · rename_i unposted
      constructor
      · intro present
        refine ⟨?_, present⟩
        rintro ⟨rfl, rfl⟩
        rw [read] at present
        exact unposted present
      · exact And.right

end Postings

/-- The postings an overlay adds to and removes from a base. -/
structure PostingDelta (K M : Type) [Ord K] [Ord M] where
  -- Members the overlay adds, by posting key.
  added : BTreeMap K (BTreeSet M)
  -- Members the overlay removes, by posting key.
  removed : BTreeMap K (BTreeSet M)

namespace PostingDelta

variable {K M : Type} [Ord K] [Std.TransOrd K] [Ord M] [Std.TransOrd M]

/-- No deltas over the base. -/
def empty : PostingDelta K M := ⟨∅, ∅⟩

/-- Records that a member joined a posting, dropping any prior removal. -/
def add (delta : PostingDelta K M) (key : K) (member : M) : PostingDelta K M :=
  { removed := removePosting delta.removed key member, added := joinPosting delta.added key member }

/-- Records that a member left a posting, dropping any prior addition. -/
def withdraw (delta : PostingDelta K M) (key : K) (member : M) : PostingDelta K M :=
  { added := removePosting delta.added key member, removed := joinPosting delta.removed key member }

/-- Records that a member left its previous posting for another one. -/
def move [DecidableEq K] (delta : PostingDelta K M) (previous : Option K) (key : K) (member : M) :
    PostingDelta K M :=
  let left :=
    match previous with
    | some previous => if previous ≠ key then delta.withdraw previous member else delta
    | none => delta
  left.add key member

/-- Records that each listed member left its posting. -/
def withdrawAll (delta : PostingDelta K M) (pairs : List (K × M)) : PostingDelta K M :=
  pairs.foldl (fun delta pair => delta.withdraw pair.1 pair.2) delta

/--
The delta accounts for the difference between the pairs a base posts and the pairs carried now.

Added pairs are carried, removed pairs are not, and every pair on which the two differ is recorded.
-/
structure Tracks (delta : PostingDelta K M) (base carries : K → M → Prop) : Prop where
  addedCarried : ∀ {key member}, member ∈ posted delta.added key → carries key member
  removedGone : ∀ {key member}, member ∈ posted delta.removed key → ¬ carries key member
  carriedKnown : ∀ {key member}, carries key member →
    base key member ∨ member ∈ posted delta.added key
  baseKnown : ∀ {key member}, base key member →
    carries key member ∨ member ∈ posted delta.removed key

variable {delta : PostingDelta K M} {base carries : K → M → Prop}

/-- The added and removed members of a posting never meet. -/
theorem Tracks.disjoint (tracks : delta.Tracks base carries) {key : K} {member : M}
    (added : member ∈ posted delta.added key) : member ∉ posted delta.removed key :=
  fun removed => tracks.removedGone removed (tracks.addedCarried added)

/-- A pair is carried when it is added, or when the base posts it and it is not removed. -/
theorem Tracks.carries_iff {delta : PostingDelta K M} {base carries : K → M → Prop}
    (tracks : delta.Tracks base carries) {key : K} {member : M} :
    (base key member ∧ member ∉ posted delta.removed key) ∨ member ∈ posted delta.added key ↔
      carries key member := by
  constructor
  · rintro (⟨based, kept⟩ | added)
    · exact (tracks.baseKnown based).resolve_right kept
    · exact tracks.addedCarried added
  · intro carried
    refine (tracks.carriedKnown carried).imp_left fun based => ⟨based, ?_⟩
    exact fun removed => tracks.removedGone removed carried

/-- Tracking depends only on which pairs are carried. -/
theorem Tracks.congr {base carries carries' : K → M → Prop} (tracks : delta.Tracks base carries)
    (same : ∀ key member, carries' key member ↔ carries key member) :
    delta.Tracks base carries' := by
  have equal : carries' = carries := by
    funext key member
    exact propext (same key member)
  rwa [equal]

/-- The empty delta tracks a base that has not changed. -/
theorem tracks_empty (base : K → M → Prop) : (empty : PostingDelta K M).Tracks base base where
  addedCarried member := by simp [empty, posted, Std.ExtTreeMap.getD_empty] at member
  removedGone member := by simp [empty, posted, Std.ExtTreeMap.getD_empty] at member
  carriedKnown := .inl
  baseKnown := .inl

variable [Std.LawfulEqOrd K] [DecidableEq K] [Std.LawfulEqOrd M]

/-- Recording an addition tracks one more carried pair. -/
theorem Tracks.add (tracks : delta.Tracks base carries) (key : K) (member : M) :
    (delta.add key member).Tracks base
      fun probe other => (key = probe ∧ member = other) ∨ carries probe other where
  addedCarried present := by
    rcases mem_joinPosting.mp present with same | old
    · exact .inl same
    · exact .inr (tracks.addedCarried old)
  removedGone present := by
    obtain ⟨apart, old⟩ := mem_removePosting.mp present
    rintro (same | carried)
    · exact apart same
    · exact tracks.removedGone old carried
  carriedKnown carried := by
    rcases carried with same | old
    · exact .inr (mem_joinPosting.mpr (.inl same))
    · exact (tracks.carriedKnown old).imp_right fun added => mem_joinPosting.mpr (.inr added)
  baseKnown {probe other} posts := by
    rcases tracks.baseKnown posts with carried | removed
    · exact .inl (.inr carried)
    · -- A removed pair stays removed unless it is the one just added.
      by_cases same : key = probe ∧ member = other
      · exact .inl (.inl same)
      · exact .inr (mem_removePosting.mpr ⟨same, removed⟩)

/-- Recording a withdrawal tracks one carried pair fewer. -/
theorem Tracks.withdraw (tracks : delta.Tracks base carries) (key : K) (member : M) :
    (delta.withdraw key member).Tracks base
      fun probe other => ¬ (key = probe ∧ member = other) ∧ carries probe other where
  addedCarried present := by
    obtain ⟨apart, old⟩ := mem_removePosting.mp present
    exact ⟨apart, tracks.addedCarried old⟩
  removedGone present := by
    rintro ⟨apart, carried⟩
    rcases mem_joinPosting.mp present with same | old
    · exact apart same
    · exact tracks.removedGone old carried
  carriedKnown carried := by
    rcases tracks.carriedKnown carried.2 with posts | added
    · exact .inl posts
    · exact .inr (mem_removePosting.mpr ⟨carried.1, added⟩)
  baseKnown {probe other} posts := by
    by_cases same : key = probe ∧ member = other
    · exact .inr (mem_joinPosting.mpr (.inl same))
    · rcases tracks.baseKnown posts with carried | removed
      · exact .inl ⟨same, carried⟩
      · exact .inr (mem_joinPosting.mpr (.inr removed))

/-- Recording a move tracks a member that carries one of several rival keys at a time. -/
theorem Tracks.move (tracks : delta.Tracks base carries) {previous : Option K} {key : K}
    {member : M} (rival : K → Prop) (keyRival : rival key)
    (previousRival : ∀ probe ∈ previous, rival probe)
    (carried : ∀ probe, rival probe → (carries probe member ↔ previous = some probe)) :
    (delta.move previous key member).Tracks base fun probe other =>
      (member = other ∧ rival probe ∧ key = probe) ∨
        (¬ (member = other ∧ rival probe) ∧ carries probe other) := by
  unfold PostingDelta.move
  cases previous with
  | none =>
    refine (tracks.add key member).congr fun probe other => ?_
    have before := carried probe
    grind
  | some old =>
    have oldRival := previousRival old rfl
    by_cases same : old = key
    · subst same
      simp only [ne_eq, not_true, if_false]
      refine (tracks.add old member).congr fun probe other => ?_
      have before := carried probe
      grind
    · simp only [ne_eq, same, not_false_iff, if_true]
      refine ((tracks.withdraw old member).add key member).congr fun probe other => ?_
      have before := carried probe
      grind

/-- Recording a list of withdrawals tracks what is carried outside the list. -/
theorem Tracks.withdrawAll (tracks : delta.Tracks base carries) (pairs : List (K × M)) :
    (delta.withdrawAll pairs).Tracks base
      fun probe other => (probe, other) ∉ pairs ∧ carries probe other := by
  induction pairs generalizing delta carries with
  | nil => exact tracks.congr fun probe other => by simp
  | cons pair rest ih =>
    refine (ih (tracks.withdraw pair.1 pair.2)).congr fun probe other => ?_
    rw [List.mem_cons, not_or, Prod.ext_iff, and_assoc]
    constructor
    · rintro ⟨apart, unlisted, carried⟩
      exact ⟨unlisted, fun same => apart ⟨same.1.symm, same.2.symm⟩, carried⟩
    · rintro ⟨unlisted, apart, carried⟩
      exact ⟨fun same => apart ⟨same.1.symm, same.2.symm⟩, unlisted, carried⟩

end PostingDelta

section Merge

variable {K M : Type} [Ord K] [Std.TransOrd K] [Ord M] [Std.TransOrd M]

/--
Merges one base posting with an overlay's deltas into the visible, ascending member list.

The visible members are the base's and the added ones, without the removed ones.
-/
def mergePosting (base : List M) (added removed : Option (BTreeSet M)) : List M :=
  let visible := collectSet base
  let visible := extendSet visible ((added.map (·.toList)).getD [])
  let visible := removeAll visible ((removed.map (·.toList)).getD [])
  visible.toList

/-- Merged postings come out in ascending order. -/
theorem ascending_mergePosting (base : List M) (added removed : Option (BTreeSet M)) :
    Ascending (mergePosting base added removed) :=
  ascending_toList_set _

variable [Std.LawfulEqOrd M]

/-- A merged posting holds the base's and the added members that are not removed. -/
theorem mem_mergePosting {delta : PostingDelta K M} {base : List M} {key : K} {member : M} :
    member ∈ mergePosting base delta.added[key]? delta.removed[key]? ↔
      (member ∈ base ∨ member ∈ posted delta.added key) ∧ member ∉ posted delta.removed key := by
  have read (map : BTreeMap K (BTreeSet M)) :
      member ∈ (map[key]?.map (·.toList)).getD [] ↔ member ∈ posted map key := by
    cases found : map[key]? with
    | none => simp [posted_of_get_none found]
    | some members => simp [posted_of_get found]
  simp only [mergePosting, Std.ExtTreeSet.mem_toList, mem_removeAll, mem_extendSet, mem_collectSet,
    read]

/-- Merging a base's posting with a delta that tracks it yields the members carried now. -/
theorem PostingDelta.Tracks.mem_merge {delta : PostingDelta K M} {base carries : K → M → Prop}
    (tracks : delta.Tracks base carries) {key : K} {posting : List M}
    (posts : ∀ member, member ∈ posting ↔ base key member) (member : M) :
    member ∈ mergePosting posting delta.added[key]? delta.removed[key]? ↔ carries key member := by
  rw [mem_mergePosting, posts, ← tracks.carries_iff]
  constructor
  · rintro ⟨based | added, kept⟩
    · exact .inl ⟨based, kept⟩
    · exact .inr added
  · rintro (⟨based, kept⟩ | added)
    · exact ⟨.inl based, kept⟩
    · exact ⟨.inr added, tracks.disjoint added⟩

end Merge

end Oxgraph
