import Mathlib.Tactic.Common
import Oxgraph.Lib.TreeMap

/-! Keys numbered in the order they came, and names that keep their first taker. -/

namespace Oxgraph

section Numbering

variable {K I : Type} [Ord K] [Std.TransOrd K]

/-- The keys by number, and the index of each key, as two inverse maps. -/
structure Numbered (number : I → Nat) (items : List K) (index : BTreeMap K I) : Prop where
  -- Every key has a number of the type.
  covered : ∀ {position}, position < items.length → ∃ id, number id = position
  found : ∀ {key id}, index[key]? = some id ↔ items[number id]? = some key

variable {number : I → Nat} {items : List K} {index : BTreeMap K I}

/-- No keys, and an empty index. -/
theorem Numbered.nil : Numbered number ([] : List K) ∅ :=
  ⟨fun inside => absurd inside (Nat.not_lt_zero _), by simp⟩

namespace Numbered

variable (numbered : Numbered number items index)
include numbered

/-- The index finds exactly the numbered keys. -/
theorem mem_iff {key : K} : key ∈ items ↔ ∃ id, index[key]? = some id := by
  constructor
  · intro member
    obtain ⟨position, located⟩ := List.mem_iff_getElem?.mp member
    obtain ⟨id, rfl⟩ := numbered.covered (List.getElem?_eq_some_iff.mp located).1
    exact ⟨id, numbered.found.mpr located⟩
  · rintro ⟨id, found⟩
    exact List.mem_of_getElem? (numbered.found.mp found)

/-- The index does not find a key that has no number. -/
theorem absent {key : K} (fresh : key ∉ items) : index[key]? = none := by
  cases found : index[key]? with
  | none => rfl
  | some id => exact absurd (numbered.mem_iff.mpr ⟨id, found⟩) fresh

/-- No key has two numbers. -/
theorem nodup : items.Nodup := by
  refine List.nodup_iff_getElem?_ne_getElem?.mpr fun first second before inside same => ?_
  obtain ⟨one, rfl⟩ := numbered.covered (Nat.lt_trans before inside)
  obtain ⟨other, rfl⟩ := numbered.covered inside
  -- The index gives the one key both numbers.
  have located := List.getElem?_eq_getElem inside
  have found := numbered.found.mpr located
  have again := numbered.found.mpr (same.trans located)
  cases found.symm.trans again
  exact Nat.lt_irrefl _ before

variable [Std.LawfulEqOrd K] [DecidableEq K]

/-- A new key takes the next number. -/
theorem push (injective : Function.Injective number) {key : K} (fresh : key ∉ items) {id : I}
    (next : number id = items.length) :
    Numbered number (items ++ [key]) (index.insert key id) := by
  constructor
  · intro position inside
    rw [List.length_append, List.length_singleton] at inside
    rcases Nat.lt_or_eq_of_le (Nat.le_of_lt_succ inside) with before | last
    · exact numbered.covered before
    · exact ⟨id, next.trans last.symm⟩
  · intro probe other
    rw [get_insert]
    by_cases same : key = probe
    · subst same
      rw [if_pos rfl]
      constructor
      · rintro ⟨⟩
        rw [next, List.getElem?_concat_length]
      · intro located
        rcases Nat.lt_trichotomy (number other) items.length with before | last | past
        · -- The key stood nowhere before it was pushed.
          rw [List.getElem?_append_left before] at located
          exact absurd (List.mem_of_getElem? located) fresh
        · rw [injective (next.trans last.symm)]
        · rw [List.getElem?_eq_none (by simp; omega)] at located
          cases located
    · rw [if_neg same, numbered.found]
      rcases Nat.lt_trichotomy (number other) items.length with before | last | past
      · rw [List.getElem?_append_left before]
      · rw [last, List.getElem?_concat_length, List.getElem?_eq_none (Nat.le_refl _)]
        simp [same]
      · rw [List.getElem?_eq_none (Nat.le_of_lt past), List.getElem?_eq_none (by simp; omega)]

end Numbered

/-- What entering a key leaves: it has a number, and the keys before keep theirs. -/
structure Enters (number : I → Nat) (before : List K) (key : K) (id : I) (after : List K)
    (index : BTreeMap K I) : Prop where
  numbered : Numbered number after index
  located : after[number id]? = some key
  grown : before <+: after
  members : ∀ other, other ∈ after ↔ other ∈ before ∨ other = key

namespace Numbered

variable (numbered : Numbered number items index) {key : K} {id : I}
include numbered

/-- A key that is found is there. -/
theorem enters_found (found : index[key]? = some id) : Enters number items key id items index := by
  refine ⟨numbered, numbered.found.mp found, List.prefix_rfl, fun other => ⟨.inl, ?_⟩⟩
  rintro (member | rfl)
  · exact member
  · exact numbered.mem_iff.mpr ⟨id, found⟩

variable [Std.LawfulEqOrd K] [DecidableEq K]

/-- A key that is not found takes the next number. -/
theorem enters_absent (injective : Function.Injective number) (absent : index[key]? = none)
    (next : number id = items.length) :
    Enters number items key id (items ++ [key]) (index.insert key id) := by
  have fresh : key ∉ items := fun member => by
    obtain ⟨_, found⟩ := numbered.mem_iff.mp member
    cases absent.symm.trans found
  refine ⟨numbered.push injective fresh next, ?_, List.prefix_append _ _, fun other => by simp⟩
  rw [next, List.getElem?_concat_length]

end Numbered

end Numbering

end Oxgraph

-- Names that keep their first taker.

namespace Oxgraph

section FirstTaker

variable {N D : Type} [DecidableEq N]

/-- Claims a name for what it wants, unless the name is taken. -/
def claim (look : N → Option D) (name : N) (wants : Option D) : N → Option D :=
  fun probe => if name = probe then (look probe).or wants else look probe

/-- Makes listed claims in order. -/
def claimAll (look : N → Option D) (claims : List (N × Option D)) : N → Option D :=
  claims.foldl (fun look item => claim look item.1 item.2) look

/-- Making one claim more. -/
theorem claimAll_append (look : N → Option D) (claims more : List (N × Option D)) :
    claimAll look (claims ++ more) = claimAll (claimAll look claims) more := by
  unfold claimAll
  rw [List.foldl_append]

variable {claims : List (N × Option D)} {look : N → Option D}

/-- A taken name keeps its taker. -/
theorem claimAll_taken {name : N} {taker : D} (taken : look name = some taker) :
    claimAll look claims name = some taker := by
  induction claims generalizing look with
  | nil => exact taken
  | cons head rest ih =>
    have still : claim look head.1 head.2 name = some taker := by
      unfold claim
      split
      · rw [taken, Option.some_or]
      · exact taken
    exact ih still

/-- A name nobody claims stays as it is. -/
theorem claimAll_unclaimed {name : N} (unclaimed : ∀ item ∈ claims, item.1 ≠ name) :
    claimAll look claims name = look name := by
  induction claims generalizing look with
  | nil => rfl
  | cons head rest ih =>
    obtain ⟨apart, others⟩ := List.forall_mem_cons.mp unclaimed
    show claimAll (claim look head.1 head.2) rest name = look name
    rw [ih others, claim, if_neg apart]

/-- A free name that all its claims want for the same goes to that. -/
theorem claimAll_free {name : N} {wants : Option D} (free : look name = none)
    (claimed : ∃ item ∈ claims, item.1 = name)
    (same : ∀ item ∈ claims, item.1 = name → item.2 = wants) :
    claimAll look claims name = wants := by
  induction claims generalizing look with
  | nil =>
    obtain ⟨item, member, _⟩ := claimed
    cases member
  | cons head rest ih =>
    show claimAll (claim look head.1 head.2) rest name = wants
    obtain ⟨own, others⟩ := List.forall_mem_cons.mp same
    by_cases named : head.1 = name
    · have first : claim look head.1 head.2 name = wants := by
        rw [claim, if_pos named, free, Option.none_or, own named]
      cases wants with
      | some taker => exact claimAll_taken first
      | none =>
        -- Wanting nothing leaves the name free for the rest of the claims.
        by_cases later : ∃ item ∈ rest, item.1 = name
        · exact ih first later others
        · rw [claimAll_unclaimed fun item member same => later ⟨item, member, same⟩, first]
    · refine ih ?_ ?_ others
      · rw [claim, if_neg named, free]
      · obtain ⟨item, member, at_name⟩ := claimed
        rcases List.mem_cons.mp member with rfl | later
        · exact absurd at_name named
        · exact ⟨item, later, at_name⟩

/-- Claims on names that are all taken change nothing. -/
theorem claimAll_settled (settled : ∀ item ∈ claims, (look item.1).isSome) :
    claimAll look claims = look := by
  funext name
  cases found : look name with
  | some taker => exact claimAll_taken found
  | none =>
    rw [claimAll_unclaimed, found]
    intro item member named
    have taken := settled item member
    rw [named, found] at taken
    cases taken

/-- Every claim gets what it wants exactly when no taker and no other claim wants otherwise. -/
theorem claimAll_agrees_iff :
    (∀ item ∈ claims, claimAll look claims item.1 = item.2) ↔
      (∀ item ∈ claims, ∀ taker, look item.1 = some taker → item.2 = some taker) ∧
        ∀ left ∈ claims, ∀ right ∈ claims, left.1 = right.1 → left.2 = right.2 := by
  constructor
  · intro agrees
    constructor
    · intro item member taker taken
      rw [← agrees item member, claimAll_taken taken]
    · intro left memberLeft right memberRight same
      rw [← agrees left memberLeft, ← agrees right memberRight, same]
  · rintro ⟨takers, pairs⟩ item member
    cases found : look item.1 with
    | some taker => rw [claimAll_taken found, takers item member taker found]
    | none =>
      apply claimAll_free found ⟨item, member, rfl⟩
      intro other otherMember same
      exact pairs other otherMember item member same

end FirstTaker

end Oxgraph
