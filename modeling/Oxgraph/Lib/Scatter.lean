import Mathlib.Data.List.Induction
import Mathlib.Data.List.NodupEquivFin
import Mathlib.Tactic.Common

/-!
Entries that are moved from their keys to positions of a list of keys.

Reading through the list takes an entry to every position of its key. Moving it to the last of these
agrees with that only as far as the entries of repeated keys hold nothing special.
-/

namespace Oxgraph

variable {K T : Type}

/-- A key occurs at a position of a list, and not behind it. -/
structure LastAt (keys : List K) (key : K) (position : Nat) : Prop where
  here : keys[position]? = some key
  last : ∀ later, position < later → keys[later]? ≠ some key

namespace LastAt

variable {keys : List K} {key : K} {position : Nat}

theorem mem (lastAt : LastAt keys key position) : key ∈ keys := List.mem_of_getElem? lastAt.here

theorem lt_length (lastAt : LastAt keys key position) : position < keys.length :=
  (List.getElem?_eq_some_iff.mp lastAt.here).1

/-- A position is the last one of one key at most. -/
theorem key_unique {other : K} (lastAt : LastAt keys key position)
    (otherAt : LastAt keys other position) : key = other :=
  Option.some.inj (lastAt.here.symm.trans otherAt.here)

/-- Only one position of a key is the last. -/
theorem unique {other : Nat} (lastAt : LastAt keys key position) (otherAt : LastAt keys key other) :
    position = other := by
  rcases Nat.lt_trichotomy position other with before | same | after
  · exact absurd otherAt.here (lastAt.last other before)
  · exact same
  · exact absurd lastAt.here (otherAt.last position after)

/-- A further key takes over its last position, and leaves those of the other keys. -/
theorem append_singleton_iff {more : K} : LastAt (keys ++ [more]) key position ↔
    (key = more ∧ position = keys.length) ∨ (key ≠ more ∧ LastAt keys key position) := by
  have whole {index : Nat} : (keys ++ [more])[index]? = some key ↔
      (index < keys.length ∧ keys[index]? = some key) ∨ (index = keys.length ∧ key = more) := by
    rcases Nat.lt_trichotomy index keys.length with before | same | after
    · rw [List.getElem?_append_left before]
      exact ⟨fun found => .inl ⟨before, found⟩, fun found => found.elim And.right fun
        ⟨same, _⟩ => absurd before (by omega)⟩
    · rw [same, List.getElem?_concat_length, Option.some.injEq]
      exact ⟨fun found => .inr ⟨rfl, found.symm⟩, fun found => found.elim
        (fun ⟨before, _⟩ => absurd before (Nat.lt_irrefl _)) fun ⟨_, equal⟩ => equal.symm⟩
    · have outside : (keys ++ [more]).length ≤ index := by simpa using Nat.succ_le_of_lt after
      rw [List.getElem?_eq_none outside]
      exact ⟨fun none => (nomatch none), fun found => by omega⟩
  constructor
  · rintro ⟨here, last⟩
    rcases whole.mp here with ⟨before, found⟩ | ⟨same, equal⟩
    · refine .inr ⟨fun equal => last keys.length before (whole.mpr (.inr ⟨rfl, equal⟩)), found, ?_⟩
      intro later behind known
      exact last later behind
        (whole.mpr (.inl ⟨(List.getElem?_eq_some_iff.mp known).1, known⟩))
    · exact .inl ⟨equal, same⟩
  · rintro (⟨equal, same⟩ | ⟨apart, here, last⟩)
    · refine ⟨whole.mpr (.inr ⟨same, equal⟩), fun later behind known => ?_⟩
      rcases whole.mp known with ⟨before, _⟩ | ⟨at_end, _⟩ <;> omega
    · refine ⟨whole.mpr (.inl ⟨(List.getElem?_eq_some_iff.mp here).1, here⟩),
        fun later behind known => ?_⟩
      rcases whole.mp known with ⟨_, found⟩ | ⟨_, equal⟩
      · exact last later behind found
      · exact apart equal

end LastAt

/-- A key that occurs has a last position. -/
theorem exists_lastAt {keys : List K} {key : K} (member : key ∈ keys) :
    ∃ position, LastAt keys key position := by
  induction keys using List.reverseRecOn with
  | nil => cases member
  | append_singleton keys more ih =>
    by_cases same : key = more
    · exact ⟨keys.length, LastAt.append_singleton_iff.mpr (.inl ⟨same, rfl⟩)⟩
    · rcases List.mem_append.mp member with earlier | last
      · obtain ⟨position, lastAt⟩ := ih earlier
        exact ⟨position, LastAt.append_singleton_iff.mpr (.inr ⟨same, lastAt⟩)⟩
      · exact absurd (List.mem_singleton.mp last) same

/-- A key is repeated when it has a position that is not its last. -/
theorem duplicate_iff_not_lastAt {keys : List K} {key : K} : keys.Duplicate key ↔
    ∃ position, keys[position]? = some key ∧ ¬ LastAt keys key position := by
  rw [List.duplicate_iff_exists_distinct_get]
  constructor
  · rintro ⟨first, second, before, here, again⟩
    have found (index : Fin keys.length) : keys[index.val]? = some (keys.get index) :=
      List.getElem?_eq_getElem index.isLt
    refine ⟨first, ?_, fun lastAt => lastAt.last second before ?_⟩
    · rw [here]
      exact found first
    · rw [again]
      exact found second
  · rintro ⟨position, here, more⟩
    obtain ⟨last, lastAt⟩ := exists_lastAt (List.mem_of_getElem? here)
    have before : position < last := by
      rcases Nat.lt_trichotomy position last with before | same | after
      · exact before
      · exact absurd (same ▸ lastAt) more
      · exact absurd here (lastAt.last position after)
    obtain ⟨inside, same⟩ := List.getElem?_eq_some_iff.mp here
    obtain ⟨lastInside, lastSame⟩ := List.getElem?_eq_some_iff.mp lastAt.here
    exact ⟨⟨position, inside⟩, ⟨last, lastInside⟩, before, same.symm, lastSame.symm⟩

section Lookup

variable [BEq K] [LawfulBEq K]

/-- Looking up a key finds the entry of that key, when no key is repeated. -/
theorem lookup_eq_some_iff_mem {entries : List (K × T)} (distinct : (entries.map Prod.fst).Nodup)
    {key : K} {value : T} : entries.lookup key = some value ↔ (key, value) ∈ entries := by
  induction entries with
  | nil => simp
  | cons entry rest ih =>
    rw [List.map_cons, List.nodup_cons] at distinct
    rw [List.lookup_cons, List.mem_cons]
    by_cases same : key = entry.1
    · rw [beq_iff_eq.mpr same, Option.some.injEq]
      constructor
      · rintro rfl
        exact .inl (Prod.ext same rfl)
      · rintro (rfl | later)
        · rfl
        · exact absurd (same ▸ List.mem_map_of_mem (f := Prod.fst) later) distinct.1
    · rw [beq_eq_false_iff_ne.mpr same, ih distinct.2]
      exact ⟨.inr, fun found => found.resolve_left fun equal => same (congrArg Prod.fst equal)⟩

/-- Looking up a key beside its position finds what stands at that position. -/
theorem lookup_zip_of_getElem? {keys : List K} {values : List T} (distinct : keys.Nodup)
    (aligned : keys.length = values.length) {key : K} {position : Nat}
    (here : keys[position]? = some key) : (keys.zip values).lookup key = values[position]? := by
  obtain ⟨inside, same⟩ := List.getElem?_eq_some_iff.mp here
  have stored : position < values.length := aligned ▸ inside
  have named : ((keys.zip values).map Prod.fst).Nodup := by
    rwa [List.map_fst_zip (Nat.le_of_eq aligned)]
  rw [List.getElem?_eq_getElem stored, lookup_eq_some_iff_mem named]
  refine List.mem_iff_getElem?.mpr ⟨position, ?_⟩
  rw [List.getElem?_zip_eq_some]
  exact ⟨here, List.getElem?_eq_getElem stored⟩

/-- Looking up a key that has no position finds nothing. -/
theorem lookup_zip_eq_none {keys : List K} {values : List T} {key : K} (absent : key ∉ keys) :
    (keys.zip values).lookup key = none := by
  refine List.lookup_eq_none_iff.mpr fun entry member => bne_iff_ne.mpr fun same => ?_
  exact absent (same ▸ (List.of_mem_zip member).1)

omit [LawfulBEq K] in
/-- Looking up among mapped values maps what is found. -/
theorem lookup_zip_map {U : Type} (keys : List K) (values : List T) (f : T → U) (key : K) :
    (keys.zip (values.map f)).lookup key = ((keys.zip values).lookup key).map f := by
  induction keys generalizing values with
  | nil => rfl
  | cons first rest ih =>
    cases values with
    | nil => rfl
    | cons value others =>
      rw [List.map_cons, List.zip_cons_cons, List.zip_cons_cons, List.lookup_cons, List.lookup_cons]
      cases key == first with
      | true => rfl
      | false => exact ih others

end Lookup

/-- Entries are moved from their keys to the last positions of these in a list. -/
structure Moves (keys : List Nat) (entries moved : List (Nat × T)) : Prop where
  mem_iff : ∀ position value, (position, value) ∈ moved ↔
    ∃ key, (key, value) ∈ entries ∧ LastAt keys key position
  nodup : (moved.map Prod.fst).Nodup

namespace Moves

variable {keys : List Nat} {entries moved : List (Nat × T)}

/-- Moved entries may stand in any order. -/
theorem perm (moves : Moves keys entries moved) {other : List (Nat × T)} (same : other.Perm moved) :
    Moves keys entries other := by
  refine ⟨fun position value => ?_, (same.map Prod.fst).nodup_iff.mpr moves.nodup⟩
  rw [same.mem_iff, moves.mem_iff]

/-- The last position of a key is given its entry; at the others nothing is found. -/
theorem lookup_getD (moves : Moves keys entries moved) (distinct : (entries.map Prod.fst).Nodup)
    (missing : T) {position key : Nat} (here : keys[position]? = some key)
    [Decidable (LastAt keys key position)] : (moved.lookup position).getD missing =
      if LastAt keys key position then (entries.lookup key).getD missing else missing := by
  split
  · rename_i lastAt
    refine congrArg (·.getD missing) (Option.ext fun value => ?_)
    rw [lookup_eq_some_iff_mem moves.nodup, lookup_eq_some_iff_mem distinct, moves.mem_iff]
    constructor
    · rintro ⟨other, member, otherAt⟩
      rwa [lastAt.key_unique otherAt]
    · exact fun member => ⟨key, member, lastAt⟩
  · rename_i more
    have nothing : moved.lookup position = none := by
      refine Option.eq_none_iff_forall_ne_some.mpr fun value found => more ?_
      obtain ⟨other, _, otherAt⟩ :=
        (moves.mem_iff position value).mp ((lookup_eq_some_iff_mem moves.nodup).mp found)
      rwa [Option.some.inj (here.symm.trans otherAt.here)]
    rw [nothing, Option.getD_none]

/-- Moving entries reads through the keys when the entries of repeated keys hold nothing special. -/
theorem reads_iff (moves : Moves keys entries moved) (distinct : (entries.map Prod.fst).Nodup)
    (missing : T) : (∀ position key, keys[position]? = some key →
      (moved.lookup position).getD missing = (entries.lookup key).getD missing) ↔
    ∀ key ∈ entries.map Prod.fst, keys.Duplicate key →
      (entries.lookup key).getD missing = missing := by
  classical
  constructor
  · intro reads key _ repeated
    obtain ⟨position, here, more⟩ := duplicate_iff_not_lastAt.mp repeated
    rw [← reads position key here, moves.lookup_getD distinct missing here, if_neg more]
  · intro plain position key here
    rw [moves.lookup_getD distinct missing here]
    split
    · rfl
    · rename_i more
      by_cases member : key ∈ entries.map Prod.fst
      · exact (plain key member (duplicate_iff_not_lastAt.mpr ⟨position, here, more⟩)).symm
      · have nothing : entries.lookup key = none := by
          refine List.lookup_eq_none_iff.mpr fun entry inside => ?_
          exact bne_iff_ne.mpr fun same => member (same ▸ List.mem_map_of_mem inside)
        rw [nothing, Option.getD_none]

end Moves

end Oxgraph
