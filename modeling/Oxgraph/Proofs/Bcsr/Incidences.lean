import Oxgraph.Proofs.Bcsr.Traversal
import Oxgraph.Spec.Hypergraph

/-! The numbering of incidences is the same in every method, and is walked from both ends. -/

namespace Oxgraph.Bcsr

open Layout
open LayoutIndex (bound_le ofNat_toNat toNat_lt toNat_ofNat)

-- Walks from both ends.

section

variable {I : Type} [LayoutIndex I]

namespace BcsrParticipantSlice

/-- Every position of a walk has an ID of the width. -/
structure Fits (I : Type) [LayoutIndex I] (slice : BcsrParticipantSlice) : Prop where
  ordered : slice.cursor ≤ slice.stop
  numbered : slice.remaining = 0 ∨ slice.base + slice.stop ≤ LayoutIndex.bound I

/-- The incidences from the cursor to the stop. -/
def left (I : Type) [LayoutIndex I] (slice : BcsrParticipantSlice) : List I :=
  (List.range' (slice.base + slice.cursor) slice.remaining).map LayoutIndex.ofNat

@[simp] theorem length_left (slice : BcsrParticipantSlice) :
    (slice.left I).length = slice.remaining := by
  rw [left, List.length_map, List.length_range']

variable {slice : BcsrParticipantSlice}

/-- Running a walk that fits yields all that is left. -/
theorem run_eq (fits : slice.Fits I) : slice.run = some (slice.left I) := by
  refine participantsFrom_eq ?_
  have ordered := fits.ordered
  have numbered := fits.numbered
  unfold remaining at numbered
  omega

/-- A front answers with the first incidence left. -/
theorem next_eq (fits : slice.Fits I) :
    ∃ rest : BcsrParticipantSlice, slice.next = some ((slice.left I).head?, rest) ∧
      rest.Fits I ∧ rest.left I = (slice.left I).tail := by
  -- The front steps past the cursor unless the walk has ended.
  by_cases ended : slice.cursor = slice.stop
  · have none_left : slice.left I = [] := by
      rw [left, remaining, ended, Nat.sub_self]
      rfl
    refine ⟨slice, ?_, fits, ?_⟩
    · rw [next, if_pos ended, none_left]
      rfl
    · rw [none_left, List.tail_nil]
  · have ordered := fits.ordered
    have numbered := fits.numbered
    unfold remaining at numbered
    have inside : slice.base + slice.cursor < LayoutIndex.bound I := by omega
    have small : slice.base + slice.cursor < usizeBound :=
      Nat.lt_of_lt_of_le inside bound_le
    have split : slice.remaining = slice.stop - (slice.cursor + 1) + 1 := by
      unfold remaining
      omega
    have first : slice.left I = LayoutIndex.ofNat (slice.base + slice.cursor) ::
        left I { slice with cursor := slice.cursor + 1 } := by
      rw [left, split, List.range'_succ, List.map_cons]
      rfl
    refine ⟨{ slice with cursor := slice.cursor + 1 }, ?_, ⟨?_, ?_⟩, ?_⟩
    · rw [next, if_neg ended, checkedAdd_eq_some.mpr ⟨rfl, small⟩, first]
      simp only [usizeToIndexValidated_eq inside]
      rfl
    · show slice.cursor + 1 ≤ slice.stop
      omega
    · show _ ∨ slice.base + slice.stop ≤ _
      omega
    · rw [first, List.tail_cons]

/-- A back answers with the last incidence left. -/
theorem nextBack_eq (fits : slice.Fits I) :
    ∃ rest : BcsrParticipantSlice, slice.nextBack = some ((slice.left I).getLast?, rest) ∧
      rest.Fits I ∧ rest.left I = (slice.left I).dropLast := by
  -- The back steps before the stop unless the walk has ended.
  by_cases ended : slice.cursor = slice.stop
  · have none_left : slice.left I = [] := by
      rw [left, remaining, ended, Nat.sub_self]
      rfl
    refine ⟨slice, ?_, fits, ?_⟩
    · rw [nextBack, if_pos ended, none_left]
      rfl
    · rw [none_left, List.dropLast_nil]
  · have ordered := fits.ordered
    have numbered := fits.numbered
    unfold remaining at numbered
    have inside : slice.base + (slice.stop - 1) < LayoutIndex.bound I := by omega
    have small : slice.base + (slice.stop - 1) < usizeBound :=
      Nat.lt_of_lt_of_le inside bound_le
    have split : slice.remaining = slice.stop - 1 - slice.cursor + 1 := by
      unfold remaining
      omega
    have end_ : slice.base + slice.cursor + (slice.stop - 1 - slice.cursor) =
        slice.base + (slice.stop - 1) := by omega
    have last : slice.left I = left I { slice with stop := slice.stop - 1 } ++
        [LayoutIndex.ofNat (slice.base + (slice.stop - 1))] := by
      rw [left, split, List.range'_concat, List.map_append, Nat.one_mul, end_]
      rfl
    refine ⟨{ slice with stop := slice.stop - 1 }, ?_, ⟨?_, ?_⟩, ?_⟩
    · rw [nextBack, if_neg ended, subOrPanic, if_pos (by omega), last, List.getLast?_concat]
      simp only [Option.bind_eq_bind, Option.bind_some, checkedAdd_eq_some.mpr ⟨rfl, small⟩,
        usizeToIndexValidated_eq inside]
      rfl
    · show slice.cursor ≤ slice.stop - 1
      omega
    · show _ ∨ slice.base + (slice.stop - 1) ≤ _
      omega
    · rw [last, List.dropLast_concat]

/-- An end answers with the incidence at that end of what is left. -/
theorem nextAt_eq (side : SliceEnd) (fits : slice.Fits I) :
    ∃ rest : BcsrParticipantSlice,
      slice.nextAt side = some ((takeAt side (slice.left I)).1, rest) ∧
        rest.Fits I ∧ rest.left I = (takeAt side (slice.left I)).2 := by
  cases side with
  | front => exact next_eq fits
  | back => exact nextBack_eq fits

/-- A mixture of ends answers as the ends of what is left do. -/
theorem mixture_eq (sides : List SliceEnd) (fits : slice.Fits I) :
    ∃ rest : BcsrParticipantSlice,
      slice.mixture sides = some ((takeMixture sides (slice.left I)).1, rest) ∧
        rest.Fits I ∧ rest.left I = (takeMixture sides (slice.left I)).2 := by
  induction sides generalizing slice with
  | nil => exact ⟨slice, rfl, fits, rfl⟩
  | cons side sides ih =>
    obtain ⟨middle, answered, middleFits, middleLeft⟩ := nextAt_eq side fits
    obtain ⟨rest, others, restFits, restLeft⟩ := ih middleFits
    rw [middleLeft] at others restLeft
    refine ⟨rest, ?_, restFits, restLeft⟩
    rw [mixture, answered]
    simp only [Option.bind_eq_bind, Option.bind_some, others]
    rfl

/-- What is left in the order that an end gives it. -/
def inOrder : SliceEnd → List I → List I
  | .front, incidences => incidences
  | .back, incidences => incidences.reverse

/-- Asking one end until nothing is left yields all that is left in that end's order. -/
theorem drain_eq (side : SliceEnd) {fuel : Nat} (enough : slice.remaining < fuel)
    (fits : slice.Fits I) : slice.drain side fuel = some (inOrder side (slice.left I)) := by
  induction fuel generalizing slice with
  | zero => exact absurd enough (Nat.not_lt_zero _)
  | succ fuel ih =>
    obtain ⟨rest, answered, restFits, restLeft⟩ := nextAt_eq side fits
    rw [drain, answered]
    simp only [Option.bind_eq_bind, Option.bind_some]
    have order : inOrder side (slice.left I) = (takeAt side (slice.left I)).1.elim []
        fun incidence => incidence :: inOrder side (rest.left I) := by
      rw [restLeft]
      cases side with
      | front => cases slice.left I <;> rfl
      | back =>
        rcases List.eq_nil_or_concat (slice.left I) with none_left | ⟨before, last, split⟩
        · rw [none_left]
          rfl
        · simp [split, takeAt, inOrder]
    rw [order]
    cases answer : (takeAt side (slice.left I)).1 with
    | none => rfl
    | some incidence =>
      -- An answer takes one incidence away, so the fuel is enough for the rest.
      have shorter : rest.remaining < slice.remaining := by
        rw [← length_left (I := I) rest, ← length_left (I := I) slice, restLeft]
        cases side with
        | front =>
          cases items : slice.left I with
          | nil => simp [items, takeAt] at answer
          | cons => simp [takeAt]
        | back =>
          cases items : slice.left I with
          | nil => simp [items, takeAt] at answer
          | cons => simp [takeAt]
      simp only [ih (by omega) restFits, Option.bind_some]
      rfl

/-- A walk that fits yields what is left from both ends. -/
theorem yields_left (fits : slice.Fits I) : slice.Yields (slice.left I) := by
  intro sides
  obtain ⟨rest, answered, restFits, restLeft⟩ := mixture_eq sides fits
  refine ⟨rest, answered, fun fuel enough => ?_⟩
  rw [drain_eq .front enough restFits, drain_eq .back enough restFits, restLeft]
  exact ⟨rfl, rfl⟩

end BcsrParticipantSlice

/-- The walk over one side of a hyperedge yields what it runs through from both ends. -/
theorem participantSlice_yields {J : Type} [LayoutIndex J] {offsets : List I} {values : List J}
    {buckets : List (List Nat)} (flat : Indexed offsets values buckets) {index base : Nat}
    (inside : index < buckets.length)
    (fits : (buckets.getD index []).length = 0 ∨ base + (buckets.take index).flatten.length +
      (buckets.getD index []).length ≤ LayoutIndex.bound I) :
    ∃ (slice : BcsrParticipantSlice) (incidences : List I),
      participantSlice offsets index base = some slice ∧ slice.run = some incidences ∧
        slice.Yields incidences := by
  have slice : BcsrParticipantSlice.Fits I
      { cursor := (buckets.take index).flatten.length
        stop := (buckets.take index).flatten.length + (buckets.getD index []).length
        base } := by
    constructor
    · exact Nat.le_add_right _ _
    · unfold BcsrParticipantSlice.remaining
      dsimp only
      omega
  exact ⟨_, _, participantSlice_eq flat inside, BcsrParticipantSlice.run_eq slice,
    BcsrParticipantSlice.yields_left slice⟩

end

-- Positions in sets laid out one after the other.

section

variable {sets : List (List Nat)}

/-- A position is in a set and holds an item exactly when it is the item's position there. -/
theorem eq_positionOf_iff (nodup : ∀ set ∈ sets, set.Nodup) {index position item : Nat} :
    ((sets.take index).flatten.length ≤ position ∧
      position < (sets.take index).flatten.length + (sets.getD index []).length ∧
      sets.flatten[position]? = some item) ↔
        item ∈ sets.getD index [] ∧ position = positionOf sets index item := by
  -- The sets are laid out one after the other, so a position in one is past its start.
  have flat : Flattened (runningOffsets 0 sets) sets.flatten sets := ⟨rfl, rfl⟩
  constructor
  · rintro ⟨start, stop, holds⟩
    obtain ⟨place, rfl⟩ := Nat.exists_eq_add_of_le start
    have below : place < (sets.getD index []).length := by omega
    have inside : index < sets.length := by
      by_contra outside
      rw [List.getD_eq_default _ _ (Nat.le_of_not_lt outside)] at below
      cases below
    have located := getElem?_bucket inside
    rw [flat.getElem?_place located below] at holds
    obtain ⟨_, rfl⟩ := List.getElem?_eq_some_iff.mp holds
    refine ⟨List.getElem_mem below, ?_⟩
    rw [positionOf, (nodup _ (List.mem_of_getElem? located)).idxOf_getElem place below]
  · rintro ⟨member, rfl⟩
    have located := getElem?_bucket (lt_of_mem_getD member)
    refine ⟨Nat.le_add_right _ _, positionOf_lt member, ?_⟩
    rw [positionOf, flat.getElem?_place located (List.idxOf_lt_length_of_mem member),
      List.getElem?_idxOf member]

/-- A number is in the range of a set and holds an item exactly when it is at its position. -/
theorem mem_incidenceRange_iff (nodup : ∀ set ∈ sets, set.Nodup) {base index number item : Nat} :
    (base ≤ number ∧ number ∈ incidenceRange sets base index ∧
      sets.flatten[number - base]? = some item) ↔
        item ∈ sets.getD index [] ∧ number = base + positionOf sets index item := by
  -- Past the base, numbers are positions.
  rw [incidenceRange, List.mem_range'_1]
  constructor
  · rintro ⟨past, ⟨start, stop⟩, holds⟩
    obtain ⟨place, rfl⟩ := Nat.exists_eq_add_of_le past
    rw [Nat.add_sub_cancel_left] at holds
    have inside : (sets.take index).flatten.length ≤ place ∧
        place < (sets.take index).flatten.length + (sets.getD index []).length := by omega
    obtain ⟨member, rfl⟩ := (eq_positionOf_iff nodup).mp ⟨inside.1, inside.2, holds⟩
    exact ⟨member, rfl⟩
  · rintro ⟨member, rfl⟩
    obtain ⟨start, stop, holds⟩ := (eq_positionOf_iff nodup).mpr ⟨member, rfl⟩
    refine ⟨Nat.le_add_right _ _, by omega, ?_⟩
    rwa [Nat.add_sub_cancel_left]

/-- A position holds an item exactly when it is the item's position in some set. -/
theorem getElem?_flatten_iff (nodup : ∀ set ∈ sets, set.Nodup) {position item : Nat} :
    sets.flatten[position]? = some item ↔
      ∃ index, item ∈ sets.getD index [] ∧ position = positionOf sets index item := by
  constructor
  · intro holds
    have flat : Flattened (runningOffsets 0 sets) sets.flatten sets := ⟨rfl, rfl⟩
    obtain ⟨index, set, located, start, stop⟩ :=
      flat.owner (List.getElem?_eq_some_iff.mp holds).1
    obtain ⟨inside, rfl⟩ := List.getElem?_eq_some_iff.mp located
    rw [← List.getD_eq_getElem sets [] inside] at stop
    exact ⟨index, (eq_positionOf_iff nodup).mp ⟨start, stop, holds⟩⟩
  · rintro ⟨index, found⟩
    exact ((eq_positionOf_iff nodup).mpr found).2.2

/-- An item has different positions in different sets. -/
theorem positionOf_injective {index other item : Nat} (member : item ∈ sets.getD index [])
    (second : item ∈ sets.getD other [])
    (same : positionOf sets index item = positionOf sets other item) : index = other := by
  have first := positionOf_lt member
  have rival := positionOf_lt second
  have start : (sets.take other).flatten.length ≤ positionOf sets index item := by
    rw [same]
    exact Nat.le_add_right _ _
  rw [← same] at rival
  exact owner_unique (getElem?_bucket (lt_of_mem_getD member))
    (getElem?_bucket (lt_of_mem_getD second)) (Nat.le_add_right _ _) first start rival

variable {relations : List (List Nat)}

/-- The relations of an item are the sets that hold it. -/
theorem mem_relations_iff (forth : Mirrored sets relations) (back : Mirrored relations sets)
    (below : ∀ bucket ∈ relations, ∀ index ∈ bucket, index < sets.length) {item : Nat}
    (inside : item < relations.length) {index : Nat} :
    index ∈ relations.getD item [] ↔ item ∈ sets.getD index [] := by
  have located := getElem?_bucket inside
  constructor
  · intro listed
    have found := below _ (List.mem_of_getElem? located) _ listed
    exact back item _ located _ listed _ (getElem?_bucket found)
  · intro member
    exact forth index _ (getElem?_bucket (lt_of_mem_getD member)) _ member _ located

/-- The incidences of an item are its positions in the sets, each once. -/
theorem incidencesOf_spec (ascending : ∀ set ∈ sets, set.Nodup) {base item : Nat}
    {hyperedges : List Nat} (nodup : hyperedges.Nodup)
    (listed : ∀ index, index ∈ hyperedges ↔ item ∈ sets.getD index []) :
    (incidencesOf sets base item hyperedges).length = hyperedges.length ∧
      (incidencesOf sets base item hyperedges).Nodup ∧
      ∀ number, number ∈ incidencesOf sets base item hyperedges ↔
        ∃ position, number = base + position ∧ sets.flatten[position]? = some item := by
  -- Every listed set holds the item, so none is left out.
  have whole : (hyperedges.filter fun index => item ∈ sets.getD index []) = hyperedges := by
    rw [List.filter_eq_self]
    intro index member
    exact decide_eq_true ((listed index).mp member)
  unfold incidencesOf
  rw [whole]
  refine ⟨List.length_map _, ?_, fun number => ?_⟩
  · refine List.Nodup.map_on (fun index first other second same => ?_) nodup
    exact positionOf_injective ((listed index).mp first) ((listed other).mp second)
      (Nat.add_left_cancel same)
  · rw [List.mem_map]
    constructor
    · rintro ⟨index, member, rfl⟩
      exact ⟨_, rfl, (getElem?_flatten_iff ascending).mpr ⟨index, (listed index).mp member, rfl⟩⟩
    · rintro ⟨position, rfl, holds⟩
      obtain ⟨index, member, rfl⟩ := (getElem?_flatten_iff ascending).mp holds
      exact ⟨index, (listed index).mpr member, rfl⟩

end

-- The numbering.

section

variable {I : Type} [LayoutIndex I]

/-- Numbers of the width are those of their IDs. -/
theorem mem_map_ofNat {numbers : List Nat} (fits : ∀ number ∈ numbers, number < LayoutIndex.bound I)
    {id : I} : id ∈ numbers.map LayoutIndex.ofNat ↔ toNat id ∈ numbers := by
  constructor
  · intro member
    obtain ⟨number, listed, rfl⟩ := List.mem_map.mp member
    rwa [toNat_ofNat number (fits number listed)]
  · intro member
    exact List.mem_map.mpr ⟨toNat id, member, ofNat_toNat id⟩

/-- Different numbers of the width are those of different IDs. -/
theorem nodup_map_ofNat {numbers : List Nat}
    (fits : ∀ number ∈ numbers, number < LayoutIndex.bound I) (nodup : numbers.Nodup) :
    (numbers.map (LayoutIndex.ofNat : Nat → I)).Nodup := by
  refine List.Nodup.of_map toNat ?_
  rwa [map_toNat_map_ofNat fits]

end

section

variable {V R O : Type} [LayoutIndex V] [LayoutIndex R] [LayoutIndex O]

namespace BcsrHypergraph

variable {view : BcsrHypergraph V R O} {incidence : O} {hyperedge : R} {vertex : V}

omit [LayoutIndex R] [LayoutIndex O] in
theorem containsElement_iff :
    view.containsElement vertex = some true ↔ toNat vertex < view.counts.vertexCount := by
  rw [containsElement_eq, Option.some.injEq, decide_eq_true_eq]

omit [LayoutIndex V] [LayoutIndex O] in
theorem containsRelation_iff :
    view.containsRelation hyperedge = some true ↔
      toNat hyperedge < view.counts.hyperedgeCount := by
  rw [containsRelation_eq, Option.some.injEq, decide_eq_true_eq]

omit [LayoutIndex V] [LayoutIndex R] in
theorem containsIncidence_iff :
    view.containsIncidence incidence = some true ↔
      toNat incidence < view.counts.totalIncidences := by
  rw [containsIncidence_eq, Option.some.injEq, decide_eq_true_eq]

omit [LayoutIndex V] [LayoutIndex R] in
/-- An incidence is a head exactly when its number is in the head block. -/
theorem incidenceRole_iff :
    (view.incidenceRole incidence = some .head ↔ toNat incidence < view.counts.pOutgoing) ∧
      (view.incidenceRole incidence = some .tail ↔ view.counts.pOutgoing ≤ toNat incidence) := by
  unfold incidenceRole
  simp only [indexToUsizeValidated_eq, Option.bind_eq_bind, Option.bind_some]
  split
  · rename_i head
    simp [head]
  · rename_i tail
    simp [tail, Nat.le_of_not_lt tail]

omit [LayoutIndex V] [LayoutIndex R] in
/-- A number below the total is that of an incidence when the total fits the width. -/
theorem exists_incidence (fits : view.counts.totalIncidences ≤ LayoutIndex.bound O) {number : Nat}
    (inside : number < view.counts.totalIncidences) : ∃ id : O, toNat id = number :=
  ⟨LayoutIndex.ofNat number, toNat_ofNat number (Nat.lt_of_lt_of_le inside fits)⟩

variable {heads tails outgoing incoming : List (List Nat)}
  (laid : LaidOut view.sections view.counts heads tails outgoing incoming)
include laid

/-- An incidence is of a hyperedge exactly when it is in a range of the hyperedge. -/
theorem incidenceRelation_iff (valid : toNat incidence < view.counts.totalIncidences) :
    view.incidenceRelation incidence = some hyperedge ↔
      toNat hyperedge < view.counts.hyperedgeCount ∧
        (toNat incidence ∈ incidenceRange heads 0 (toNat hyperedge) ∨
          toNat incidence ∈ incidenceRange tails view.counts.pOutgoing (toNat hyperedge)) := by
  constructor
  · intro found
    obtain ⟨owner, owned, located, range⟩ := incidenceRelation_spec laid valid
    rw [found] at located
    -- The owner has an ID, so it is the hyperedge itself.
    have named : owner < LayoutIndex.bound R := by
      by_contra unnamed
      rw [usizeToIndexValidated_eq_none (Nat.le_of_not_lt unnamed)] at located
      cases located
    rw [usizeToIndexValidated_eq named] at located
    rw [Option.some.inj located, toNat_ofNat owner named]
    exact ⟨owned, range⟩
  · rintro ⟨inside, range⟩
    rw [incidenceRelation_eq laid inside range,
      usizeToIndexValidated_eq (toNat_lt hyperedge), ofNat_toNat]

/-- An incidence is of a vertex exactly when the vertex is at its place in its block. -/
theorem incidenceElement_iff :
    view.incidenceElement incidence = some vertex ↔
      (toNat incidence < view.counts.pOutgoing ∧
        heads.flatten[toNat incidence]? = some (toNat vertex)) ∨
      (view.counts.pOutgoing ≤ toNat incidence ∧
        tails.flatten[toNat incidence - view.counts.pOutgoing]? = some (toNat vertex)) := by
  have words {values : List V} {position : Nat} :
      values[position]? = some vertex ↔ (values.map toNat)[position]? = some (toNat vertex) := by
    rw [List.getElem?_map, Option.map_eq_some_iff]
    constructor
    · intro read
      exact ⟨vertex, read, rfl⟩
    · rintro ⟨word, read, same⟩
      rw [read, toNat_injective same]
  unfold incidenceElement
  simp only [indexToUsizeValidated_eq, Option.bind_eq_bind, Option.bind_some]
  rw [← laid.outgoingRole.edges.values, ← laid.incomingRole.edges.values, ← words, ← words]
  split
  · rename_i head
    simp [head, Nat.not_le.mpr head]
  · rename_i tail
    simp [tail, Nat.le_of_not_lt tail]

/-- The head incidence of a hyperedge and a vertex is at the vertex's position in the heads. -/
theorem head_incidence_iff (valid : toNat incidence < view.counts.totalIncidences) :
    (view.incidenceRelation incidence = some hyperedge ∧
      view.incidenceElement incidence = some vertex ∧
      view.incidenceRole incidence = some .head) ↔
        toNat vertex ∈ heads.getD (toNat hyperedge) [] ∧
          toNat incidence = positionOf heads (toNat hyperedge) (toNat vertex) := by
  have nodup : ∀ set ∈ heads, set.Nodup := fun set member =>
    (laid.outgoingRole.setsAscending set member).nodup
  have located := @mem_incidenceRange_iff heads nodup 0 (toNat hyperedge) (toNat incidence)
    (toNat vertex)
  rw [Nat.zero_add, Nat.sub_zero] at located
  rw [incidenceRelation_iff laid valid, incidenceElement_iff laid, incidenceRole_iff.1, ← located]
  constructor
  · rintro ⟨⟨inside, range⟩, element, head⟩
    refine ⟨Nat.zero_le _, range.resolve_right fun tail => ?_, ?_⟩
    · exact absurd head (Nat.not_lt.mpr (bounds_of_mem_tailRange laid inside tail).1)
    · exact (element.resolve_right fun tail => absurd head (Nat.not_lt.mpr tail.1)).2
  · rintro ⟨past, range, holds⟩
    have inside : toNat hyperedge < view.counts.hyperedgeCount := by
      rw [← laid.outgoingRole.sets_length]
      exact lt_of_mem_getD (located.mp ⟨past, range, holds⟩).1
    have head := lt_of_mem_headRange laid inside range
    exact ⟨⟨inside, .inl range⟩, .inl ⟨head, holds⟩, head⟩

/-- The tail incidence of a hyperedge and a vertex is at the vertex's position in the tails. -/
theorem tail_incidence_iff (valid : toNat incidence < view.counts.totalIncidences) :
    (view.incidenceRelation incidence = some hyperedge ∧
      view.incidenceElement incidence = some vertex ∧
      view.incidenceRole incidence = some .tail) ↔
        toNat vertex ∈ tails.getD (toNat hyperedge) [] ∧
          toNat incidence =
            view.counts.pOutgoing + positionOf tails (toNat hyperedge) (toNat vertex) := by
  have nodup : ∀ set ∈ tails, set.Nodup := fun set member =>
    (laid.incomingRole.setsAscending set member).nodup
  have located := @mem_incidenceRange_iff tails nodup view.counts.pOutgoing (toNat hyperedge)
    (toNat incidence) (toNat vertex)
  rw [incidenceRelation_iff laid valid, incidenceElement_iff laid, incidenceRole_iff.2, ← located]
  constructor
  · rintro ⟨⟨inside, range⟩, element, tail⟩
    refine ⟨tail, range.resolve_left fun head => ?_, ?_⟩
    · exact absurd tail (Nat.not_le.mpr (lt_of_mem_headRange laid inside head))
    · exact (element.resolve_left fun head => absurd tail (Nat.not_le.mpr head.1)).2
  · rintro ⟨tail, range, holds⟩
    have inside : toNat hyperedge < view.counts.hyperedgeCount := by
      rw [← laid.incomingRole.sets_length]
      exact lt_of_mem_getD (located.mp ⟨tail, range, holds⟩).1
    exact ⟨⟨inside, .inr range⟩, .inr ⟨tail, holds⟩, tail⟩

-- The numbering when the incidences fit the width.

/-- A vertex is a participant exactly when the bucket lists it. -/
theorem mem_participants_iff :
    (vertex ∈ (heads.getD (toNat hyperedge) []).map LayoutIndex.ofNat ↔
      toNat vertex ∈ heads.getD (toNat hyperedge) []) ∧
    (vertex ∈ (tails.getD (toNat hyperedge) []).map LayoutIndex.ofNat ↔
      toNat vertex ∈ tails.getD (toNat hyperedge) []) := by
  have fits {offsets : List O} {values : List V} {buckets : List (List Nat)}
      (flat : Indexed offsets values buckets) :
      ∀ number ∈ buckets.getD (toNat hyperedge) [], number < LayoutIndex.bound V := by
    intro number member
    rw [← slots_bucket flat (lt_of_mem_getD member)] at member
    obtain ⟨word, _, rfl⟩ := List.mem_map.mp member
    exact toNat_lt word
  exact ⟨mem_map_ofNat (fits laid.outgoingRole.edges), mem_map_ofNat (fits laid.incomingRole.edges)⟩

section

variable (fits : view.counts.totalIncidences ≤ LayoutIndex.bound O)
include fits

/-- Every number of a range of a hyperedge is that of an ID. -/
theorem range_fits {index : Nat} (inside : index < view.counts.hyperedgeCount) :
    (∀ number ∈ incidenceRange heads 0 index, number < LayoutIndex.bound O) ∧
      ∀ number ∈ incidenceRange tails view.counts.pOutgoing index, number < LayoutIndex.bound O := by
  have total := laid.counted.total
  constructor
  · intro number member
    have := lt_of_mem_headRange laid inside member
    omega
  · intro number member
    have := (bounds_of_mem_tailRange laid inside member).2
    omega

/-- The tail incidences of every hyperedge fit the width. -/
theorem tails_fit (inside : toNat hyperedge < view.counts.hyperedgeCount) :
    (tails.getD (toNat hyperedge) []).length = 0 ∨
      view.counts.pOutgoing + (tails.take (toNat hyperedge)).flatten.length +
        (tails.getD (toNat hyperedge) []).length ≤ LayoutIndex.bound O := by
  have bound := laid.incomingRole.set_end_le inside
  have total := total_eq laid
  have pOutgoing := pOutgoing_eq laid
  omega

/-- Every incidence has a hyperedge, a vertex and a side. -/
theorem incidence_described (mirrored : AllMirrored heads tails outgoing incoming)
    (valid : toNat incidence < view.counts.totalIncidences) :
    ∃ hyperedge vertex role, view.incidenceRelation incidence = some hyperedge ∧
      view.incidenceElement incidence = some vertex ∧ view.incidenceRole incidence = some role ∧
      view.containsRelation hyperedge = some true ∧ view.containsElement vertex = some true := by
  have total := total_eq laid
  have narrowable := (narrowable_strict_iff laid mirrored).mpr (.inr (total ▸ fits))
  obtain ⟨owner, owned, located, range⟩ := incidenceRelation_spec laid valid
  rw [usizeToIndexValidated_eq (owner_named laid narrowable owned range)] at located
  have element := incidenceElement_eq laid valid
  refine ⟨_, _, _, located, element, incidenceRole_eq laid, ?_, ?_⟩
  · exact containsRelation_iff.mpr ((incidenceRelation_iff laid valid).mp located).1
  · refine containsElement_iff.mpr ?_
    rcases (incidenceElement_iff laid).mp element with ⟨_, holds⟩ | ⟨_, holds⟩
    · refine laid.outgoingRole.verticesBelow _ ?_
      rw [laid.outgoingRole.edges.values]
      exact List.mem_of_getElem? holds
    · refine laid.incomingRole.verticesBelow _ ?_
      rw [laid.incomingRole.edges.values]
      exact List.mem_of_getElem? holds

/-- A vertex is a head of a hyperedge exactly when it has an incidence there. -/
theorem mem_heads_iff :
    toNat vertex ∈ heads.getD (toNat hyperedge) [] ↔
      ∃ id, view.containsIncidence id = some true ∧ view.incidenceRelation id = some hyperedge ∧
        view.incidenceElement id = some vertex ∧ view.incidenceRole id = some .head := by
  constructor
  · intro member
    have bound := laid.outgoingRole.set_end_le (laid.outgoingRole.sets_length ▸ lt_of_mem_getD member)
    have position := positionOf_lt member
    have total := total_eq laid
    obtain ⟨id, number⟩ := exists_incidence fits
      (show positionOf heads (toNat hyperedge) (toNat vertex) < _ by omega)
    have valid : toNat id < view.counts.totalIncidences := by omega
    exact ⟨id, containsIncidence_iff.mpr valid,
      (head_incidence_iff laid valid).mpr ⟨member, number⟩⟩
  · rintro ⟨id, contained, found⟩
    exact ((head_incidence_iff laid (containsIncidence_iff.mp contained)).mp found).1

/-- A vertex is a tail of a hyperedge exactly when it has an incidence there. -/
theorem mem_tails_iff :
    toNat vertex ∈ tails.getD (toNat hyperedge) [] ↔
      ∃ id, view.containsIncidence id = some true ∧ view.incidenceRelation id = some hyperedge ∧
        view.incidenceElement id = some vertex ∧ view.incidenceRole id = some .tail := by
  constructor
  · intro member
    have bound := laid.incomingRole.set_end_le (laid.incomingRole.sets_length ▸ lt_of_mem_getD member)
    have position := positionOf_lt member
    have total := total_eq laid
    have pOutgoing := pOutgoing_eq laid
    obtain ⟨id, number⟩ := exists_incidence fits
      (show view.counts.pOutgoing + positionOf tails (toNat hyperedge) (toNat vertex) < _ by omega)
    have valid : toNat id < view.counts.totalIncidences := by omega
    exact ⟨id, containsIncidence_iff.mpr valid,
      (tail_incidence_iff laid valid).mpr ⟨member, number⟩⟩
  · rintro ⟨id, contained, found⟩
    exact ((tail_incidence_iff laid (containsIncidence_iff.mp contained)).mp found).1

/-- The incidences of a strict view whose total fits the width are numbered from zero. -/
theorem numbersIncidences (mirrored : AllMirrored heads tails outgoing incoming) :
    view.NumbersIncidences where
  count := (total_eq laid).symm
  named number inside := exists_incidence fits inside
  contains_iff id := containsIncidence_iff
  described id contained :=
    incidence_described laid fits mirrored (containsIncidence_iff.mp contained)
  distinct id other contained second sameRelation sameElement sameRole := by
    have valid := containsIncidence_iff.mp contained
    have otherValid := containsIncidence_iff.mp second
    obtain ⟨hyperedge, vertex, role, relation, element, side, _⟩ :=
      incidence_described laid fits mirrored valid
    have rival := And.intro (sameRelation.symm.trans relation)
      (And.intro (sameElement.symm.trans element) (sameRole.symm.trans side))
    -- Both are at the vertex's position on the side of the hyperedge.
    refine toNat_injective ?_
    cases role with
    | head =>
      have first := (head_incidence_iff laid valid).mp ⟨relation, element, side⟩
      have last := (head_incidence_iff laid otherValid).mp rival
      rw [first.2, last.2]
    | tail =>
      have first := (tail_incidence_iff laid valid).mp ⟨relation, element, side⟩
      have last := (tail_incidence_iff laid otherValid).mp rival
      rw [first.2, last.2]
  heads hyperedge contained := by
    refine ⟨_, sourceParticipants_eq laid (containsRelation_iff.mp contained), fun vertex => ?_⟩
    rw [(mem_participants_iff laid).1]
    exact mem_heads_iff laid fits
  tails hyperedge contained := by
    refine ⟨_, targetParticipants_eq laid (containsRelation_iff.mp contained), fun vertex => ?_⟩
    rw [(mem_participants_iff laid).2]
    exact mem_tails_iff laid fits

/-- The head incidences of a hyperedge are those of its range. -/
theorem lists_sources (inside : toNat hyperedge < view.counts.hyperedgeCount) :
    view.Lists ((incidenceRange heads 0 (toNat hyperedge)).map LayoutIndex.ofNat) fun id =>
      view.incidenceRelation id = some hyperedge ∧ view.incidenceRole id = some .head := by
  have numbered := (range_fits laid fits inside).1
  refine ⟨nodup_map_ofNat numbered List.nodup_range', fun id => ?_⟩
  rw [mem_map_ofNat numbered, containsIncidence_iff, incidenceRole_iff.1]
  have total := laid.counted.total
  constructor
  · intro member
    have head := lt_of_mem_headRange laid inside member
    have valid : toNat id < view.counts.totalIncidences := by omega
    exact ⟨valid, (incidenceRelation_iff laid valid).mpr ⟨inside, .inl member⟩, head⟩
  · rintro ⟨valid, relation, head⟩
    rcases ((incidenceRelation_iff laid valid).mp relation).2 with member | member
    · exact member
    · have := (bounds_of_mem_tailRange laid inside member).1
      omega

/-- The tail incidences of a hyperedge are those of its range. -/
theorem lists_targets (inside : toNat hyperedge < view.counts.hyperedgeCount) :
    view.Lists ((incidenceRange tails view.counts.pOutgoing (toNat hyperedge)).map
      LayoutIndex.ofNat) fun id =>
        view.incidenceRelation id = some hyperedge ∧ view.incidenceRole id = some .tail := by
  have numbered := (range_fits laid fits inside).2
  refine ⟨nodup_map_ofNat numbered List.nodup_range', fun id => ?_⟩
  rw [mem_map_ofNat numbered, containsIncidence_iff, incidenceRole_iff.2]
  constructor
  · intro member
    obtain ⟨tail, valid⟩ := bounds_of_mem_tailRange laid inside member
    exact ⟨valid, (incidenceRelation_iff laid valid).mpr ⟨inside, .inr member⟩, tail⟩
  · rintro ⟨valid, relation, tail⟩
    rcases ((incidenceRelation_iff laid valid).mp relation).2 with member | member
    · have := lt_of_mem_headRange laid inside member
      omega
    · exact member

/-- The incidences of a hyperedge are those of its two ranges. -/
theorem lists_relations (inside : toNat hyperedge < view.counts.hyperedgeCount) :
    view.Lists ((incidenceRange heads 0 (toNat hyperedge) ++
      incidenceRange tails view.counts.pOutgoing (toNat hyperedge)).map LayoutIndex.ofNat) fun id =>
        view.incidenceRelation id = some hyperedge := by
  have first := lists_sources laid fits inside
  have second := lists_targets laid fits inside
  rw [List.map_append]
  constructor
  · refine List.nodup_append.mpr ⟨first.nodup, second.nodup, ?_⟩
    rintro id head _ tail rfl
    have asHead := incidenceRole_iff.1.mp ((first.mem_iff id).mp head).2.2
    have asTail := incidenceRole_iff.2.mp ((second.mem_iff id).mp tail).2.2
    omega
  · intro id
    rw [List.mem_append, first.mem_iff, second.mem_iff, incidenceRole_iff.1, incidenceRole_iff.2]
    constructor
    · rintro (⟨contained, relation, _⟩ | ⟨contained, relation, _⟩)
      · exact ⟨contained, relation⟩
      · exact ⟨contained, relation⟩
    · rintro ⟨contained, relation⟩
      rcases Nat.lt_or_ge (toNat id) view.counts.pOutgoing with head | tail
      · exact .inl ⟨contained, relation, head⟩
      · exact .inr ⟨contained, relation, tail⟩

omit laid fits in
/-- The incidences of a vertex on one side are its positions in the sets, each once. -/
theorem incidencesOf_role {edgeOffsets vertexOffsets : List O} {edgeValues : List V}
    {vertexValues : List R} {sets relations : List (List Nat)}
    (role : RoleLaidOut view.counts.vertexCount view.counts.hyperedgeCount edgeOffsets edgeValues
      vertexOffsets vertexValues sets relations)
    (forth : Mirrored sets relations) (back : Mirrored relations sets) {base : Nat}
    (inside : toNat vertex < view.counts.vertexCount) :
    let incidences := incidencesOf sets base (toNat vertex) (relations.getD (toNat vertex) [])
    incidences.length = (relations.getD (toNat vertex) []).length ∧ incidences.Nodup ∧
      (∀ number, number ∈ incidences ↔
        ∃ position, number = base + position ∧ sets.flatten[position]? = some (toNat vertex)) ∧
      ∀ number ∈ incidences, base ≤ number ∧ number < base + edgeValues.length := by
  intro incidences
  have size : sets.flatten.length = edgeValues.length := by
    rw [← role.edges.values, List.length_map]
  have below := role.vertices.forall_values.mp role.hyperedgesBelow
  rw [← role.sets_length] at below
  rw [← role.relations_length] at inside
  obtain ⟨length, nodup, members⟩ := @incidencesOf_spec sets
    (fun set member => (role.setsAscending set member).nodup) base (toNat vertex) _
    (role.relationsAscending _ (List.mem_of_getElem? (getElem?_bucket inside))).nodup
    (fun index => mem_relations_iff forth back below inside)
  refine ⟨length, nodup, members, fun number member => ?_⟩
  obtain ⟨position, rfl, holds⟩ := (members number).mp member
  have := (List.getElem?_eq_some_iff.mp holds).1
  omega

/-- The incidences of a vertex are its positions in the heads and in the tails. -/
theorem lists_elements (mirrored : AllMirrored heads tails outgoing incoming)
    (inside : toNat vertex < view.counts.vertexCount) :
    ∃ incidences, view.elementIncidences vertex = some incidences ∧
      view.elementIncidenceCount vertex = some incidences.length ∧
      view.Lists incidences fun id => view.incidenceElement id = some vertex := by
  have inc := laid.incomingRole
  have total := total_eq laid
  have pOutgoing := pOutgoing_eq laid
  -- Head positions lie below the head block's end, and tail positions between it and the total.
  obtain ⟨firstLength, firstNodup, firstMem, firstBound⟩ := @incidencesOf_role _ _ _ _ _ _ view vertex
    _ _ _ _ _ _ laid.outgoingRole mirrored.ofHeads mirrored.ofOutgoing 0 inside
  obtain ⟨secondLength, secondNodup, secondMem, secondBound⟩ := @incidencesOf_role _ _ _ _ _ _ view
    vertex _ _ _ _ _ _ inc mirrored.ofTails mirrored.ofIncoming view.counts.pOutgoing inside
  have numbered : ∀ number ∈ incidencesOf heads 0 (toNat vertex)
      (outgoing.getD (toNat vertex) []) ++ incidencesOf tails view.counts.pOutgoing (toNat vertex)
      (incoming.getD (toNat vertex) []), number < LayoutIndex.bound O := by
    intro number member
    rcases List.mem_append.mp member with first | second
    · have := firstBound number first
      omega
    · have := (secondBound number second).2
      omega
  refine ⟨_, elementIncidences_eq laid inside ?_, ?_, nodup_map_ofNat numbered ?_, fun id => ?_⟩
  · intro index listed member
    refine numbered _ (List.mem_append_right _ ((secondMem _).mpr ⟨_, rfl, ?_⟩))
    exact (getElem?_flatten_iff fun set member => (inc.setsAscending set member).nodup).mpr
      ⟨index, member, rfl⟩
  · rw [elementIncidenceCount_eq laid inside, List.length_map, List.length_append, firstLength,
      secondLength]
  · refine List.nodup_append.mpr ⟨firstNodup, secondNodup, ?_⟩
    rintro number first _ second rfl
    have below := firstBound number first
    have above := (secondBound number second).1
    omega
  · rw [mem_map_ofNat numbered, containsIncidence_iff, incidenceElement_iff laid, List.mem_append,
      firstMem, secondMem]
    constructor
    · rintro (⟨position, number, holds⟩ | ⟨position, number, holds⟩)
      · have bound := firstBound _ ((firstMem _).mpr ⟨position, number, holds⟩)
        rw [Nat.zero_add] at number
        exact ⟨by omega, .inl ⟨by omega, number ▸ holds⟩⟩
      · have bound := secondBound _ ((secondMem _).mpr ⟨position, number, holds⟩)
        refine ⟨by omega, .inr ⟨bound.1, ?_⟩⟩
        rwa [number, Nat.add_sub_cancel_left]
    · rintro ⟨_, ⟨_, holds⟩ | ⟨tail, holds⟩⟩
      · exact .inl ⟨toNat id, (Nat.zero_add _).symm, holds⟩
      · exact .inr ⟨_, (Nat.add_sub_cancel' tail).symm, holds⟩

/-- Every list of incidences of a strict view whose total fits the width is complete. -/
theorem listsIncidences (mirrored : AllMirrored heads tails outgoing incoming) :
    view.ListsIncidences where
  sources hyperedge contained := by
    have inside := containsRelation_iff.mp contained
    exact ⟨_, sourceIncidences_eq laid inside, lists_sources laid fits inside⟩
  targets hyperedge contained := by
    have inside := containsRelation_iff.mp contained
    exact ⟨_, targetIncidences_eq laid inside (tails_fit laid fits inside),
      lists_targets laid fits inside⟩
  relations hyperedge contained := by
    have inside := containsRelation_iff.mp contained
    refine ⟨_, relationIncidences_eq laid inside (tails_fit laid fits inside), ?_,
      lists_relations laid fits inside⟩
    rw [relationIncidenceCount_eq laid inside, List.length_map, List.length_append, incidenceRange,
      incidenceRange, List.length_range', List.length_range']
  elements vertex contained :=
    lists_elements laid fits mirrored (containsElement_iff.mp contained)
  head_iff id contained := by
    constructor
    · intro head
      obtain ⟨hyperedge, _, _, relation, _, _, known, _⟩ :=
        incidence_described laid fits mirrored (containsIncidence_iff.mp contained)
      have inside := containsRelation_iff.mp known
      exact ⟨hyperedge, _, known, sourceIncidences_eq laid inside,
        ((lists_sources laid fits inside).mem_iff id).mpr ⟨contained, relation, head⟩⟩
    · rintro ⟨hyperedge, incidences, known, listed, member⟩
      have inside := containsRelation_iff.mp known
      rw [sourceIncidences_eq laid inside] at listed
      obtain rfl := Option.some.inj listed
      exact (((lists_sources laid fits inside).mem_iff id).mp member).2.2

/-- The walks of a view whose total fits the width yield their lists from both ends. -/
theorem walksIncidences : view.WalksIncidences where
  sources hyperedge contained := by
    have inside := containsRelation_iff.mp contained
    have bound := laid.outgoingRole.set_end_le inside
    have total := total_eq laid
    rw [← laid.outgoingRole.sets_length] at inside
    obtain ⟨slice, incidences, started, ran, yields⟩ :=
      @participantSlice_yields O _ V _ _ _ _ laid.outgoingRole.edges _ 0 inside (by omega)
    refine ⟨slice, incidences, ?_, ?_, yields⟩
    · rw [sourceSlice, indexToUsizeValidated_eq]
      exact started
    · rw [sourceIncidences, indexToUsizeValidated_eq, Option.bind_eq_bind, Option.bind_some, started]
      exact ran
  targets hyperedge contained := by
    have inside := containsRelation_iff.mp contained
    have tail := tails_fit laid fits inside
    rw [← laid.incomingRole.sets_length] at inside
    obtain ⟨slice, incidences, started, ran, yields⟩ :=
      participantSlice_yields laid.incomingRole.edges inside tail
    refine ⟨slice, incidences, ?_, ?_, yields⟩
    · rw [targetSlice, indexToUsizeValidated_eq]
      exact started
    · rw [targetIncidences, indexToUsizeValidated_eq, Option.bind_eq_bind, Option.bind_some, started]
      exact ran

end

end BcsrHypergraph

/--
The incidence IDs of a strict view whose total fits the incidence width are one consistent
numbering: each number below the total is one incidence, every list of incidences holds each of
its IDs once, and the walks over a side read the same list from both ends.
-/
theorem incidences_consistent {sections : BcsrSections V R O} {view : BcsrHypergraph V R O}
    (opened : BcsrHypergraph.openWith sections .strict = pure view)
    (fits : view.incidenceCount ≤ LayoutIndex.bound O) :
    view.NumbersIncidences ∧ view.ListsIncidences ∧ view.WalksIncidences := by
  obtain ⟨counts, accepted, opened⟩ := Fallible.bind_eq_pure.mp opened
  obtain rfl := Fallible.pure_eq_pure.mp opened
  obtain ⟨heads, tails, outgoing, incoming, laid, strict⟩ := validateSections_eq_pure.mp accepted
  have mirrored := strict rfl
  exact ⟨@BcsrHypergraph.numbersIncidences _ _ _ _ _ _ ⟨counts, sections⟩ _ _ _ _ laid fits mirrored,
    @BcsrHypergraph.listsIncidences _ _ _ _ _ _ ⟨counts, sections⟩ _ _ _ _ laid fits mirrored,
    @BcsrHypergraph.walksIncidences _ _ _ _ _ _ ⟨counts, sections⟩ _ _ _ _ laid fits⟩

/-- The three incidences of two hyperedges, one of them empty, are numbered consistently. -/
theorem incidences_consistent_two_hyperedges : ∃ view,
    BcsrHypergraph.openWith twoHyperedges .strict = pure view ∧
      view.NumbersIncidences ∧ view.ListsIncidences ∧ view.WalksIncidences := by
  obtain ⟨counts, accepted⟩ := twoHyperedges_validates
  obtain ⟨heads, tails, outgoing, incoming, laid, _⟩ := validateSections_eq_pure.mp accepted
  have total := @BcsrHypergraph.total_eq _ _ _ _ _ _ ⟨counts, twoHyperedges⟩ _ _ _ _ laid
  have opened : BcsrHypergraph.openWith twoHyperedges .strict = pure ⟨counts, twoHyperedges⟩ :=
    Fallible.bind_eq_pure.mpr ⟨counts, accepted, rfl⟩
  refine ⟨_, opened, incidences_consistent opened ?_⟩
  change 2 + 1 = counts.totalIncidences at total
  change counts.totalIncidences ≤ 2 ^ 32
  omega

end

end Oxgraph.Bcsr
