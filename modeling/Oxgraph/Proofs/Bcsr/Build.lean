import Oxgraph.Bcsr.Build
import Oxgraph.Proofs.Bcsr.Traversal

/-! What the hypergraph builders freeze, and that every shape of it answers alike. -/

namespace Oxgraph.Bcsr

open Layout Container
open Fallible (bind_eq_pure bind_of_pure pure_eq_pure)
open LayoutIndex (one_lt toNat_ofNat)
open List (ext_getElem length_map map_cons map_map)

section

variable {V R O IW : Type} [LayoutIndex V] [LayoutIndex R] [LayoutIndex O]

-- The hyperedge-major side.

/-- The vertices of each participant list, as slots. -/
def setsOf (lists : List (List (V × IW))) : List (List Nat) :=
  lists.map fun participants => participants.map fun participant => toNat participant.1

omit [LayoutIndex V] in
/-- Appending participants flattens their vertices, with the weights alongside. -/
theorem appendParticipants_eq (lists : List (List (V × IW))) (offsets : List O)
    (vertices : List V) (weights : List IW) :
    appendParticipants lists (offsets, vertices, weights) =
      (flattenBuckets (lists.map fun participants => participants.map Prod.fst)
        (offsets, vertices)).map fun built =>
          (built.1, built.2, weights ++ (lists.flatten.map Prod.snd)) := by
  induction lists generalizing offsets vertices weights with
  | nil => simp [appendParticipants, flattenBuckets, Except.map]
  | cons participants rest ih =>
    rw [appendParticipants, map_cons, flattenBuckets]
    cases (indexFromUsize (vertices ++ participants.map Prod.fst).length : Except Nat O) with
    | error value => rfl
    | ok offset =>
      refine (ih _ _ _).trans ?_
      rw [List.flatten_cons, List.map_append, List.append_assoc]
      rfl

variable {weights : List IW}

/-- Participants are laid out from the first offset when they can be counted. -/
theorem appendParticipants_start {lists : List (List (V × IW))} {start : O} {offsets : List O}
    {vertices : List V} {all : List IW} (origin : toNat start = 0)
    (appended : appendParticipants lists ([start], [], weights) = .ok (offsets, vertices, all)) :
    Indexed offsets vertices (setsOf lists) ∧ all = weights ++ lists.flatten.map Prod.snd := by
  rw [appendParticipants_eq] at appended
  obtain ⟨built, flattened, same⟩ := map_eq_ok appended
  cases same
  obtain ⟨_, offsets, vertices⟩ := flattenBuckets_eq_ok.mp flattened
  have first := runningOffsets_eq_cons 0 (lists.map fun participants => participants.map Prod.fst)
  have flat : Flattened (built.1.map toNat) built.2
      (lists.map fun participants => participants.map Prod.fst) := by
    constructor
    · rw [offsets, first, map_cons, List.map_nil, origin]
      rfl
    · exact vertices
  refine ⟨?_, rfl⟩
  have slots := flat.map toNat
  rw [map_map] at slots
  have same : (lists.map ((fun bucket : List V => bucket.map toNat) ∘
      fun participants => participants.map Prod.fst)) = setsOf lists := by
    refine List.map_congr_left fun participants _ => ?_
    exact map_map
  rwa [same] at slots

/-- As many slots stand in the sets as participants are listed. -/
theorem length_flatten_setsOf (lists : List (List (V × IW))) :
    (setsOf lists).flatten.length =
      (lists.map fun participants => participants.map Prod.fst).flatten.length := by
  rw [List.length_flatten, List.length_flatten, setsOf, map_map, map_map]
  congr 1
  refine List.map_congr_left fun participants _ => ?_
  simp only [Function.comp_apply, length_map]

/-- Participants that can be counted are appended. -/
theorem appendParticipants_ok (lists : List (List (V × IW))) (start : O) (weights : List IW)
    (fits : (setsOf lists).flatten.length < LayoutIndex.bound O) :
    ∃ built, appendParticipants lists ([start], [], weights) = .ok built := by
  rw [length_flatten_setsOf] at fits
  obtain ⟨built, flattened⟩ := @flattenBuckets_ok O V _
    (lists.map fun participants => participants.map Prod.fst) [start] []
    (by rwa [List.length_nil, Nat.zero_add])
  rw [appendParticipants_eq, flattened]
  exact ⟨_, rfl⟩

/-- Participants that cannot be counted are refused. -/
theorem appendParticipants_error (lists : List (List (V × IW))) (start : O) (weights : List IW)
    (wide : LayoutIndex.bound O ≤ (setsOf lists).flatten.length) :
    ∃ value, appendParticipants lists ([start], [], weights) = .error value := by
  rw [length_flatten_setsOf] at wide
  rw [appendParticipants_eq]
  cases flattened : flattenBuckets (lists.map fun participants => participants.map Prod.fst)
      ([start], []) with
  | error value => exact ⟨value, rfl⟩
  | ok built =>
    -- What was flattened was counted by a word of the width, or there was nothing to count.
    rcases (flattenBuckets_eq_ok.mp flattened).1 with none | fits
    · rw [none] at wide
      exact absurd wide (Nat.not_le.mpr (Nat.lt_trans Nat.zero_lt_one one_lt))
    · rw [List.length_nil, Nat.zero_add] at fits
      exact absurd wide (Nat.not_le.mpr fits)

-- The vertex-major side.

omit [LayoutIndex R] in
/-- Pushing a hyperedge's participants appends it to the bucket of each. -/
theorem pushRelation_eq {relation : R} {participants : List (V × IW)} {buckets : List (List R)}
    (inside : ∀ participant ∈ participants, toNat participant.1 < buckets.length)
    (nodup : (participants.map fun participant => toNat participant.1).Nodup) :
    (pushRelation relation participants buckets : Fallible (HyperBuildError V R) _) =
      pure (buckets.mapIdx fun vertex bucket =>
        if vertex ∈ participants.map (fun participant => toNat participant.1) then
          bucket ++ [relation]
        else bucket) := by
  induction participants generalizing buckets with
  | nil =>
    refine congrArg pure (ext_getElem (by simp) fun vertex _ _ => ?_)
    simp
  | cons participant rest ih =>
    rw [List.forall_mem_cons] at inside
    rw [map_cons, List.nodup_cons] at nodup
    have located := List.getElem?_eq_getElem inside.1
    rw [pushRelation, toUsize_eq]
    simp only [located]
    refine (ih ?_ nodup.2).trans ?_
    · simpa using inside.2
    · congr 1
      refine ext_getElem (by simp) fun vertex first second => ?_
      simp only [List.getElem_mapIdx, List.getElem_set, map_cons, List.mem_cons]
      by_cases same : toNat participant.1 = vertex
      · subst same
        simp [nodup.1]
      · have differ : vertex ≠ toNat participant.1 := fun equal => same equal.symm
        simp only [if_neg same, differ, false_or]

/-- Pushing hyperedges appends to each vertex's bucket those it takes part in. -/
theorem pushRelations_eq {first : Nat} {lists : List (List (V × IW))} {buckets : List (List R)}
    (named : first + lists.length ≤ LayoutIndex.bound R)
    (inside : ∀ set ∈ setsOf lists, ∀ vertex ∈ set, vertex < buckets.length)
    (nodup : ∀ set ∈ setsOf lists, set.Nodup) :
    ∃ filled, (pushRelations first lists buckets : Fallible (HyperBuildError V R) _) =
        pure filled ∧
      filled.map (fun bucket => bucket.map toNat) = buckets.mapIdx fun vertex bucket =>
        bucket.map toNat ++ (occurrences (setsOf lists) vertex).map (first + ·) := by
  induction lists generalizing first buckets with
  | nil =>
    refine ⟨buckets, rfl, ext_getElem (by simp) fun vertex _ _ => ?_⟩
    simp [setsOf, occurrences]
  | cons participants rest ih =>
    rw [List.length_cons] at named
    rw [setsOf, map_cons, List.forall_mem_cons] at inside nodup
    have id : toNat (LayoutIndex.ofNat first : R) = first :=
      toNat_ofNat first (by omega)
    have pushed := @pushRelation_eq _ _ _ _ (LayoutIndex.ofNat first : R) _ _
      (fun participant member => inside.1 _ (List.mem_map_of_mem member)) nodup.1
    -- The buckets grow by one relation, whose number is the first.
    obtain ⟨filled, others, filled_eq⟩ := @ih (first + 1)
      (buckets.mapIdx fun vertex bucket =>
        if vertex ∈ participants.map (fun participant => toNat participant.1) then
          bucket ++ [(LayoutIndex.ofNat first : R)]
        else bucket)
      (by omega) (by rw [List.length_mapIdx]; exact inside.2) nodup.2
    refine ⟨filled, ?_, ?_⟩
    · rw [pushRelations, indexFromUsize_eq_ok.mpr id]
      refine bind_eq_pure.mpr ⟨LayoutIndex.ofNat first, rfl, ?_⟩
      exact bind_eq_pure.mpr ⟨_, pushed, others⟩
    · have step (vertex : Nat) (bucket : List R) :
          (if vertex ∈ participants.map (fun participant => toNat participant.1) then
            bucket ++ [(LayoutIndex.ofNat first : R)] else bucket).map toNat ++
              (occurrences (setsOf rest) vertex).map (first + 1 + ·) =
            bucket.map toNat ++
              (occurrences (setsOf (participants :: rest)) vertex).map (first + ·) := by
        have cons : setsOf (participants :: rest) =
            (participants.map fun participant => toNat participant.1) :: setsOf rest := rfl
        have shift : (first + ·) ∘ (1 + ·) = (first + 1 + ·) := by
          funext index
          exact (Nat.add_assoc first 1 index).symm
        rw [cons, occurrences_cons, List.map_append, map_map, shift, ← List.append_assoc]
        split
        · simp [id]
        · simp
      rw [filled_eq]
      refine ext_getElem (by simp) fun vertex _ _ => ?_
      simp only [List.getElem_mapIdx]
      exact step vertex _

/-- The vertices of the records in a role, as slots. -/
def roleSets (records : List (NormalizedHyperedgeRecord V IW)) (role : HyperParticipantRole) :
    List (List Nat) := setsOf (records.map fun record => record.participants role)

variable {records : List (NormalizedHyperedgeRecord V IW)} {vertexCount : Nat}

/-- The index of a role is the transpose of its participants. -/
theorem buildVertexRelationIndex_ok {role : HyperParticipantRole}
    (memory : vertexCount ≤ sliceBound vecBytes) (named : records.length ≤ LayoutIndex.bound R)
    (inside : ∀ set ∈ roleSets records role, ∀ vertex ∈ set, vertex < vertexCount)
    (nodup : ∀ set ∈ roleSets records role, set.Nodup)
    (fits : (roleSets records role).flatten.length < LayoutIndex.bound O) :
    ∃ built : List O × List R,
      (buildVertexRelationIndex vertexCount records role : Fallible (HyperBuildError V R) _) =
          pure built ∧
        Indexed built.1 built.2 (transpose vertexCount (roleSets records role)) := by
  have empty : (repeatOrPanic vecBytes vertexCount [] : Option (List (List R))) =
      some (List.replicate vertexCount []) := if_pos memory
  obtain ⟨filled, pushed, filled_eq⟩ := @pushRelations_eq _ _ _ _ _ _ _
    (List.replicate vertexCount ([] : List R)) (by rwa [Nat.zero_add, length_map])
    (by rwa [List.length_replicate]) nodup
  have transposed : filled.map (fun bucket => bucket.map toNat) =
      transpose vertexCount (roleSets records role) := by
    rw [filled_eq]
    refine ext_getElem (by simp) fun vertex _ _ => ?_
    simp [transpose, roleSets]
  have count : filled.flatten.length = (roleSets records role).flatten.length := by
    rw [← length_flatten_transpose nodup inside, ← transposed, ← List.map_flatten,
      length_map]
  obtain ⟨built, indexed⟩ := @buildOffsetIndex_ok O _ _ filled (by rwa [count])
  refine ⟨built, ?_, ?_⟩
  · refine bind_eq_pure.mpr ⟨_, Fallible.orPanic_eq_pure.mpr empty, ?_⟩
    refine bind_eq_pure.mpr ⟨_, pushed, ?_⟩
    rw [indexed]
    rfl
  · have flat := (buildOffsetIndex_eq_ok.mp indexed).2.map toNat
    rwa [transposed] at flat

omit [LayoutIndex R] in
/-- Pushing a hyperedge keeps the buckets' number. -/
theorem length_pushRelation {relation : R} {participants : List (V × IW)}
    {buckets filled : List (List R)}
    (pushed : (pushRelation relation participants buckets : Fallible (HyperBuildError V R) _) =
      pure filled) : filled.length = buckets.length := by
  induction participants generalizing buckets with
  | nil =>
    rw [pushRelation, pure_eq_pure] at pushed
    rw [pushed]
  | cons participant rest ih =>
    rw [pushRelation, toUsize_eq] at pushed
    obtain ⟨bucket, _, pushed⟩ := bind_eq_pure.mp pushed
    rw [ih pushed, List.length_set]

/-- Pushing hyperedges keeps the buckets' number. -/
theorem length_pushRelations {first : Nat} {lists : List (List (V × IW))}
    {buckets filled : List (List R)}
    (pushed : (pushRelations first lists buckets : Fallible (HyperBuildError V R) _) =
      pure filled) : filled.length = buckets.length := by
  induction lists generalizing first buckets with
  | nil =>
    rw [pushRelations, pure_eq_pure] at pushed
    rw [pushed]
  | cons participants rest ih =>
    rw [pushRelations] at pushed
    obtain ⟨_, _, pushed⟩ := bind_eq_pure.mp pushed
    obtain ⟨middle, one, others⟩ := bind_eq_pure.mp pushed
    rw [ih others, length_pushRelation one]

/-- The index of a role has one offset more than there are vertices. -/
theorem length_buildVertexRelationIndex {role : HyperParticipantRole} {built : List O × List R}
    (index : (buildVertexRelationIndex vertexCount records role :
      Fallible (HyperBuildError V R) _) = pure built) : built.1.length = vertexCount + 1 := by
  unfold buildVertexRelationIndex at index
  obtain ⟨buckets, empty, index⟩ := bind_eq_pure.mp index
  obtain ⟨filled, pushed, index⟩ := bind_eq_pure.mp index
  rw [Fallible.ofResult_eq_pure, mapError_eq_ok] at index
  have flat := (buildOffsetIndex_eq_ok.mp index).2
  have length := flat.length_offsets
  rw [length_map, length_pushRelations pushed] at length
  rw [Fallible.orPanic_eq_pure, repeatOrPanic] at empty
  split at empty
  · cases empty
    rw [length, List.length_replicate]
  · cases empty

/-- Records whose participants ascend below the vertex count, few enough to be numbered. -/
structure Canonical (R : Type) [LayoutIndex R] (vertexCount : Nat)
    (records : List (NormalizedHyperedgeRecord V IW)) : Prop where
  ascending : ∀ role, ∀ set ∈ roleSets records role, set.Pairwise (· < ·)
  below : ∀ role, ∀ set ∈ roleSets records role, ∀ vertex ∈ set, vertex < vertexCount
  named : records.length ≤ LayoutIndex.bound R

omit [LayoutIndex V] [LayoutIndex R] in
/-- An index that fits is converted. -/
theorem converted {T : Type} {result : Except Nat T} {value : T} (ok : result = .ok value) :
    (Fallible.ofResult (result.mapError .idOverflow) : Fallible (HyperBuildError V R) T) =
      pure value := by
  rw [ok]
  rfl

/-- Canonical records are laid out as the sections of a hypergraph. -/
theorem buildTopology_ok (canonical : Canonical R vertexCount records)
    (memory : vertexCount ≤ sliceBound vecBytes)
    (fits : ∀ role, (roleSets records role).flatten.length < LayoutIndex.bound O) :
    ∃ (topology : FrozenTopology V R O) (graph : Hypergraph),
      (buildTopology vertexCount records : Fallible (HyperBuildError V R) _) =
          pure (topology, (records.map (·.sources)).flatten.map Prod.snd ++
            (records.map (·.targets)).flatten.map Prod.snd) ∧
        graph.EncodedBy topology.sections ∧ topology.vertexCount = vertexCount ∧
        graph.vertexCount = vertexCount ∧ graph.heads = roleSets records .source ∧
        graph.tails = roleSets records .target := by
  have positive : 0 < LayoutIndex.bound O := Nat.lt_trans Nat.zero_lt_one one_lt
  have origin := toNat_ofNat (I := O) 0 positive
  have start : (indexFromUsize 0 : Except Nat O) = .ok (LayoutIndex.ofNat 0) :=
    indexFromUsize_eq_ok.mpr origin
  have nodup (role : HyperParticipantRole) : ∀ set ∈ roleSets records role, set.Nodup :=
    fun set member => (canonical.ascending role set member).nodup
  -- Heads and tails are appended in turn, then each vertex index is built from the sets.
  obtain ⟨⟨headOffsets, headParticipants, headWeights⟩, headsAppended⟩ :=
    appendParticipants_ok (records.map NormalizedHyperedgeRecord.sources)
      (LayoutIndex.ofNat 0 : O) [] (fits .source)
  obtain ⟨headsFlat, headWeights_eq⟩ := appendParticipants_start origin headsAppended
  obtain ⟨⟨tailOffsets, tailParticipants, weights⟩, tailsAppended⟩ :=
    appendParticipants_ok (records.map NormalizedHyperedgeRecord.targets)
      (LayoutIndex.ofNat 0 : O) headWeights (fits .target)
  obtain ⟨tailsFlat, weights_eq⟩ := appendParticipants_start origin tailsAppended
  obtain ⟨⟨outgoingOffsets, outgoingHyperedges⟩, outgoingBuilt, outgoingFlat⟩ :=
    buildVertexRelationIndex_ok memory canonical.named (canonical.below .source) (nodup .source)
      (fits .source)
  obtain ⟨⟨incomingOffsets, incomingHyperedges⟩, incomingBuilt, incomingFlat⟩ :=
    buildVertexRelationIndex_ok memory canonical.named (canonical.below .target) (nodup .target)
      (fits .target)
  have paired : (roleSets records .source).length = (roleSets records .target).length := by
    simp only [roleSets, setsOf, length_map]
  obtain ⟨hyperedges, heads, tails⟩ := exists_hyperedges paired (canonical.ascending .source)
    (canonical.ascending .target) (canonical.below .source) (canonical.below .target)
  let topology : FrozenTopology V R O :=
    { vertexCount, headOffsets, headParticipants, tailOffsets, tailParticipants
      vertexOutgoingOffsets := outgoingOffsets
      vertexOutgoingHyperedges := outgoingHyperedges
      vertexIncomingOffsets := incomingOffsets
      vertexIncomingHyperedges := incomingHyperedges }
  refine ⟨topology, ⟨vertexCount, hyperedges⟩, ?_, ⟨?_, ?_, ?_, ?_⟩, rfl, rfl, heads, tails⟩
  · rw [headWeights_eq, List.nil_append] at weights_eq
    rw [← weights_eq]
    unfold buildTopology
    refine bind_eq_pure.mpr ⟨_, converted start, ?_⟩
    refine bind_eq_pure.mpr ⟨_, converted start, ?_⟩
    refine bind_eq_pure.mpr ⟨_, converted headsAppended, ?_⟩
    refine bind_eq_pure.mpr ⟨_, converted tailsAppended, ?_⟩
    refine bind_eq_pure.mpr ⟨_, outgoingBuilt, ?_⟩
    exact bind_eq_pure.mpr ⟨_, incomingBuilt, rfl⟩
  · rw [heads]
    exact headsFlat
  · rw [tails]
    exact tailsFlat
  · rw [Hypergraph.outgoing, heads]
    exact outgoingFlat
  · rw [Hypergraph.incoming, tails]
    exact incomingFlat

/-- Participants of a role that the width cannot count are refused. -/
theorem buildTopology_error {vertexCount : Nat} {records : List (NormalizedHyperedgeRecord V IW)}
    {role : HyperParticipantRole}
    (wide : LayoutIndex.bound O ≤ (roleSets records role).flatten.length) :
    ∃ error, (buildTopology vertexCount records :
      Fallible (HyperBuildError V R) (FrozenTopology V R O × List IW)) = throw error := by
  have positive : 0 < LayoutIndex.bound O := Nat.lt_trans Nat.zero_lt_one one_lt
  have start : (indexFromUsize 0 : Except Nat O) = .ok (LayoutIndex.ofNat 0) :=
    indexFromUsize_eq_ok.mpr (toNat_ofNat 0 positive)
  have refuses {T : Type} {result : Except Nat T} {value : Nat} (refused : result = .error value) :
      (Fallible.ofResult (result.mapError .idOverflow) : Fallible (HyperBuildError V R) T) =
        throw (.idOverflow value) := by
    rw [refused]
    rfl
  unfold buildTopology
  cases heads : (appendParticipants (records.map NormalizedHyperedgeRecord.sources)
      ([(LayoutIndex.ofNat 0 : O)], [], [])) with
  | error value =>
    refine ⟨.idOverflow value, ?_⟩
    refine (bind_of_pure (converted start)).trans ?_
    refine (bind_of_pure (converted start)).trans ?_
    exact Fallible.bind_of_throw (refuses heads)
  | ok built =>
    obtain ⟨headOffsets, headParticipants, weights⟩ := built
    cases role with
    | source =>
      -- The heads were counted, so they are not what is too many.
      obtain ⟨value, refused⟩ := appendParticipants_error
        (records.map NormalizedHyperedgeRecord.sources) (LayoutIndex.ofNat 0 : O) [] wide
      cases heads.symm.trans refused
    | target =>
      obtain ⟨value, refused⟩ := appendParticipants_error
        (records.map NormalizedHyperedgeRecord.targets) (LayoutIndex.ofNat 0 : O) weights wide
      refine ⟨.idOverflow value, ?_⟩
      refine (bind_of_pure (converted start)).trans ?_
      refine (bind_of_pure (converted start)).trans ?_
      refine (bind_of_pure (converted heads)).trans ?_
      exact Fallible.bind_of_throw (refuses refused)

-- The frozen hypergraph and its view.

variable {topology : FrozenTopology V R O}

/-- A built topology has one outgoing offset more than vertices. -/
theorem length_outgoingOffsets
    (built : (buildTopology vertexCount records : Fallible (HyperBuildError V R) _) =
      pure (topology, weights)) :
    topology.vertexOutgoingOffsets.length = topology.vertexCount + 1 := by
  unfold buildTopology at built
  obtain ⟨_, _, built⟩ := bind_eq_pure.mp built
  obtain ⟨_, _, built⟩ := bind_eq_pure.mp built
  obtain ⟨_, _, built⟩ := bind_eq_pure.mp built
  obtain ⟨_, _, built⟩ := bind_eq_pure.mp built
  obtain ⟨_, outgoing, built⟩ := bind_eq_pure.mp built
  obtain ⟨_, _, built⟩ := bind_eq_pure.mp built
  cases pure_eq_pure.mp built
  exact length_buildVertexRelationIndex outgoing

/-- A built topology holds the participants of both roles, and their weights in the same order. -/
theorem buildTopology_blocks
    (built : (buildTopology vertexCount records : Fallible (HyperBuildError V R) _) =
      pure (topology, weights)) :
    topology.vertexCount = vertexCount ∧
      Indexed topology.headOffsets topology.headParticipants (roleSets records .source) ∧
      Indexed topology.tailOffsets topology.tailParticipants (roleSets records .target) ∧
      weights = (records.map (·.sources)).flatten.map Prod.snd ++
        (records.map (·.targets)).flatten.map Prod.snd := by
  have origin {start : O} (converted : (.ofResult ((indexFromUsize 0).mapError .idOverflow) :
      Fallible (HyperBuildError V R) O) = pure start) : toNat start = 0 := by
    rw [Fallible.ofResult_eq_pure, mapError_eq_ok] at converted
    exact indexFromUsize_eq_ok.mp converted
  unfold buildTopology at built
  obtain ⟨headStart, headOrigin, built⟩ := bind_eq_pure.mp built
  obtain ⟨tailStart, tailOrigin, built⟩ := bind_eq_pure.mp built
  obtain ⟨⟨headOffsets, headParticipants, headWeights⟩, heads, built⟩ :=
    bind_eq_pure.mp built
  obtain ⟨⟨tailOffsets, tailParticipants, tailWeights⟩, tails, built⟩ :=
    bind_eq_pure.mp built
  obtain ⟨_, _, built⟩ := bind_eq_pure.mp built
  obtain ⟨_, _, built⟩ := bind_eq_pure.mp built
  cases pure_eq_pure.mp built
  rw [Fallible.ofResult_eq_pure, mapError_eq_ok] at heads tails
  obtain ⟨headsFlat, headWeights_eq⟩ := appendParticipants_start (origin headOrigin) heads
  obtain ⟨tailsFlat, weights_eq⟩ := appendParticipants_start (origin tailOrigin) tails
  rw [headWeights_eq, List.nil_append] at weights_eq
  exact ⟨rfl, headsFlat, tailsFlat, weights_eq⟩

/-- Freezing accepts exactly the topologies that pass the strict level. -/
theorem validateFrozenTopology_eq_pure :
    (validateFrozenTopology topology : Fallible (HyperBuildError V R) _) = pure () ↔
      ∃ counts, validateSections topology.sections .strict = pure counts := by
  unfold validateFrozenTopology BcsrHypergraph.openWith
  constructor
  · intro validated
    obtain ⟨view, opened, _⟩ := bind_eq_pure.mp validated
    obtain ⟨counts, accepted, _⟩ := bind_eq_pure.mp (Fallible.adapt_eq_pure.mp opened)
    exact ⟨counts, accepted⟩
  · rintro ⟨counts, accepted⟩
    refine bind_eq_pure.mpr ⟨⟨counts, topology.sections⟩, ?_, rfl⟩
    exact Fallible.adapt_eq_pure.mpr (bind_eq_pure.mpr ⟨counts, accepted, rfl⟩)

omit [LayoutIndex V] [LayoutIndex R] [LayoutIndex O] in
/-- The view of a frozen topology has the counts that validation derives. -/
theorem asView_eq {counts : DerivedCounts} (counted : counts.Of topology.sections) :
    topology.asView = ⟨counts, topology.sections⟩ := by
  obtain ⟨vertexCount, hyperedgeCount, pOutgoing, pIncoming, total⟩ := counts
  obtain ⟨heads, _, outgoing, _, out, inc, sum, fits⟩ := counted
  dsimp only at heads outgoing out inc sum fits
  unfold FrozenTopology.asView BcsrHypergraph.fromValidatedSections
  dsimp only
  rw [← out, ← inc, sum, heads, outgoing, Nat.add_sub_cancel, Nat.add_sub_cancel,
    Nat.min_eq_left (by omega)]

/-- A frozen hypergraph answers as its view does. -/
theorem traits_eq {counts : DerivedCounts} {heads tails outgoing incoming : List (List Nat)}
    (laid : LaidOut topology.sections counts heads tails outgoing incoming)
    (vertices : topology.vertexOutgoingOffsets.length = topology.vertexCount + 1) :
    topology.traits = topology.asView.traits.mapRole BcsrRole.participantRole := by
  have total : topology.headParticipants.length + topology.tailParticipants.length =
      counts.totalIncidences := @BcsrHypergraph.total_eq _ _ _ _ _ _ ⟨counts, _⟩ _ _ _ _ laid
  have fits := laid.counted.fits
  have count : counts.vertexCount = topology.vertexCount :=
    Nat.succ.inj (laid.counted.outgoingOffsets.symm.trans vertices)
  have edges : topology.relationCount = counts.hyperedgeCount := by
    have := laid.counted.headOffsets
    unfold FrozenTopology.relationCount
    change topology.headOffsets.length = _ at this
    omega
  have incidences : topology.totalParticipants = counts.totalIncidences := by
    unfold FrozenTopology.totalParticipants
    rw [total]
    omega
  -- The frozen topology counts from its lengths what the view counts from its derived counts.
  have view := asView_eq laid.counted
  have elements : topology.vertexCount = topology.asView.elementCount := by rw [view, ← count]; rfl
  have relations : topology.relationCount = topology.asView.relationCount := by rw [view, edges]; rfl
  have participants : topology.totalParticipants = topology.asView.incidenceCount := by
    rw [view, incidences]
    rfl
  have slot {I : Type} [LayoutIndex I] (index : I) : slotOrMax index = toNat index := by
    rw [slotOrMax, toUsize_eq, Option.getD_some]
  have inside {I : Type} [LayoutIndex I] (index : I) (bound : Nat) :
      ((toUsize index).any fun slot => slot < bound) = decide (toNat index < bound) := by
    rw [toUsize_eq, Option.any_some]
  unfold FrozenTopology.traits HyperTraits.mapRole BcsrHypergraph.traits
  rw [elements, relations, participants]
  congr 1
  · funext element
    rw [slot]
    exact (indexToUsizeValidated_eq element).symm
  · funext relation
    rw [slot]
    exact (indexToUsizeValidated_eq relation).symm
  · funext incidence
    rw [slot]
    exact (indexToUsizeValidated_eq incidence).symm
  · funext element
    rw [inside]
    exact (BcsrHypergraph.containsElement_eq element).symm
  · funext relation
    rw [inside]
    exact (BcsrHypergraph.containsRelation_eq relation).symm
  · funext incidence
    rw [inside]
    exact (BcsrHypergraph.containsIncidence_eq incidence).symm

/-- What freezing an accepted topology leaves to rely on. -/
structure Frozen (topology : FrozenTopology V R O) : Prop where
  accepted : ∃ counts, validateSections topology.sections .strict = pure counts
  vertices : topology.vertexOutgoingOffsets.length = topology.vertexCount + 1

/-- A built topology that passes validation is frozen. -/
theorem frozen_of_built
    (built : (buildTopology vertexCount records : Fallible (HyperBuildError V R) _) =
      pure (topology, weights))
    (validated : (validateFrozenTopology topology : Fallible (HyperBuildError V R) _) = pure ()) :
    Frozen topology :=
  ⟨validateFrozenTopology_eq_pure.mp validated, length_outgoingOffsets built⟩

/-- An unweighted hypergraph is frozen over a built and validated topology. -/
theorem HypergraphBuilder.freeze_eq_pure {builder : HypergraphBuilder V R O}
    {graph : FrozenHypergraph V R O} :
    builder.freeze = pure graph ↔ ∃ weights,
      (buildTopology builder.vertexCount builder.normalizedHyperedges :
        Fallible (HyperBuildError V R) _) = pure (graph.topology, weights) ∧
      (validateFrozenTopology graph.topology : Fallible (HyperBuildError V R) _) = pure () := by
  unfold HypergraphBuilder.freeze
  constructor
  · intro frozen
    obtain ⟨⟨topology, weights⟩, built, frozen⟩ := bind_eq_pure.mp frozen
    obtain ⟨_, validated, frozen⟩ := bind_eq_pure.mp frozen
    cases pure_eq_pure.mp frozen
    exact ⟨weights, built, validated⟩
  · rintro ⟨weights, built, validated⟩
    refine bind_eq_pure.mpr ⟨_, built, ?_⟩
    exact bind_eq_pure.mpr ⟨(), validated, rfl⟩

/-- A weighted hypergraph is frozen over a built and validated topology. -/
theorem WeightedHypergraphBuilder.freeze_eq_pure {EW RW : Type}
    {builder : WeightedHypergraphBuilder V R O EW RW IW}
    {graph : FrozenWeightedHypergraph V R O EW RW IW} :
    builder.freeze = pure graph ↔
      (buildTopology builder.vertexCount builder.normalizedHyperedges :
        Fallible (HyperBuildError V R) _) = pure (graph.topology, graph.incidenceWeights) ∧
      (validateFrozenTopology graph.topology : Fallible (HyperBuildError V R) _) = pure () ∧
      graph.elementWeights = builder.elementWeights ∧
      graph.relationWeights = builder.relationWeights := by
  unfold WeightedHypergraphBuilder.freeze
  constructor
  · intro frozen
    obtain ⟨⟨topology, weights⟩, built, frozen⟩ := bind_eq_pure.mp frozen
    obtain ⟨_, validated, frozen⟩ := bind_eq_pure.mp frozen
    cases pure_eq_pure.mp frozen
    exact ⟨built, validated, rfl, rfl⟩
  · rintro ⟨built, validated, elements, relations⟩
    refine bind_eq_pure.mpr ⟨_, built, ?_⟩
    refine bind_eq_pure.mpr ⟨(), validated, ?_⟩
    obtain ⟨topology, elementWeights, relationWeights, incidenceWeights⟩ := graph
    dsimp only at elements relations
    subst elements relations
    rfl

/-- A frozen hypergraph never panics exactly when its incidences can be numbered. -/
theorem Frozen.noPanic_iff (frozen : Frozen topology) :
    topology.traits.NoPanic ↔ topology.tailParticipants = [] ∨
      topology.headParticipants.length + topology.tailParticipants.length ≤
        LayoutIndex.bound O := by
  obtain ⟨counts, accepted⟩ := frozen.accepted
  obtain ⟨heads, tails, outgoing, incoming, laid, mirrored⟩ := validateSections_eq_pure.mp accepted
  have view := asView_eq laid.counted
  rw [traits_eq laid frozen.vertices, HyperTraits.noPanic_mapRole, view]
  refine Iff.trans ⟨fun noPanic => ?_, fun narrowable => ?_⟩
    (@BcsrHypergraph.narrowable_strict_iff _ _ _ _ _ _ ⟨counts, topology.sections⟩ _ _ _ _ laid
      (mirrored rfl))
  · exact BcsrHypergraph.narrowable_of_noPanic laid noPanic
  · exact BcsrHypergraph.noPanic_of_narrowable laid narrowable

/--
A view that opens, and a hypergraph that freezes, never panics exactly when the incidence width
can number the incidences that the methods reach, and the relation width their hyperedges.
-/
theorem accepted_never_panics_iff :
    (∀ (sections : BcsrSections V R O) (level : BcsrValidation) (view : BcsrHypergraph V R O),
      BcsrHypergraph.openWith sections level = pure view →
        (view.traits.NoPanic ↔ sections.Narrowable)) ∧
    (∀ (builder : HypergraphBuilder V R O) (graph : FrozenHypergraph V R O),
      builder.freeze = pure graph →
        (graph.topology.traits.NoPanic ↔ graph.topology.tailParticipants = [] ∨
          graph.topology.headParticipants.length + graph.topology.tailParticipants.length ≤
            LayoutIndex.bound O)) ∧
    (∀ (EW RW IW : Type) (builder : WeightedHypergraphBuilder V R O EW RW IW)
      (graph : FrozenWeightedHypergraph V R O EW RW IW), builder.freeze = pure graph →
        (graph.topology.traits.NoPanic ↔ graph.topology.tailParticipants = [] ∨
          graph.topology.headParticipants.length + graph.topology.tailParticipants.length ≤
            LayoutIndex.bound O)) := by
  refine ⟨?_, ?_, ?_⟩
  · intro sections level view opened
    obtain ⟨counts, accepted, opened⟩ := bind_eq_pure.mp opened
    obtain rfl := pure_eq_pure.mp opened
    obtain ⟨heads, tails, outgoing, incoming, laid, _⟩ := validateSections_eq_pure.mp accepted
    exact ⟨@BcsrHypergraph.narrowable_of_noPanic _ _ _ _ _ _ ⟨counts, sections⟩ _ _ _ _ laid,
      @BcsrHypergraph.noPanic_of_narrowable _ _ _ _ _ _ ⟨counts, sections⟩ _ _ _ _ laid⟩
  · intro builder graph frozen
    obtain ⟨weights, built, validated⟩ := HypergraphBuilder.freeze_eq_pure.mp frozen
    exact (frozen_of_built built validated).noPanic_iff
  · intro EW RW IW builder graph frozen
    obtain ⟨built, validated, _⟩ := WeightedHypergraphBuilder.freeze_eq_pure.mp frozen
    exact (frozen_of_built built validated).noPanic_iff

end

/-- The sections of one hyperedge from a number of vertices to the same vertices. -/
def wideHyperedge (count : Nat) : BcsrSections UInt16 UInt16 UInt16 where
  headOffsets := [0, .ofNat count]
  headParticipants := (List.range count).map .ofNat
  tailOffsets := [0, .ofNat count]
  tailParticipants := (List.range count).map .ofNat
  vertexOutgoingOffsets := (List.range (count + 1)).map .ofNat
  vertexOutgoingHyperedges := List.replicate count 0
  vertexIncomingOffsets := (List.range (count + 1)).map .ofNat
  vertexIncomingHyperedges := List.replicate count 0

/-- The offsets of buckets of one item each are consecutive. -/
theorem runningOffsets_replicate {T : Type} (item : T) (start count : Nat) :
    runningOffsets start (List.replicate count [item]) = List.range' start (count + 1) := by
  induction count generalizing start with
  | zero => rfl
  | succ count ih =>
    rw [List.replicate_succ, runningOffsets, List.length_singleton, ih]
    exact List.range'_succ.symm

/-- The set of all vertices below a count. -/
def allVertices (count : Nat) : VertexSet count where
  vertices := List.range count
  ascending := List.pairwise_lt_range
  below _ := List.mem_range.mp

/-- The sections are those of the hyperedge. -/
theorem wideHyperedge_encoded {count : Nat} (fits : count < 2 ^ 16) :
    Hypergraph.EncodedBy ⟨count, [⟨allVertices count, allVertices count⟩]⟩
      (wideHyperedge count) := by
  have words {length : Nat} (bound : length ≤ 2 ^ 16) :
      ((List.range length).map UInt16.ofNat).map toNat = List.range length :=
    map_toNat_map_ofNat (I := UInt16) fun slot member =>
      Nat.lt_of_lt_of_le (List.mem_range.mp member) bound
  have last : toNat (UInt16.ofNat count) = count := toNat_ofNat (I := UInt16) count fits
  have edges : Indexed (I := UInt16) (J := UInt16) [0, .ofNat count]
      ((List.range count).map .ofNat) [List.range count] := by
    constructor
    · simp only [map_cons, List.map_nil, last, runningOffsets, List.length_range, Nat.zero_add]
      rfl
    · rw [words (by omega), List.flatten_singleton]
  have listed : transpose count [List.range count] = List.replicate count [0] := by
    refine ext_getElem (by simp) fun vertex inside _ => ?_
    rw [length_transpose] at inside
    simp [transpose, occurrences, inside]
  have vertices : Indexed (I := UInt16) (J := UInt16) ((List.range (count + 1)).map .ofNat)
      (List.replicate count 0) (transpose count [List.range count]) := by
    rw [listed]
    constructor
    · rw [words (by omega), runningOffsets_replicate, List.range_eq_range']
    · simp only [List.map_replicate, List.flatten_replicate_singleton]
      rfl
  exact ⟨edges, edges, vertices, vertices⟩

/-- A hyperedge over half the width's values passes validation, and its tail incidences panic. -/
theorem wideHyperedge_panics {count : Nat} (fits : count < 2 ^ 16) (wide : 2 ^ 16 < count + count) :
    ∃ view : BcsrHypergraph UInt16 UInt16 UInt16,
      BcsrHypergraph.openWith (wideHyperedge count) .strict = pure view ∧
        view.targetIncidences 0 = none ∧ ¬ view.traits.NoPanic := by
  have encoded := wideHyperedge_encoded fits
  have outgoing : (wideHyperedge count).vertexOutgoingHyperedges.length = count :=
    List.length_replicate
  have incoming : (wideHyperedge count).vertexIncomingHyperedges.length = count :=
    List.length_replicate
  have one : 1 + 1 < usizeBound := by decide
  obtain ⟨counts, shape, laid⟩ : ∃ counts : DerivedCounts, 0 < counts.hyperedgeCount ∧
      LaidOut (wideHyperedge count) counts _ _ _ _ :=
    ⟨_, Nat.one_pos, encoded.laidOut one (show count + 1 < 2 ^ 64 by omega)
      (by rw [outgoing, incoming]; show _ < 2 ^ 64; omega)⟩
  have accepted : validateSections (wideHyperedge count) .strict = pure counts :=
    validateSections_eq_pure.mpr ⟨_, _, _, _, laid, fun _ => ⟨mirrored_transpose _ _,
      mirrored_transpose _ _, transpose_mirrored _ _, transpose_mirrored _ _⟩⟩
  let view : BcsrHypergraph UInt16 UInt16 UInt16 := ⟨counts, wideHyperedge count⟩
  have panics : ¬ (view.targetIncidences 0).isSome := by
    intro runs
    have numbered := BcsrHypergraph.fits_of_targetIncidences laid shape runs
    rw [laid.counted.pOutgoing] at numbered
    change (List.range count).length = 0 ∨
      (wideHyperedge count).vertexOutgoingHyperedges.length + 0 + (List.range count).length ≤
        2 ^ 16 at numbered
    rw [List.length_range, outgoing] at numbered
    omega
  refine ⟨view, bind_eq_pure.mpr ⟨_, accepted, rfl⟩,
    Option.not_isSome_iff_eq_none.mp panics, fun noPanic => panics ?_⟩
  exact noPanic.targetIncidences 0 shape

/-- Strict validation accepts 40000 head and 40000 tail incidences that 16 bits cannot number. -/
theorem wide_hyperedge_40000_panics : ∃ view : BcsrHypergraph UInt16 UInt16 UInt16,
    BcsrHypergraph.openWith (wideHyperedge 40000) .strict = pure view ∧
      view.targetIncidences 0 = none ∧ ¬ view.traits.NoPanic :=
  wideHyperedge_panics (by decide) (by decide)

/-- The sections of two hyperedges, small enough for their widths, never panic. -/
theorem two_hyperedges_never_panic : ∃ view,
    BcsrHypergraph.openWith twoHyperedges .strict = pure view ∧ view.traits.NoPanic := by
  obtain ⟨counts, accepted⟩ := twoHyperedges_validates
  have opened : BcsrHypergraph.openWith twoHyperedges .strict = pure ⟨counts, twoHyperedges⟩ :=
    bind_eq_pure.mpr ⟨counts, accepted, rfl⟩
  have few {index offset : Nat} {offsets : List UInt32} (three : offsets.length = 3)
      (at_ : (offsets.map toNat)[index]? = some offset) : index < 3 := by
    rw [← three, ← length_map toNat]
    exact (List.getElem?_eq_some_iff.mp at_).1
  have narrowable : twoHyperedges.Narrowable := by
    refine ⟨?_, ?_, ?_⟩
    · intro index start stop _ _ last _
      have member := List.mem_of_getElem? last
      have small : ∀ offset ∈ twoHyperedges.tailOffsets.map toNat, offset ≤ 1 := by decide
      have bound := small stop member
      change 2 + stop ≤ 2 ^ 32
      omega
    · intro index start stop large first _
      have inside := few rfl first
      change 2 ^ 16 ≤ index at large
      omega
    · intro index start stop large first _ _
      have inside := few rfl first
      change 2 ^ 16 ≤ index at large
      omega
  exact ⟨_, opened, (accepted_never_panics_iff.1 _ _ _ opened).mpr narrowable⟩

end Oxgraph.Bcsr
