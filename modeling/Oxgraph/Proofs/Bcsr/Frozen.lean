import Oxgraph.Proofs.Layout.Sections
import Oxgraph.Spec.Additions

/-! What is frozen, borrowed, or reopened answers as the added hyperedges define. -/

namespace Oxgraph.Bcsr

open Layout Container
open LayoutIndex (toNat_lt toNat_ofNat)
open List (length_map map_map mem_map)

section

variable {V R O EW RW IW : Type} [LayoutIndex V] [LayoutIndex R] [LayoutIndex O]

-- Answers.

/-- Slots of the width come back from the words that carry them. -/
theorem answered_slots {I : Type} [LayoutIndex I] {answer : Option (List I)} {slots : List Nat}
    (same : answer = some (slots.map LayoutIndex.ofNat))
    (fits : ∀ slot ∈ slots, slot < LayoutIndex.bound I) :
    answer.map (·.map toNat) = some slots := by
  rw [same, Option.map_some, map_toNat_map_ofNat fits]

/-- The slots of laid out words are those of the width. -/
theorem slots_fit {I J : Type} [LayoutIndex I] [LayoutIndex J] {offsets : List I}
    {values : List J} {buckets : List (List Nat)} (flat : Indexed offsets values buckets) :
    ∀ bucket ∈ buckets, ∀ slot ∈ bucket, slot < LayoutIndex.bound J := by
  refine flat.forall_values.mp fun slot member => ?_
  obtain ⟨word, _, rfl⟩ := mem_map.mp member
  exact toNat_lt word

/-- A bucket read by position is one of the buckets, or empty. -/
theorem forall_getD {buckets : List (List Nat)} {holds : Nat → Prop}
    (all : ∀ bucket ∈ buckets, ∀ slot ∈ bucket, holds slot) (index : Nat) :
    ∀ slot ∈ buckets.getD index [], holds slot := by
  intro slot member
  rw [List.getD_eq_getElem?_getD] at member
  cases found : buckets[index]? with
  | none =>
    rw [found] at member
    cases member
  | some bucket =>
    rw [found] at member
    exact all bucket (List.mem_of_getElem? found) slot member

namespace Hypergraph

variable {graph : Hypergraph} {view : BcsrHypergraph V R O}
  (laid : LaidOut view.sections view.counts graph.heads graph.tails graph.outgoing graph.incoming)
include laid

-- The counts of the view are those of the hypergraph.

theorem vertexCount_eq : view.counts.vertexCount = graph.vertexCount := by
  rw [← laid.outgoingRole.relations_length, outgoing, length_transpose]

theorem hyperedgeCount_eq : view.counts.hyperedgeCount = graph.hyperedges.length := by
  rw [← laid.outgoingRole.sets_length, heads, length_map]

theorem pOutgoing_eq : view.counts.pOutgoing = graph.heads.flatten.length := by
  rw [BcsrHypergraph.pOutgoing_eq laid, ← laid.outgoingRole.edges.values, length_map]

theorem totalIncidences_eq : view.counts.totalIncidences = graph.incidenceCount := by
  have tails : view.counts.pIncoming = graph.tails.flatten.length := by
    rw [BcsrHypergraph.pIncoming_eq laid, ← laid.incomingRole.edges.values, length_map]
  rw [← laid.counted.total, pOutgoing_eq laid, tails, incidenceCount]

-- The buckets of the vertices, and the ends of the incidence ranges.

variable {vertex : Nat}

omit laid in
theorem getD_outgoing (valid : vertex < graph.vertexCount) :
    graph.outgoing.getD vertex [] = graph.outgoingOf vertex := by
  rw [List.getD_eq_getElem?_getD, outgoing, getElem?_transpose _ valid]
  rfl

omit laid in
theorem getD_incoming (valid : vertex < graph.vertexCount) :
    graph.incoming.getD vertex [] = graph.incomingOf vertex := by
  rw [List.getD_eq_getElem?_getD, incoming, getElem?_transpose _ valid]
  rfl

variable {hyperedge : Nat}

theorem headEnd_le (valid : hyperedge < graph.hyperedges.length) :
    graph.headStart hyperedge + (graph.headOf hyperedge).length ≤ graph.heads.flatten.length := by
  rw [← hyperedgeCount_eq laid] at valid
  have bound := laid.outgoingRole.set_end_le valid
  rwa [← BcsrHypergraph.pOutgoing_eq laid, pOutgoing_eq laid] at bound

theorem tailEnd_le (valid : hyperedge < graph.hyperedges.length) :
    graph.tailStart hyperedge + (graph.tailOf hyperedge).length ≤ graph.incidenceCount := by
  rw [← hyperedgeCount_eq laid] at valid
  have bound := laid.incomingRole.set_end_le valid
  have tails : graph.tails.flatten.length = view.sections.tailParticipants.length := by
    rw [← laid.incomingRole.edges.values, length_map]
  unfold tailStart incidenceCount tailOf
  omega

-- Every slot that an answer lists is one of the width: a word of it was stored.

theorem headOf_fits (hyperedge : Nat) :
    ∀ vertex ∈ graph.headOf hyperedge, vertex < LayoutIndex.bound V :=
  forall_getD (slots_fit laid.outgoingRole.edges) hyperedge

theorem tailOf_fits (hyperedge : Nat) :
    ∀ vertex ∈ graph.tailOf hyperedge, vertex < LayoutIndex.bound V :=
  forall_getD (slots_fit laid.incomingRole.edges) hyperedge

theorem outgoingOf_fits (valid : vertex < graph.vertexCount) :
    ∀ hyperedge ∈ graph.outgoingOf vertex, hyperedge < LayoutIndex.bound R := by
  rw [← getD_outgoing valid]
  exact forall_getD (slots_fit laid.outgoingRole.vertices) vertex

theorem incomingOf_fits (valid : vertex < graph.vertexCount) :
    ∀ hyperedge ∈ graph.incomingOf vertex, hyperedge < LayoutIndex.bound R := by
  rw [← getD_incoming valid]
  exact forall_getD (slots_fit laid.incomingRole.vertices) vertex

-- A vertex's hyperedges, and the vertices on their other sides.

variable {vertex : V}

theorem outgoingHyperedges_answer (valid : toNat vertex < graph.vertexCount) :
    (view.outgoingHyperedges vertex).map (·.map toNat) =
      some (graph.outgoingOf (toNat vertex)) := by
  refine answered_slots ?_ (outgoingOf_fits laid valid)
  rw [← getD_outgoing valid]
  exact BcsrHypergraph.outgoingHyperedges_eq laid ((vertexCount_eq laid).symm ▸ valid)

theorem incomingHyperedges_answer (valid : toNat vertex < graph.vertexCount) :
    (view.incomingHyperedges vertex).map (·.map toNat) =
      some (graph.incomingOf (toNat vertex)) := by
  refine answered_slots ?_ (incomingOf_fits laid valid)
  rw [← getD_incoming valid]
  exact BcsrHypergraph.incomingHyperedges_eq laid ((vertexCount_eq laid).symm ▸ valid)

theorem elementSuccessors_answer (valid : toNat vertex < graph.vertexCount) :
    (view.elementSuccessors vertex).map (·.map toNat) =
      some ((graph.outgoingOf (toNat vertex)).flatMap graph.tailOf) := by
  refine answered_slots ?_ (List.forall_mem_flatMap.mpr fun hyperedge _ =>
    tailOf_fits laid hyperedge)
  rw [← getD_outgoing valid]
  exact BcsrHypergraph.elementSuccessors_eq laid ((vertexCount_eq laid).symm ▸ valid)

theorem elementPredecessors_answer (valid : toNat vertex < graph.vertexCount) :
    (view.elementPredecessors vertex).map (·.map toNat) =
      some ((graph.incomingOf (toNat vertex)).flatMap graph.headOf) := by
  refine answered_slots ?_ (List.forall_mem_flatMap.mpr fun hyperedge _ =>
    headOf_fits laid hyperedge)
  rw [← getD_incoming valid]
  exact BcsrHypergraph.elementPredecessors_eq laid ((vertexCount_eq laid).symm ▸ valid)

-- Incidences, which the width can number.

variable (total : graph.incidenceCount < LayoutIndex.bound O)
include total

theorem headIncidences_fit (valid : hyperedge < graph.hyperedges.length) :
    ∀ id ∈ graph.headIncidences hyperedge, id < LayoutIndex.bound O := by
  intro id member
  have fits := headEnd_le laid valid
  unfold incidenceCount at total
  rw [headIncidences, List.mem_range'_1] at member
  omega

theorem tailIncidences_fit (valid : hyperedge < graph.hyperedges.length) :
    ∀ id ∈ graph.tailIncidences hyperedge, id < LayoutIndex.bound O := by
  intro id member
  have fits := tailEnd_le laid valid
  rw [tailIncidences, List.mem_range'_1] at member
  omega

/-- The tail incidences of a hyperedge end inside the width. -/
theorem tail_numbered (valid : hyperedge < graph.hyperedges.length) :
    (graph.tails.getD hyperedge []).length = 0 ∨
      view.counts.pOutgoing + (graph.tails.take hyperedge).flatten.length +
        (graph.tails.getD hyperedge []).length ≤ LayoutIndex.bound O := by
  have fits := tailEnd_le laid valid
  unfold tailStart tailOf at fits
  rw [pOutgoing_eq laid]
  omega

theorem sourceIncidences_answer {hyperedge : R}
    (valid : toNat hyperedge < graph.hyperedges.length) :
    (view.sourceIncidences hyperedge).map (·.map toNat) =
      some (graph.headIncidences (toNat hyperedge)) := by
  have inside := valid
  rw [← hyperedgeCount_eq laid] at inside
  refine answered_slots ?_ (headIncidences_fit laid total valid)
  rw [BcsrHypergraph.sourceIncidences_eq laid inside, incidenceRange, Nat.zero_add]
  rfl

theorem targetIncidences_answer {hyperedge : R}
    (valid : toNat hyperedge < graph.hyperedges.length) :
    (view.targetIncidences hyperedge).map (·.map toNat) =
      some (graph.tailIncidences (toNat hyperedge)) := by
  have inside := valid
  rw [← hyperedgeCount_eq laid] at inside
  refine answered_slots ?_ (tailIncidences_fit laid total valid)
  rw [BcsrHypergraph.targetIncidences_eq laid inside (tail_numbered laid total valid),
    incidenceRange, pOutgoing_eq laid]
  rfl

theorem relationIncidences_answer {hyperedge : R}
    (valid : toNat hyperedge < graph.hyperedges.length) :
    (view.relationIncidences hyperedge).map (·.map toNat) =
      some (graph.headIncidences (toNat hyperedge) ++ graph.tailIncidences (toNat hyperedge)) := by
  have inside := valid
  rw [← hyperedgeCount_eq laid] at inside
  refine answered_slots ?_ (List.forall_mem_append.mpr
    ⟨headIncidences_fit laid total valid, tailIncidences_fit laid total valid⟩)
  rw [BcsrHypergraph.relationIncidences_eq laid inside (tail_numbered laid total valid),
    incidenceRange, incidenceRange, pOutgoing_eq laid, Nat.zero_add]
  rfl

omit laid total in
/-- A hyperedge listed for a vertex is there, and holds the vertex at a position of its set. -/
theorem occurrence_position {sets : List (List Nat)} {vertex hyperedge : Nat}
    (listed : hyperedge ∈ occurrences sets vertex) :
    hyperedge < sets.length ∧
      (sets.getD hyperedge []).idxOf vertex < (sets.getD hyperedge []).length := by
  obtain ⟨set, found, member⟩ := mem_occurrences.mp listed
  refine ⟨(List.getElem?_eq_some_iff.mp found).1, ?_⟩
  rw [List.getD_eq_getElem?_getD, found]
  exact List.idxOf_lt_length_of_mem member

omit laid total in
/-- The hyperedges listed for a vertex all hold it, so none is left out. -/
theorem incidencesOf_occurrences (sets : List (List Nat)) (base vertex : Nat) :
    incidencesOf sets base vertex (occurrences sets vertex) =
      (occurrences sets vertex).map fun hyperedge =>
        base + (sets.take hyperedge).flatten.length + (sets.getD hyperedge []).idxOf vertex := by
  have holds : ∀ hyperedge ∈ occurrences sets vertex,
      decide (vertex ∈ sets.getD hyperedge []) = true := fun hyperedge listed =>
    decide_eq_true (List.idxOf_lt_length_iff.mp (occurrence_position listed).2)
  unfold incidencesOf positionOf
  rw [List.filter_eq_self.mpr holds]
  exact List.map_congr_left fun hyperedge _ => (Nat.add_assoc _ _ _).symm

theorem elementIncidences_answer (valid : toNat vertex < graph.vertexCount) :
    (view.elementIncidences vertex).map (·.map toNat) =
      some (graph.incidencesOfVertex (toNat vertex)) := by
  have inside := valid
  rw [← vertexCount_eq laid] at inside
  -- A hyperedge that lists the vertex holds it at a position before the end of its range.
  have inHead : ∀ hyperedge ∈ graph.outgoingOf (toNat vertex),
      graph.headStart hyperedge + (graph.headOf hyperedge).idxOf (toNat vertex) <
        LayoutIndex.bound O := by
    intro hyperedge listed
    obtain ⟨known, position⟩ := occurrence_position listed
    rw [heads, length_map] at known
    have fits := headEnd_le laid known
    unfold incidenceCount at total
    unfold headOf at fits ⊢
    omega
  have inTail : ∀ hyperedge ∈ graph.incomingOf (toNat vertex),
      graph.tailStart hyperedge + (graph.tailOf hyperedge).idxOf (toNat vertex) <
        LayoutIndex.bound O := by
    intro hyperedge listed
    obtain ⟨known, position⟩ := occurrence_position listed
    rw [tails, length_map] at known
    have fits := tailEnd_le laid known
    unfold tailOf at fits ⊢
    omega
  refine answered_slots ?_ (List.forall_mem_append.mpr
    ⟨List.forall_mem_map.mpr inHead, List.forall_mem_map.mpr inTail⟩)
  have numbered : ∀ hyperedge ∈ graph.incoming.getD (toNat vertex) [],
      toNat vertex ∈ graph.tails.getD hyperedge [] →
        view.counts.pOutgoing + positionOf graph.tails hyperedge (toNat vertex) <
          LayoutIndex.bound O := by
    intro hyperedge listed _
    rw [getD_incoming valid] at listed
    have fits := inTail hyperedge listed
    rw [pOutgoing_eq laid, positionOf, ← Nat.add_assoc]
    exact fits
  rw [BcsrHypergraph.elementIncidences_eq laid inside numbered, getD_outgoing valid,
    getD_incoming valid, pOutgoing_eq laid, outgoingOf, incomingOf, incidencesOf_occurrences,
    incidencesOf_occurrences]
  simp only [Nat.zero_add]
  rfl

variable (named : graph.hyperedges.length ≤ LayoutIndex.bound R)
include named

omit total in
theorem incidenceRelation_answer {incidence : O} (valid : toNat incidence < graph.incidenceCount) :
    ∃ hyperedge < graph.hyperedges.length,
      (view.incidenceRelation incidence).map toNat = some hyperedge ∧
        (toNat incidence ∈ graph.headIncidences hyperedge ∨
          toNat incidence ∈ graph.tailIncidences hyperedge) := by
  rw [← totalIncidences_eq laid] at valid
  obtain ⟨owner, owned, located, range⟩ := BcsrHypergraph.incidenceRelation_spec laid valid
  rw [hyperedgeCount_eq laid] at owned
  have fits : owner < LayoutIndex.bound R := Nat.lt_of_lt_of_le owned named
  refine ⟨owner, owned, ?_, ?_⟩
  · rw [located, usizeToIndexValidated_eq fits, Option.map_some, toNat_ofNat _ fits]
  · rwa [incidenceRange, incidenceRange, pOutgoing_eq laid, Nat.zero_add] at range

/-- A view over the sections of a hypergraph answers as the hypergraph defines. -/
theorem answeredBy : graph.AnsweredBy (view.traits.mapRole BcsrRole.participantRole) := by
  have vertices := vertexCount_eq laid
  have hyperedges := hyperedgeCount_eq laid
  have incidences := totalIncidences_eq laid
  refine
    { elementCount := vertices
      relationCount := hyperedges
      incidenceCount := incidences
      elementBound := vertices
      relationBound := hyperedges
      incidenceBound := incidences
      elementIndex := indexToUsizeValidated_eq
      relationIndex := indexToUsizeValidated_eq
      incidenceIndex := indexToUsizeValidated_eq
      containsElement := ?_
      containsRelation := ?_
      containsIncidence := ?_
      sourceParticipants := ?_
      targetParticipants := ?_
      hyperedgeParticipants := ?_
      sourceIncidences := fun _ => sourceIncidences_answer laid total
      targetIncidences := fun _ => targetIncidences_answer laid total
      relationIncidences := fun _ => relationIncidences_answer laid total
      relationIncidenceCount := ?_
      outgoingHyperedges := fun _ => outgoingHyperedges_answer laid
      incomingHyperedges := fun _ => incomingHyperedges_answer laid
      incidentHyperedges := ?_
      elementSuccessors := fun _ => elementSuccessors_answer laid
      elementPredecessors := fun _ => elementPredecessors_answer laid
      elementIncidences := fun _ => elementIncidences_answer laid total
      elementIncidenceCount := ?_
      incidenceElement := ?_
      incidenceRelation := fun _ => incidenceRelation_answer laid named
      incidenceRole := ?_ }
  -- Contained IDs are those below the counts.
  · intro vertex
    rw [← vertices]
    exact BcsrHypergraph.containsElement_eq vertex
  · intro hyperedge
    rw [← hyperedges]
    exact BcsrHypergraph.containsRelation_eq hyperedge
  · intro incidence
    rw [← incidences]
    exact BcsrHypergraph.containsIncidence_eq incidence
  -- Participants are the sets themselves.
  · intro hyperedge valid
    rw [← hyperedges] at valid
    exact answered_slots (BcsrHypergraph.sourceParticipants_eq laid valid) (headOf_fits laid _)
  · intro hyperedge valid
    rw [← hyperedges] at valid
    exact answered_slots (BcsrHypergraph.targetParticipants_eq laid valid) (tailOf_fits laid _)
  · intro hyperedge valid
    rw [← hyperedges] at valid
    exact answered_slots (BcsrHypergraph.hyperedgeParticipants_eq laid valid)
      (List.forall_mem_append.mpr ⟨headOf_fits laid _, tailOf_fits laid _⟩)
  · intro hyperedge valid
    rw [← hyperedges] at valid
    exact BcsrHypergraph.relationIncidenceCount_eq laid valid
  -- All hyperedges of a vertex are those of both roles.
  · intro vertex valid
    refine answered_slots ?_ (List.forall_mem_append.mpr
      ⟨outgoingOf_fits laid valid, incomingOf_fits laid valid⟩)
    rw [← getD_outgoing valid, ← getD_incoming valid]
    exact BcsrHypergraph.incidentHyperedges_eq laid (vertices.symm ▸ valid)
  · intro vertex valid
    rw [← getD_outgoing valid, ← getD_incoming valid]
    exact BcsrHypergraph.elementIncidenceCount_eq laid (vertices.symm ▸ valid)
  -- The head incidences come first, and each names the vertex at its position.
  · intro incidence valid
    have inside : toNat incidence < (graph.heads.flatten ++ graph.tails.flatten).length := by
      rw [List.length_append]
      exact valid
    have fits : ∀ vertex ∈ graph.heads.flatten ++ graph.tails.flatten,
        vertex < LayoutIndex.bound V := by
      intro vertex member
      rcases List.mem_append.mp member with first | second
      · obtain ⟨set, listed, member⟩ := List.mem_flatten.mp first
        exact slots_fit laid.outgoingRole.edges set listed vertex member
      · obtain ⟨set, listed, member⟩ := List.mem_flatten.mp second
        exact slots_fit laid.incomingRole.edges set listed vertex member
    show (view.incidenceElement incidence).map toNat = _
    rw [BcsrHypergraph.incidenceElement_eq laid (incidences.symm ▸ valid), Option.map_some,
      List.getD_eq_getElem _ _ inside, List.getElem?_eq_getElem inside,
      toNat_ofNat _ (fits _ (List.getElem_mem _))]
  · intro incidence _
    show (view.incidenceRole incidence).map BcsrRole.participantRole = _
    rw [BcsrHypergraph.incidenceRole_eq laid, Option.map_some]
    split <;> rfl

end Hypergraph

-- Additions.

/-- Items next to each other differ in a sorted list exactly when none is there twice. -/
theorem nodup_iff_of_sorted {slots : List Nat} (sorted : slots.Pairwise (· ≤ ·)) :
    slots.Nodup ↔ ∀ pair ∈ slots.zip slots.tail, pair.1 ≠ pair.2 := by
  induction slots with
  | nil => simp
  | cons slot rest ih =>
    cases rest with
    | nil => simp
    | cons next rest =>
      obtain ⟨below, tail⟩ := List.pairwise_cons.mp sorted
      rw [List.tail_cons, List.zip_cons_cons, List.forall_mem_cons, List.nodup_cons, ih tail]
      refine and_congr_left fun _ => ⟨fun absent same => ?_, fun differ member => ?_⟩
      · have same : slot = next := same
        exact absent (List.mem_cons.mpr (.inl same))
      -- The next item is already above the first one, and the rest are no smaller.
      · rcases List.mem_cons.mp member with same | later
        · exact differ same
        · have least := (List.pairwise_cons.mp tail).1 slot later
          have first := below next List.mem_cons_self
          omega

omit [LayoutIndex R] in
/-- Every vertex is checked against the count. -/
theorem ensureVertices_eq_ok {vertexCount : Nat} {participants : List V} :
    (ensureVertices vertexCount participants : Except (HyperBuildError V R) Unit) = .ok () ↔
      ∀ vertex ∈ participants.map toNat, vertex < vertexCount := by
  unfold ensureVertices
  rw [forM_eq_ok, List.forall_mem_map]
  refine forall₂_congr fun vertex _ => ?_
  unfold vertexIndexChecked idToSlot
  simp only [toUsize_eq]
  by_cases known : toNat vertex < vertexCount
  · simp [known, Except.mapError]
  · simp [known, Except.mapError, bind, Except.bind]

omit [LayoutIndex R] in
/-- Vertices take part once each exactly when their slots are distinct. -/
theorem ensureUniqueParticipants_eq_ok {participants : List V} {role : HyperParticipantRole} :
    (ensureUniqueParticipants participants role : Except (HyperBuildError V R) Unit) = .ok () ↔
      (participants.map toNat).Nodup := by
  unfold ensureUniqueParticipants
  dsimp only
  generalize listed : participants.mergeSort (fun left right => toNat left ≤ toNat right) = words
  -- Sorting the words by slot sorts their slots.
  have slots : words.map toNat = (participants.map toNat).mergeSort := by
    rw [← listed]
    exact List.map_mergeSort fun _ _ _ _ => rfl
  have sorted : (words.map toNat).Pairwise (· ≤ ·) := by
    rw [slots]
    exact List.pairwise_mergeSort' (· ≤ ·) _
  have perm : (words.map toNat).Perm (participants.map toNat) := by
    rw [slots]
    exact List.mergeSort_perm _ _
  rw [forM_eq_ok, ← perm.nodup_iff, nodup_iff_of_sorted sorted, ← List.map_tail, List.zip_map,
    List.forall_mem_map]
  refine forall₂_congr fun pair _ => ?_
  by_cases same : toNat pair.1 = toNat pair.2
  · simp [same]
  · simp [same]

/-- A hyperedge gets the next ID exactly when both its sides are valid and the ID exists. -/
theorem checkHyperedge_eq_ok {vertexCount hyperedgeCount : Nat} {sources targets : List V} {id : R} :
    checkHyperedge vertexCount hyperedgeCount sources targets = .ok id ↔
      (Side vertexCount (sources.map toNat) ∧ Side vertexCount (targets.map toNat)) ∧
        toNat id = hyperedgeCount := by
  unfold checkHyperedge Side
  rw [seq_eq_ok, seq_eq_ok, seq_eq_ok, seq_eq_ok, mapError_eq_ok, ensureVertices_eq_ok,
    ensureVertices_eq_ok, ensureUniqueParticipants_eq_ok, ensureUniqueParticipants_eq_ok,
    indexFromUsize_eq_ok]
  tauto

omit [LayoutIndex R] in
/-- A vertex gets the next ID exactly when the ID exists and the count can go on. -/
theorem nextVertex_eq_ok {vertexCount advanced : Nat} {id : V} :
    (nextVertex vertexCount : Except (HyperBuildError V R) _) = .ok (id, advanced) ↔
      toNat id = vertexCount ∧ vertexCount + 1 < usizeBound ∧ advanced = vertexCount + 1 := by
  unfold nextVertex
  rw [bind_eq_ok]
  constructor
  · rintro ⟨allocated, found, rest⟩
    rw [mapError_eq_ok, indexFromUsize_eq_ok] at found
    cases added : checkedAdd vertexCount 1 with
    | none =>
      rw [added] at rest
      cases rest
    | some next =>
      rw [added] at rest
      cases rest
      obtain ⟨sum, fits⟩ := checkedAdd_eq_some.mp added
      exact ⟨found, by omega, by omega⟩
  · rintro ⟨found, fits, rfl⟩
    refine ⟨id, mapError_eq_ok.mpr (indexFromUsize_eq_ok.mpr found), ?_⟩
    rw [checkedAdd_eq_some.mpr ⟨rfl, fits⟩]

/-- The slots of a record's sources and targets. -/
def NormalizedHyperedgeRecord.slots (record : NormalizedHyperedgeRecord V IW) :
    List Nat × List Nat :=
  (record.sources.map fun participant => toNat participant.1,
    record.targets.map fun participant => toNat participant.1)

/-- A builder's vertices and records are those that were added. -/
structure Recorded (R : Type) [LayoutIndex R] (vertexCount : Nat)
    (records : List (NormalizedHyperedgeRecord V IW)) (added : Added) : Prop where
  vertices : vertexCount = added.vertexCount
  hyperedges : records.map NormalizedHyperedgeRecord.slots = added.hyperedges
  named : records.length ≤ LayoutIndex.bound R
  inMemory : records.length ≤ sliceBound hyperedgeRecordBytes

namespace Recorded

variable {W : Type} {vertexCount : Nat} {records : List (NormalizedHyperedgeRecord V IW)}
  {added : Added}
  (recorded : Recorded R vertexCount records added)
include recorded

theorem length_eq : records.length = added.hyperedges.length := by
  rw [← recorded.hyperedges, length_map]

/-- A vertex that gets an ID is added. -/
theorem vertex_ok {advanced : Nat} {id : V} {weight : EW}
    (allocated : (nextVertex vertexCount : Except (HyperBuildError V R) _) = .ok (id, advanced)) :
    Recorded R advanced records
      (added.apply V R (.vertex weight : Addition V EW RW W)) := by
  obtain ⟨slot, fits, rfl⟩ := nextVertex_eq_ok.mp allocated
  have small := toNat_lt id
  rw [slot, recorded.vertices] at small
  rw [recorded.vertices] at fits
  rw [Added.apply, if_pos ⟨small, fits⟩]
  exact { recorded with vertices := congrArg (· + 1) recorded.vertices }

/-- A vertex that gets no ID adds nothing. -/
theorem vertex_error {error : HyperBuildError V R} {weight : EW}
    (refused : (nextVertex vertexCount : Except _ (V × Nat)) = .error error) :
    Recorded R vertexCount records
      (added.apply V R (.vertex weight : Addition V EW RW W)) := by
  have full : ¬ (added.vertexCount < LayoutIndex.bound V ∧ added.vertexCount + 1 < usizeBound) := by
    rintro ⟨small, fits⟩
    rw [← recorded.vertices] at small fits
    have allocated : (nextVertex vertexCount : Except (HyperBuildError V R) _) = .ok _ :=
      nextVertex_eq_ok.mpr ⟨toNat_ofNat (I := V) vertexCount small, fits, rfl⟩
    rw [allocated] at refused
    cases refused
  rw [Added.apply, if_neg full]
  exact recorded

variable {sources targets : List (V × W)} {weight : RW}

/-- A hyperedge that gets an ID is added. -/
theorem hyperedge_ok {id : R} {record : NormalizedHyperedgeRecord V IW}
    (checked : checkHyperedge vertexCount records.length (sources.map Prod.fst)
      (targets.map Prod.fst) = .ok id)
    (room : records.length < sliceBound hyperedgeRecordBytes)
    (same : record.slots = (sources.map fun participant => toNat participant.1,
      targets.map fun participant => toNat participant.1)) :
    Recorded R vertexCount (records ++ [record])
      (added.apply V R (.hyperedge sources targets weight : Addition V EW RW W)) := by
  obtain ⟨valid, slot⟩ := checkHyperedge_eq_ok.mp checked
  have small := toNat_lt id
  rw [slot] at small
  rw [recorded.vertices, map_map, map_map] at valid
  rw [recorded.length_eq] at small
  change Side added.vertexCount (sources.map fun participant => toNat participant.1) ∧
    Side added.vertexCount (targets.map fun participant => toNat participant.1) at valid
  rw [Added.apply, dif_pos valid, if_pos small]
  refine ⟨recorded.vertices, ?_, ?_, ?_⟩
  · rw [List.map_append, recorded.hyperedges, List.map_singleton, same]
    rfl
  · rw [List.length_append, recorded.length_eq, List.length_singleton]
    exact small
  · rw [List.length_append, List.length_singleton]
    exact room

/-- A hyperedge that gets no ID adds nothing. -/
theorem hyperedge_error {error : HyperBuildError V R}
    (refused : (checkHyperedge vertexCount records.length (sources.map Prod.fst)
      (targets.map Prod.fst) : Except _ R) = .error error) :
    Recorded R vertexCount records
      (added.apply V R (.hyperedge sources targets weight : Addition V EW RW W)) := by
  rw [Added.apply]
  -- A hyperedge with two sides would have the next ID, if there were one.
  split
  · rename_i valid
    rw [if_neg]
    · exact recorded
    · intro small
      rw [← recorded.length_eq] at small
      have checked : checkHyperedge vertexCount records.length (sources.map Prod.fst)
          (targets.map Prod.fst) = .ok (LayoutIndex.ofNat records.length : R) := by
        refine checkHyperedge_eq_ok.mpr ⟨?_, toNat_ofNat _ small⟩
        rw [recorded.vertices, map_map, map_map]
        exact valid
      rw [checked] at refused
      cases refused
  · exact recorded

end Recorded

/-- The hyperedges of the unweighted builder, with a unit for each weight. -/
def HypergraphBuilder.records (builder : HypergraphBuilder V R O) :
    List (NormalizedHyperedgeRecord V Unit) :=
  builder.hyperedges.map fun record =>
    { sources := record.sources.map fun vertex => (vertex, ())
      targets := record.targets.map fun vertex => (vertex, ()) }

/-- A builder whose calls check, and then grow, its vertex count and its records. -/
structure Follows {S W : Type}
    (step : S → Addition V EW RW W → Fallible (HyperBuildError V R) S) (vertexCount : S → Nat)
    (records : S → List (NormalizedHyperedgeRecord V IW)) : Prop where
  vertex : ∀ state weight,
    match (nextVertex (vertexCount state) : Except (HyperBuildError V R) _) with
    | .error error => step state (.vertex weight) = throw error
    | .ok allocated => ∃ next, step state (.vertex weight) = pure next ∧
        vertexCount next = allocated.2 ∧ records next = records state
  hyperedge : ∀ state sources targets weight,
    match (checkHyperedge (vertexCount state) (records state).length (sources.map Prod.fst)
      (targets.map Prod.fst) : Except (HyperBuildError V R) R) with
    | .error error => step state (.hyperedge sources targets weight) = throw error
    | .ok _ =>
      -- A list that cannot grow any more panics.
      (sliceBound hyperedgeRecordBytes ≤ (records state).length ∧
          step state (.hyperedge sources targets weight) = ExceptT.mk none) ∨
        ∃ next record, step state (.hyperedge sources targets weight) = pure next ∧
          (records state).length < sliceBound hyperedgeRecordBytes ∧
          vertexCount next = vertexCount state ∧
          records next = records state ++ [record] ∧
          record.slots = (sources.map fun participant => toNat participant.1,
            targets.map fun participant => toNat participant.1)

/-- Every call of such a builder leaves what the same addition leaves. -/
theorem Follows.keeps {S W : Type}
    {step : S → Addition V EW RW W → Fallible (HyperBuildError V R) S} {vertexCount : S → Nat}
    {records : S → List (NormalizedHyperedgeRecord V IW)}
    (follows : Follows step vertexCount records) :
    Fallible.Keeps step (Added.apply V R) fun state added =>
      Recorded R (vertexCount state) (records state) added := by
  intro state added addition recorded
  cases addition with
  | vertex weight =>
    have followed := follows.vertex state weight
    cases outcome : (nextVertex (vertexCount state) : Except (HyperBuildError V R) _) with
    | error error =>
      rw [outcome] at followed
      rw [followed]
      exact recorded.vertex_error outcome
    | ok allocated =>
      rw [outcome] at followed
      obtain ⟨next, returned, count, same⟩ := followed
      rw [returned]
      show Recorded R (vertexCount next) (records next) _
      rw [count, same]
      exact recorded.vertex_ok outcome
  | hyperedge sources targets weight =>
    have followed := follows.hyperedge state sources targets weight
    cases outcome : (checkHyperedge (vertexCount state) (records state).length
        (sources.map Prod.fst) (targets.map Prod.fst) : Except (HyperBuildError V R) R) with
    | error error =>
      rw [outcome] at followed
      rw [followed]
      exact recorded.hyperedge_error outcome
    | ok id =>
      rw [outcome] at followed
      rcases followed with ⟨_, panicked⟩ | ⟨next, record, returned, room, count, grown, same⟩
      · rw [panicked]
        trivial
      · rw [returned]
        show Recorded R (vertexCount next) (records next) _
        rw [count, grown]
        exact recorded.hyperedge_ok outcome room same

/-- Calls no more than memory can hold do not panic. -/
theorem Follows.runs {S W : Type}
    {step : S → Addition V EW RW W → Fallible (HyperBuildError V R) S} {vertexCount : S → Nat}
    {records : S → List (NormalizedHyperedgeRecord V IW)}
    (follows : Follows step vertexCount records) {additions : List (Addition V EW RW W)}
    {state : S}
    (room : (records state).length + additions.length ≤ sliceBound hyperedgeRecordBytes) :
    ∃ final, Fallible.runAll step additions state = some final := by
  induction additions generalizing state with
  | nil => exact ⟨state, rfl⟩
  | cons addition rest ih =>
    rw [List.length_cons] at room
    -- No call adds more than one record, and a refused one adds none.
    have called : (∃ error, step state addition = throw error) ∨
        ∃ next, step state addition = pure next ∧
          (records next).length ≤ (records state).length + 1 := by
      cases addition with
      | vertex weight =>
        have followed := follows.vertex state weight
        split at followed
        · exact .inl ⟨_, followed⟩
        · obtain ⟨next, returned, _, same⟩ := followed
          exact .inr ⟨next, returned, by rw [same]; omega⟩
      | hyperedge sources targets weight =>
        have followed := follows.hyperedge state sources targets weight
        split at followed
        · exact .inl ⟨_, followed⟩
        · rcases followed with ⟨full, _⟩ | ⟨next, record, returned, _, _, grown, _⟩
          · omega
          · exact .inr ⟨next, returned, by rw [grown, List.length_append]; rfl⟩
    rw [Fallible.runAll]
    rcases called with ⟨error, raised⟩ | ⟨next, returned, length⟩
    · rw [raised]
      exact ih (by omega)
    · rw [returned]
      exact ih (by omega)

omit [LayoutIndex O] in
theorem HypergraphBuilder.follows :
    Follows (HypergraphBuilder.add : HypergraphBuilder V R O → Addition V EW RW IW → _)
      HypergraphBuilder.vertexCount HypergraphBuilder.records where
  vertex builder weight := by
    unfold HypergraphBuilder.add HypergraphBuilder.addVertex
    cases (nextVertex builder.vertexCount : Except (HyperBuildError V R) _) with
    | error error => rfl
    | ok allocated => exact ⟨_, rfl, rfl, rfl⟩
  hyperedge builder sources targets weight := by
    have count : builder.records.length = builder.hyperedges.length := length_map _
    unfold HypergraphBuilder.add HypergraphBuilder.addHyperedge
    rw [count]
    dsimp only
    cases (checkHyperedge builder.vertexCount builder.hyperedges.length (sources.map Prod.fst)
        (targets.map Prod.fst) : Except (HyperBuildError V R) R) with
    | error error => rfl
    | ok id =>
      cases grown : pushOrPanic hyperedgeRecordBytes builder.hyperedges
          ⟨sources.map Prod.fst, targets.map Prod.fst⟩ with
      | none => exact .inl ⟨pushOrPanic_eq_none.mp grown, rfl⟩
      | some hyperedges =>
        obtain ⟨room, rfl⟩ := pushOrPanic_eq_some.mp grown
        refine .inr ⟨_, _, rfl, room, rfl, List.map_append, ?_⟩
        simp only [NormalizedHyperedgeRecord.slots, map_map]
        rfl

omit [LayoutIndex O] in
theorem WeightedHypergraphBuilder.follows :
    Follows (WeightedHypergraphBuilder.add :
        WeightedHypergraphBuilder V R O EW RW IW → Addition V EW RW IW → _)
      WeightedHypergraphBuilder.vertexCount WeightedHypergraphBuilder.hyperedges where
  vertex builder weight := by
    unfold WeightedHypergraphBuilder.add WeightedHypergraphBuilder.addVertex
    cases (nextVertex builder.vertexCount : Except (HyperBuildError V R) _) with
    | error error => rfl
    | ok allocated => exact ⟨_, rfl, rfl, rfl⟩
  hyperedge builder sources targets weight := by
    unfold WeightedHypergraphBuilder.add WeightedHypergraphBuilder.addHyperedge
    dsimp only
    cases (checkHyperedge builder.vertexCount builder.hyperedges.length (sources.map Prod.fst)
        (targets.map Prod.fst) : Except (HyperBuildError V R) R) with
    | error error => rfl
    | ok id =>
      cases grown : pushOrPanic hyperedgeRecordBytes builder.hyperedges ⟨sources, targets⟩ with
      | none => exact .inl ⟨pushOrPanic_eq_none.mp grown, rfl⟩
      | some hyperedges =>
        obtain ⟨room, rfl⟩ := pushOrPanic_eq_some.mp grown
        exact .inr ⟨_, _, rfl, room, rfl, rfl, rfl⟩

-- Freezing.

/-- A record with both its sides in ascending order, weights along. -/
def NormalizedHyperedgeRecord.sorted (record : NormalizedHyperedgeRecord V IW) :
    NormalizedHyperedgeRecord V IW where
  sources := record.sources.mergeSort fun left right => toNat left.1 ≤ toNat right.1
  targets := record.targets.mergeSort fun left right => toNat left.1 ≤ toNat right.1

omit [LayoutIndex R] [LayoutIndex O] in
theorem HypergraphBuilder.normalizedHyperedges_eq (builder : HypergraphBuilder V R O) :
    builder.normalizedHyperedges = builder.records.map NormalizedHyperedgeRecord.sorted := by
  unfold HypergraphBuilder.normalizedHyperedges HypergraphBuilder.records
  rw [map_map]
  rfl

omit [LayoutIndex V] [LayoutIndex R] [LayoutIndex O] in
/-- As many hyperedges are listed for vertices as vertices are heads. -/
theorem Hypergraph.length_outgoing (graph : Hypergraph) :
    graph.outgoing.flatten.length = graph.heads.flatten.length := by
  refine length_flatten_transpose (fun set member => ?_) fun set member => ?_
  · obtain ⟨hyperedge, _, rfl⟩ := mem_map.mp member
    exact hyperedge.head.ascending.nodup
  · obtain ⟨hyperedge, _, rfl⟩ := mem_map.mp member
    exact hyperedge.head.below

omit [LayoutIndex V] [LayoutIndex R] [LayoutIndex O] in
/-- As many hyperedges are listed for vertices as vertices are tails. -/
theorem Hypergraph.length_incoming (graph : Hypergraph) :
    graph.incoming.flatten.length = graph.tails.flatten.length := by
  refine length_flatten_transpose (fun set member => ?_) fun set member => ?_
  · obtain ⟨hyperedge, _, rfl⟩ := mem_map.mp member
    exact hyperedge.tail.ascending.nodup
  · obtain ⟨hyperedge, _, rfl⟩ := mem_map.mp member
    exact hyperedge.tail.below

omit [LayoutIndex V] [LayoutIndex R] [LayoutIndex O] in
/-- The incidences are the participants that were added. -/
theorem Added.incidenceCount_graph (added : Added) :
    added.graph.incidenceCount = added.participantCount := by
  unfold Hypergraph.incidenceCount Added.participantCount
  rw [added.heads_graph, added.tails_graph]
  generalize added.hyperedges = hyperedges
  induction hyperedges with
  | nil => rfl
  | cons hyperedge rest ih =>
    simp only [List.map_cons, List.flatten_cons, List.length_append, List.sum_cons,
      List.length_mergeSort] at ih ⊢
    omega

namespace Recorded

variable {vertexCount : Nat} {records : List (NormalizedHyperedgeRecord V IW)} {added : Added}
  (recorded : Recorded R vertexCount records added)
include recorded

/-- The head sets of the sorted records are those of the hypergraph. -/
theorem roleSets_source :
    roleSets (records.map NormalizedHyperedgeRecord.sorted) .source = added.graph.heads := by
  rw [added.heads_graph, ← recorded.hyperedges]
  simp only [roleSets, setsOf, map_map]
  -- Sorting participants by slot sorts their slots.
  exact List.map_congr_left fun record _ => List.map_mergeSort fun _ _ _ _ => rfl

/-- The tail sets of the sorted records are those of the hypergraph. -/
theorem roleSets_target :
    roleSets (records.map NormalizedHyperedgeRecord.sorted) .target = added.graph.tails := by
  rw [added.tails_graph, ← recorded.hyperedges]
  simp only [roleSets, setsOf, map_map]
  exact List.map_congr_left fun record _ => List.map_mergeSort fun _ _ _ _ => rfl

/-- The sorted records of a builder are canonical. -/
theorem canonical :
    Canonical R vertexCount (records.map NormalizedHyperedgeRecord.sorted) := by
  have sets (role : HyperParticipantRole) :
      ∀ set ∈ roleSets (records.map NormalizedHyperedgeRecord.sorted) role,
        ∃ valid : VertexSet added.vertexCount, valid.vertices = set := by
    intro set member
    cases role with
    | source =>
      rw [recorded.roleSets_source] at member
      obtain ⟨hyperedge, _, rfl⟩ := mem_map.mp member
      exact ⟨hyperedge.head, rfl⟩
    | target =>
      rw [recorded.roleSets_target] at member
      obtain ⟨hyperedge, _, rfl⟩ := mem_map.mp member
      exact ⟨hyperedge.tail, rfl⟩
  refine ⟨fun role set member => ?_, fun role set member => ?_, ?_⟩
  · obtain ⟨valid, rfl⟩ := sets role set member
    exact valid.ascending
  · obtain ⟨valid, rfl⟩ := sets role set member
    rw [recorded.vertices]
    exact valid.below
  · rw [length_map]
    exact recorded.named

/-- Participants that are counted role by role are laid out as the hypergraph, and validate. -/
theorem buildTopology_laidOut
    (roles : ∀ role, (roleSets (records.map NormalizedHyperedgeRecord.sorted) role).flatten.length <
      LayoutIndex.bound O)
    (countable : added.graph.incidenceCount < usizeBound)
    (memory : vertexCount ≤ sliceBound vecBytes) :
    ∃ (topology : FrozenTopology V R O) (weights : List IW) (counts : DerivedCounts),
      (buildTopology vertexCount (records.map NormalizedHyperedgeRecord.sorted) :
        Fallible (HyperBuildError V R) _) = pure (topology, weights) ∧
      topology.vertexCount = vertexCount ∧
      LaidOut topology.sections counts added.graph.heads added.graph.tails added.graph.outgoing
        added.graph.incoming ∧
      validateSections topology.sections .strict = pure counts := by
  obtain ⟨topology, graph, built, encoded, same, count, heads, tails⟩ :=
    buildTopology_ok recorded.canonical memory roles
  have canonical := recorded.canonical
  rw [recorded.roleSets_source] at heads
  rw [recorded.roleSets_target] at tails
  rw [recorded.vertices] at count
  -- The built sections are those of the same sets over the same vertices.
  have own : added.graph.EncodedBy topology.sections := by
    refine ⟨heads ▸ encoded.heads, tails ▸ encoded.tails, ?_, ?_⟩
    · have outgoing := encoded.outgoing
      rwa [Hypergraph.outgoing, heads, count] at outgoing
    · have incoming := encoded.incoming
      rwa [Hypergraph.incoming, tails, count] at incoming
  have outgoing : topology.sections.vertexOutgoingHyperedges.length =
      added.graph.heads.flatten.length := by
    rw [← @length_map _ _ _ toNat, own.outgoing.values, Hypergraph.length_outgoing]
  have incoming : topology.sections.vertexIncomingHyperedges.length =
      added.graph.tails.flatten.length := by
    rw [← @length_map _ _ _ toNat, own.incoming.values, Hypergraph.length_incoming]
  -- What fits in memory can be counted.
  have few : added.graph.hyperedges.length + 1 < usizeBound := by
    have most := recorded.inMemory.trans (sliceBound_le _)
    rw [recorded.length_eq] at most
    unfold isizeMax at most
    rw [added.length_graph]
    show _ < 2 ^ 64
    omega
  have counted : vertexCount + 1 < usizeBound := by
    have most := memory.trans (sliceBound_le _)
    unfold isizeMax at most
    show _ < 2 ^ 64
    omega
  have total : topology.sections.vertexOutgoingHyperedges.length +
      topology.sections.vertexIncomingHyperedges.length < usizeBound := by
    rw [outgoing, incoming]
    exact countable
  rw [recorded.vertices] at counted
  have laid := own.laidOut few counted total
  refine ⟨topology, _, _, built, same, laid, validateSections_eq_pure.mpr ⟨_, _, _, _, laid,
    fun _ => ⟨mirrored_transpose _ _, mirrored_transpose _ _, transpose_mirrored _ _,
      transpose_mirrored _ _⟩⟩⟩

variable (fits : added.participantCount < LayoutIndex.bound O)
include fits

/-- Each role has no more participants than both together. -/
theorem role_fits (role : HyperParticipantRole) :
    (roleSets (records.map NormalizedHyperedgeRecord.sorted) role).flatten.length <
      LayoutIndex.bound O := by
  rw [← added.incidenceCount_graph] at fits
  unfold Hypergraph.incidenceCount at fits
  cases role with
  | source =>
    rw [recorded.roleSets_source]
    omega
  | target =>
    rw [recorded.roleSets_target]
    omega

/-- What a builder recorded is laid out as its hypergraph, and validates. -/
theorem buildTopology_validates (memory : vertexCount ≤ sliceBound vecBytes) :
    ∃ (topology : FrozenTopology V R O) (weights : List IW) (counts : DerivedCounts),
      (buildTopology vertexCount (records.map NormalizedHyperedgeRecord.sorted) :
        Fallible (HyperBuildError V R) _) = pure (topology, weights) ∧
      topology.vertexCount = vertexCount ∧
      LaidOut topology.sections counts added.graph.heads added.graph.tails added.graph.outgoing
        added.graph.incoming ∧
      validateSections topology.sections .strict = pure counts := by
  refine recorded.buildTopology_laidOut (recorded.role_fits fits) ?_ memory
  rw [added.incidenceCount_graph]
  exact Nat.lt_of_lt_of_le fits LayoutIndex.bound_le

/-- A vertex index too large for memory panics. -/
theorem buildTopology_panics (memory : sliceBound vecBytes < vertexCount) :
    (buildTopology vertexCount (records.map NormalizedHyperedgeRecord.sorted) :
      Fallible (HyperBuildError V R) (FrozenTopology V R O × List IW)) = ExceptT.mk none := by
  have positive : 0 < LayoutIndex.bound O := Nat.lt_trans Nat.zero_lt_one LayoutIndex.one_lt
  have start : (indexFromUsize 0 : Except Nat O) = .ok (LayoutIndex.ofNat 0) :=
    indexFromUsize_eq_ok.mpr (toNat_ofNat 0 positive)
  obtain ⟨⟨_, _, headWeights⟩, headsAppended⟩ := appendParticipants_ok
    ((records.map NormalizedHyperedgeRecord.sorted).map NormalizedHyperedgeRecord.sources)
    (LayoutIndex.ofNat 0 : O) [] (recorded.role_fits fits .source)
  obtain ⟨⟨_, _, _⟩, tailsAppended⟩ := appendParticipants_ok
    ((records.map NormalizedHyperedgeRecord.sorted).map NormalizedHyperedgeRecord.targets)
    (LayoutIndex.ofNat 0 : O) headWeights (recorded.role_fits fits .target)
  have full : (repeatOrPanic vecBytes vertexCount [] : Option (List (List R))) = none :=
    if_neg (Nat.not_le.mpr memory)
  refine (Fallible.bind_of_pure (converted start)).trans ?_
  refine (Fallible.bind_of_pure (converted start)).trans ?_
  refine (Fallible.bind_of_pure (converted headsAppended)).trans ?_
  refine (Fallible.bind_of_pure (converted tailsAppended)).trans ?_
  refine Fallible.bind_of_panic ?_
  unfold buildVertexRelationIndex
  rw [full]
  rfl

end Recorded

/-- What freezing does with what a builder recorded. -/
theorem Recorded.freezes {vertexCount : Nat} {records : List (NormalizedHyperedgeRecord V IW)}
    {added : Added} (recorded : Recorded R vertexCount records added)
    (fits : added.participantCount < LayoutIndex.bound O) {topology : FrozenTopology V R O}
    {weights : List IW}
    (built : (buildTopology vertexCount (records.map NormalizedHyperedgeRecord.sorted) :
      Fallible (HyperBuildError V R) _) = pure (topology, weights)) :
    added.graph.AnsweredBy topology.traits ∧
      topology.traits = topology.asView.traits.mapRole BcsrRole.participantRole ∧
      ∃ counts, topology.asView = ⟨counts, topology.sections⟩ ∧
        validateSections topology.sections .strict = pure counts := by
  have memory : vertexCount ≤ sliceBound vecBytes := by
    by_contra more
    rw [recorded.buildTopology_panics fits (Nat.lt_of_not_le more)] at built
    cases built
  obtain ⟨_, _, counts, again, _, laid, accepted⟩ := recorded.buildTopology_validates fits memory
  cases Fallible.pure_eq_pure.mp (again.symm.trans built)
  have lent := asView_eq laid.counted
  have same := traits_eq laid (length_outgoingOffsets built)
  have total := fits
  rw [← added.incidenceCount_graph] at total
  have named : added.graph.hyperedges.length ≤ LayoutIndex.bound R := by
    rw [added.length_graph, ← recorded.length_eq]
    exact recorded.named
  refine ⟨?_, same, counts, lent, accepted⟩
  rw [same, lent]
  exact @Hypergraph.answeredBy _ _ _ _ _ _ _ ⟨counts, topology.sections⟩ laid total named

/-- A hyperedge without two valid sides is refused. -/
theorem Follows.refuses {S W : Type}
    {step : S → Addition V EW RW W → Fallible (HyperBuildError V R) S} {vertexCount : S → Nat}
    {records : S → List (NormalizedHyperedgeRecord V IW)}
    (follows : Follows step vertexCount records) {state : S} {sources targets : List (V × W)}
    {weight : RW}
    (invalid : ¬ (Side (vertexCount state) (sources.map fun participant => toNat participant.1) ∧
      Side (vertexCount state) (targets.map fun participant => toNat participant.1))) :
    ∃ error, step state (.hyperedge sources targets weight) = throw error := by
  have followed := follows.hyperedge state sources targets weight
  cases outcome : (checkHyperedge (vertexCount state) (records state).length
      (sources.map Prod.fst) (targets.map Prod.fst) : Except (HyperBuildError V R) R) with
  | error error =>
    rw [outcome] at followed
    exact ⟨error, followed⟩
  | ok id =>
    have valid := (checkHyperedge_eq_ok.mp outcome).1
    rw [map_map, map_map] at valid
    exact absurd valid invalid

/-- A builder that follows the additions and freezes what it recorded freezes what was added. -/
theorem Recorded.freezesAs {S W G : Type}
    {step : S → Addition V EW RW W → Fallible (HyperBuildError V R) S} {vertexCount : S → Nat}
    {records : S → List (NormalizedHyperedgeRecord V IW)} {state : S} {added : Added}
    (recorded : Recorded R (vertexCount state) (records state) added)
    (follows : Follows step vertexCount records) (fits : added.participantCount < LayoutIndex.bound O)
    {freeze : Fallible (HyperBuildError V R) G} {topology : G → FrozenTopology V R O}
    {frozen : FrozenTopology V R O → List IW → G}
    (inverse : ∀ built weights, topology (frozen built weights) = built)
    (same : freeze = do
      let (built, weights) ←
        buildTopology (vertexCount state) ((records state).map NormalizedHyperedgeRecord.sorted)
      validateFrozenTopology built
      return frozen built weights) :
    added.FreezesAs (step state) freeze topology := by
  have returned (graph : G) (outcome : freeze = pure graph) : ∃ weights,
      buildTopology (vertexCount state) ((records state).map NormalizedHyperedgeRecord.sorted) =
        (pure (topology graph, weights) : Fallible (HyperBuildError V R) _) := by
    rw [same] at outcome
    obtain ⟨⟨built, weights⟩, builds, outcome⟩ := Fallible.bind_eq_pure.mp outcome
    obtain ⟨_, _, outcome⟩ := Fallible.bind_eq_pure.mp outcome
    rw [← Fallible.pure_eq_pure.mp outcome, inverse]
    exact ⟨weights, builds⟩
  -- A vertex index that fits in memory is built, and a larger one panics.
  have returns (memory : vertexCount state ≤ sliceBound vecBytes) :
      ∃ graph, freeze = pure graph := by
    obtain ⟨built, weights, counts, builds, _, _, accepted⟩ :=
      recorded.buildTopology_validates fits memory
    exact ⟨_, same.trans (Fallible.bind_eq_pure.mpr ⟨_, builds, Fallible.bind_eq_pure.mpr
      ⟨(), validateFrozenTopology_eq_pure.mpr ⟨counts, accepted⟩, rfl⟩⟩)⟩
  refine ⟨fun sources targets weight invalid => ?_, fun error raised => ?_, fun memory => ?_,
    fun graph outcome => ?_, fun graph outcome => ?_⟩
  · rw [← recorded.vertices] at invalid
    exact follows.refuses invalid
  · rcases Nat.lt_or_ge (sliceBound vecBytes) (vertexCount state) with more | memory
    · rw [same, Fallible.bind_of_panic (recorded.buildTopology_panics fits more)] at raised
      cases raised
    · obtain ⟨graph, outcome⟩ := returns memory
      rw [outcome] at raised
      cases raised
  · exact returns (recorded.vertices ▸ memory)
  · obtain ⟨weights, built⟩ := returned graph outcome
    exact (recorded.freezes fits built).1
  · obtain ⟨weights, built⟩ := returned graph outcome
    exact (recorded.freezes fits built).2.1

/-- The unweighted builder freezes what it recorded. -/
theorem HypergraphBuilder.freezesAs {builder : HypergraphBuilder V R O} {added : Added}
    (recorded : Recorded R builder.vertexCount builder.records added)
    (fits : added.participantCount < LayoutIndex.bound O) :
    added.FreezesAs (builder.add : Addition V EW RW IW → _) builder.freeze
      FrozenHypergraph.topology := by
  refine @Recorded.freezesAs V R O _ _ _ _ _ _ _ _ _ _ _ _ _ _ recorded HypergraphBuilder.follows fits _
    _ (fun built _ => ⟨built⟩) (fun _ _ => rfl) ?_
  rw [← builder.normalizedHyperedges_eq]
  rfl

/-- The weighted builder freezes what it recorded. -/
theorem WeightedHypergraphBuilder.freezesAs {builder : WeightedHypergraphBuilder V R O EW RW IW}
    {added : Added} (recorded : Recorded R builder.vertexCount builder.hyperedges added)
    (fits : added.participantCount < LayoutIndex.bound O) :
    added.FreezesAs builder.add builder.freeze FrozenWeightedHypergraph.topology :=
  @Recorded.freezesAs V R O _ _ _ _ _ _ _ _ _ _ _ _ _ _ recorded WeightedHypergraphBuilder.follows fits _ _
    (fun built weights => ⟨built, builder.elementWeights, builder.relationWeights, weights⟩)
    (fun _ _ => rfl) rfl

end

-- Snapshots.

section

variable {V R O : Type} [SnapshotWidth V] [SnapshotWidth R] [SnapshotWidth O]

/-- The sections of a frozen topology, in the order they are streamed. -/
def topologySections (topology : FrozenTopology V R O) : List StreamedSection :=
  [wordSection (sectionKind O .headOffsets) sectionVersion topology.headOffsets,
    wordSection (sectionKind V .headParticipants) sectionVersion topology.headParticipants,
    wordSection (sectionKind O .tailOffsets) sectionVersion topology.tailOffsets,
    wordSection (sectionKind V .tailParticipants) sectionVersion topology.tailParticipants,
    wordSection (sectionKind O .vertexOutgoingOffsets) sectionVersion
      topology.vertexOutgoingOffsets,
    wordSection (sectionKind R .vertexOutgoingHyperedges) sectionVersion
      topology.vertexOutgoingHyperedges,
    wordSection (sectionKind O .vertexIncomingOffsets) sectionVersion
      topology.vertexIncomingOffsets,
    wordSection (sectionKind R .vertexIncomingHyperedges) sectionVersion
      topology.vertexIncomingHyperedges]

/-- Exporting streams the eight sections over exactly their reservation. -/
theorem exportTopologySnapshot_eq (checksum : Checksum32) (topology : FrozenTopology V R O) :
    exportTopologySnapshot checksum topology =
      (streamSnapshot checksum 8 (topologySections topology)).mapError
        (HyperBuildError.snapshotPlan : PlanError → HyperBuildError V R) := by
  unfold exportTopologySnapshot streamSnapshot addTopologySections topologySections
  simp only [sectionWidths_eq, List.foldlM_cons, List.foldlM_nil, bind_assoc, bind_pure]

/-- The bytes of an exported snapshot: the header, the table, and the payloads. -/
def exportLen (topology : FrozenTopology V R O) : Nat :=
  tableEnd 8 +
    ((topologySections topology).map fun streamed => streamed.pending.payload.length).sum

variable {topology : FrozenTopology V R O}

/-- Exporting a topology whose snapshot can be counted succeeds. -/
theorem exportTopologySnapshot_ok (checksum : Checksum32)
    (small : exportLen topology < usizeBound) :
    ∃ bytes, exportTopologySnapshot checksum topology = .ok bytes := by
  have folds : ∀ streamed ∈ topologySections topology, streamed.Folds checksum := by
    simp [topologySections, folds_wordSection]
  have unaligned : ∀ streamed ∈ topologySections topology, streamed.alignmentLog2 = 0 := by
    simp [topologySections, wordSection]
  -- Each kind base is one step of four above the one before.
  have ascending : ((topologySections topology).map StreamedSection.kind).IsChain (· < ·) := by
    simp only [topologySections, List.map_cons, List.map_nil, wordSection, sectionKind,
      List.isChain_cons_cons, List.isChain_singleton, and_true]
    refine ⟨kind_lt ?_, kind_lt ?_, kind_lt ?_, kind_lt ?_, kind_lt ?_, kind_lt ?_, kind_lt ?_⟩
    all_goals decide
  have few : (topologySections topology).length ≤ maxSectionCount := by
    show 8 ≤ maxSectionCount
    decide
  obtain ⟨bytes, streamed⟩ := streamSnapshot_unaligned folds unaligned ascending few small
  refine ⟨bytes, ?_⟩
  rw [exportTopologySnapshot_eq, mapError_eq_ok]
  exact streamed

/-- A snapshot that holds a topology's sections loads them. -/
theorem loadSections_eq_ok {snapshot : Container.Snapshot}
    (holds : ∀ streamed ∈ topologySections topology, ∃ found,
      snapshot.sectionOf streamed.kind = some found ∧ found.planned = streamed.pending) :
    loadSections snapshot = .ok topology.sections := by
  have load {W : Type} [SnapshotWidth W] (name : BcsrSection) (words : List W)
      (listed : wordSection (sectionKind W name) sectionVersion words ∈
        topologySections topology) : loadSection W snapshot name = .ok words := by
    obtain ⟨found, located, same⟩ := holds _ listed
    exact mapError_eq_ok.mpr (typedWords_eq_ok located same)
  unfold topologySections at load
  refine bind_eq_ok.mpr ⟨_, load .headOffsets topology.headOffsets (by simp), ?_⟩
  refine bind_eq_ok.mpr ⟨_, load .headParticipants topology.headParticipants (by simp), ?_⟩
  refine bind_eq_ok.mpr ⟨_, load .tailOffsets topology.tailOffsets (by simp), ?_⟩
  refine bind_eq_ok.mpr ⟨_, load .tailParticipants topology.tailParticipants (by simp), ?_⟩
  refine bind_eq_ok.mpr ⟨_, load .vertexOutgoingOffsets topology.vertexOutgoingOffsets
    (by simp), ?_⟩
  refine bind_eq_ok.mpr ⟨_, load .vertexOutgoingHyperedges topology.vertexOutgoingHyperedges
    (by simp), ?_⟩
  refine bind_eq_ok.mpr ⟨_, load .vertexIncomingOffsets topology.vertexIncomingOffsets
    (by simp), ?_⟩
  exact bind_eq_ok.mpr ⟨_, load .vertexIncomingHyperedges topology.vertexIncomingHyperedges
    (by simp), rfl⟩

/-- The view reopened from an exported snapshot is the one the topology lends. -/
theorem reopened_eq {checksum : Checksum32} {counts : DerivedCounts} {bytes : Bytes}
    (accepted : validateSections topology.sections .strict = pure counts)
    (lent : topology.asView = ⟨counts, topology.sections⟩)
    (exported : exportTopologySnapshot checksum topology = .ok bytes) :
    ∃ snapshot, Container.Snapshot.openBytes bytes = .ok snapshot ∧
      Container.Snapshot.openChecked bytes checksum = .ok snapshot ∧
      fromSnapshotWith snapshot .strict = pure topology.asView := by
  rw [exportTopologySnapshot_eq, mapError_eq_ok] at exported
  obtain ⟨snapshot, opened, checked, holds⟩ := reopened_of_stream
    (by simp [topologySections, folds_wordSection]) exported
  refine ⟨snapshot, opened, checked, ?_⟩
  refine Fallible.bind_eq_pure.mpr ⟨topology.sections, ?_, ?_⟩
  · rw [loadSections_eq_ok holds]
    rfl
  · rw [Fallible.adapt_eq_pure, lent]
    exact Fallible.bind_eq_pure.mpr ⟨counts, accepted, rfl⟩

/-- A snapshot that can be counted is exported, and reopens as the view the topology lends. -/
structure ReopensAs (checksum : Checksum32) (exported : Except (HyperBuildError V R) Bytes)
    (topology : FrozenTopology V R O) : Prop where
  exports : exportLen topology < usizeBound → ∃ bytes, exported = .ok bytes
  reopens : ∀ bytes, exported = .ok bytes → ∃ snapshot,
    Container.Snapshot.openBytes bytes = .ok snapshot ∧
      Container.Snapshot.openChecked bytes checksum = .ok snapshot ∧
      fromSnapshotWith snapshot .strict = pure topology.asView

/-- A topology built from what was recorded reopens. -/
theorem Recorded.reopensAs {IW : Type} {vertexCount : Nat}
    {records : List (NormalizedHyperedgeRecord V IW)} {added : Added}
    (recorded : Recorded R vertexCount records added)
    (fits : added.participantCount < LayoutIndex.bound O) {weights : List IW}
    (built : (buildTopology vertexCount (records.map NormalizedHyperedgeRecord.sorted) :
      Fallible (HyperBuildError V R) _) = pure (topology, weights)) (checksum : Checksum32) :
    ReopensAs checksum (exportTopologySnapshot checksum topology) topology := by
  obtain ⟨_, _, counts, lent, accepted⟩ := recorded.freezes fits built
  exact ⟨exportTopologySnapshot_ok checksum, fun bytes exported =>
    reopened_eq accepted lent exported⟩

end

/-- A new builder has recorded nothing. -/
theorem recorded_empty (R : Type) {V IW : Type} [LayoutIndex V] [LayoutIndex R] :
    Recorded R 0 ([] : List (NormalizedHyperedgeRecord V IW)) .empty :=
  ⟨rfl, rfl, Nat.zero_le _, Nat.zero_le _⟩

/--
Both builders freeze what was added, and every shape of it answers alike.

Freezing never fails while the incidence width can count the participants.
The frozen hypergraph answers what the added sets define, and as the view it lends; the view that is
reopened from its snapshot is that view.
-/
theorem builders_freeze_additions :
    (∀ (V R O EW RW IW : Type) [LayoutIndex V] [LayoutIndex R] [LayoutIndex O]
      (additions : List (Addition V EW RW IW)),
      (Added.all V R additions).participantCount < LayoutIndex.bound O →
      (∀ builder : HypergraphBuilder V R O,
        Fallible.runAll HypergraphBuilder.add additions .new = some builder →
          (Added.all V R additions).FreezesAs (builder.add : Addition V EW RW IW → _)
            builder.freeze FrozenHypergraph.topology) ∧
      ∀ builder : WeightedHypergraphBuilder V R O EW RW IW,
        Fallible.runAll WeightedHypergraphBuilder.add additions .new = some builder →
          (Added.all V R additions).FreezesAs builder.add builder.freeze
            FrozenWeightedHypergraph.topology) ∧
    (∀ (V R O EW RW IW : Type) [SnapshotWidth V] [SnapshotWidth R] [SnapshotWidth O]
      (checksum : Checksum32) (additions : List (Addition V EW RW IW)),
      (Added.all V R additions).participantCount < LayoutIndex.bound O →
      (∀ (builder : HypergraphBuilder V R O) (graph : FrozenHypergraph V R O),
        Fallible.runAll HypergraphBuilder.add additions .new = some builder →
          builder.freeze = pure graph →
            ReopensAs checksum (exportBcsrSnapshot checksum graph) graph.topology) ∧
      ∀ (builder : WeightedHypergraphBuilder V R O EW RW IW)
        (graph : FrozenWeightedHypergraph V R O EW RW IW),
        Fallible.runAll WeightedHypergraphBuilder.add additions .new = some builder →
          builder.freeze = pure graph →
            ReopensAs checksum (exportWeightedBcsrSnapshot checksum graph) graph.topology) := by
  refine ⟨?_, ?_⟩
  · intro V R O EW RW IW _ _ _ additions fits
    refine ⟨fun builder ran => ?_, fun builder ran => ?_⟩
    · exact HypergraphBuilder.freezesAs
        (HypergraphBuilder.follows.keeps.runAll (recorded_empty R) ran) fits
    · exact WeightedHypergraphBuilder.freezesAs
        (WeightedHypergraphBuilder.follows.keeps.runAll (recorded_empty R) ran) fits
  · intro V R O EW RW IW _ _ _ checksum additions fits
    refine ⟨fun builder graph ran returned => ?_, fun builder graph ran returned => ?_⟩
    · have recorded := HypergraphBuilder.follows.keeps.runAll (recorded_empty R) ran
      obtain ⟨weights, built, _⟩ := HypergraphBuilder.freeze_eq_pure.mp returned
      rw [builder.normalizedHyperedges_eq] at built
      exact recorded.reopensAs fits built checksum
    · have recorded := WeightedHypergraphBuilder.follows.keeps.runAll (recorded_empty R) ran
      obtain ⟨built, _⟩ := WeightedHypergraphBuilder.freeze_eq_pure.mp returned
      exact recorded.reopensAs fits built checksum

/-- Three vertices and two hyperedges, between two hyperedges that are refused. -/
def someAdditions : List (Addition UInt16 Unit Unit Unit) :=
  [.vertex (), .vertex (), .vertex (), .hyperedge [(2, ()), (0, ())] [(1, ())] (),
    .hyperedge [(5, ())] [] (), .hyperedge [] [(1, ()), (1, ())] (), .hyperedge [] [] ()]

/-- The additions are frozen, exported and reopened. -/
theorem builders_freeze_some_additions :
    ∃ (builder : HypergraphBuilder UInt16 UInt16 UInt16)
      (graph : FrozenHypergraph UInt16 UInt16 UInt16),
      Fallible.runAll HypergraphBuilder.add someAdditions .new = some builder ∧
        builder.freeze = pure graph ∧ graph.topology.traits.elementCount = 3 ∧
        graph.topology.traits.relationCount = 2 ∧
        ReopensAs castagnoli.crc32cAppend (exportBcsrSnapshot castagnoli.crc32cAppend graph)
          graph.topology := by
  obtain ⟨builder, ran⟩ := @Follows.runs UInt16 UInt16 Unit Unit Unit _ _
    (HypergraphBuilder UInt16 UInt16 UInt16) Unit _ _ _ HypergraphBuilder.follows someAdditions .new
    (by decide)
  have fits : (Added.all UInt16 UInt16 someAdditions).participantCount < 2 ^ 16 := by decide
  have freezes := (builders_freeze_additions.1 _ _ UInt16 _ _ _ someAdditions fits).1 builder ran
  obtain ⟨graph, returned⟩ := freezes.returns (by decide)
  have answers := freezes.answers graph returned
  have reopens := (builders_freeze_additions.2 _ _ UInt16 _ _ _ castagnoli.crc32cAppend
    someAdditions fits).1 builder graph ran returned
  refine ⟨builder, graph, ran, returned, answers.elementCount, ?_, reopens⟩
  rw [answers.relationCount, Added.length_graph]
  decide

end Oxgraph.Bcsr
