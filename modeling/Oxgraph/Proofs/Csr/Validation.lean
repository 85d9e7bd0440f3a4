import Oxgraph.Proofs.Csr.Frozen
import Oxgraph.Spec.Digraph

/-! Validation accepts the canonical encodings and no other arrays, and never panics. -/

namespace Oxgraph.Csr

open Layout

variable {N E I J : Type} [LayoutIndex N] [LayoutIndex E] [LayoutIndex I] [LayoutIndex J]

-- What is rejected is reported without a panic.

/-- An issue names words that are there, so that reading them again does not panic. -/
def Locates (length : Nat) : OffsetIntegrityIssue → Prop
  | .firstNonZero _ => 0 < length
  | .nonMonotonic index _ _ => 0 < index ∧ index < length
  | .finalMismatch _ _ => 0 < length
  | .valueOutOfRange index _ _ => index < length
  | .usizeOverflow index => index < length
  | _ => True

variable {issue : OffsetIntegrityIssue}

/-- The monotonic check names words that are there. -/
theorem checkMonotonicFrom_locates {index previous : Nat} {words : List I}
    (failed : checkMonotonicFrom index previous words = .error issue) :
    Locates (index + words.length) issue := by
  induction words generalizing index previous with
  | nil => cases failed
  | cons word rest ih =>
    rw [checkMonotonicFrom, toUsize_eq] at failed
    dsimp only at failed
    have later (next : checkMonotonicFrom (index + 1) (toNat word) rest = .error issue) :
        Locates (index + (word :: rest).length) issue := by
      have found := ih next
      rwa [List.length_cons, Nat.add_comm rest.length, ← Nat.add_assoc]
    by_cases origin : index = 0
    · rw [if_pos origin] at failed
      split at failed
      · cases failed
        show 0 < index + (rest.length + 1)
        omega
      · exact later failed
    · rw [if_neg origin] at failed
      split at failed
      · cases failed
        show 0 < index ∧ index < index + (rest.length + 1)
        omega
      · exact later failed

/-- The range check names words that are there. -/
theorem checkValuesFrom_locates {bound index : Nat} {words : List I}
    (failed : checkValuesFrom bound index words = .error issue) :
    Locates (index + words.length) issue := by
  induction words generalizing index with
  | nil => cases failed
  | cons word rest ih =>
    rw [checkValuesFrom, toUsize_eq] at failed
    dsimp only at failed
    split at failed
    · cases failed
      show index < index + (rest.length + 1)
      omega
    · have found := ih failed
      rwa [List.length_cons, Nat.add_comm rest.length, ← Nat.add_assoc]

/-- The offset check reads the last offset only when there is one, and names words that are there. -/
theorem checkOffsetSection_reports (offsets : List I) (count valueLen : Nat) :
    (checkOffsetSection offsets count valueLen).Total ∧
      ∀ issue, checkOffsetSection offsets count valueLen = throw issue →
        Locates offsets.length issue := by
  unfold checkOffsetSection
  cases checkedAdd_eq : checkedAdd count 1 with
  | none =>
    refine ⟨Fallible.total_throw _, ?_⟩
    intro issue raised
    cases raised
    trivial
  | some expected =>
    obtain ⟨rfl, _⟩ := checkedAdd_eq_some.mp checkedAdd_eq
    dsimp only
    by_cases size : offsets.length = count + 1
    · rw [if_neg (not_not.mpr size)]
      have inside : offsets.length - 1 < offsets.length := by omega
      have last := List.getElem?_eq_getElem inside
      rw [last]
      cases monotonic : checkOffsetsMonotonic offsets with
      | error issue =>
        refine ⟨Fallible.total_throw issue, ?_⟩
        intro other raised
        cases raised
        have located := checkMonotonicFrom_locates monotonic
        rwa [Nat.zero_add] at located
      | ok _ =>
        simp only [toUsize_eq]
        -- After the monotonic check only the last offset is compared.
        let compared : Fallible OffsetIntegrityIssue Unit :=
          if toNat offsets[offsets.length - 1] ≠ valueLen then
            throw (.finalMismatch (toNat offsets[offsets.length - 1]) valueLen)
          else return ()
        change compared.Total ∧ ∀ issue, compared = throw issue → Locates offsets.length issue
        unfold compared
        by_cases final : toNat offsets[offsets.length - 1] ≠ valueLen
        · rw [if_pos final]
          refine ⟨Fallible.total_throw _, ?_⟩
          intro issue raised
          cases raised
          show 0 < offsets.length
          omega
        · rw [if_neg final]
          refine ⟨Fallible.total_pure _, ?_⟩
          intro issue raised
          cases raised
    · rw [if_pos size]
      refine ⟨Fallible.total_throw _, ?_⟩
      intro issue raised
      cases raised
      trivial

omit [LayoutIndex N] in
/-- An issue with the offsets that names words that are there can be reported. -/
theorem mapOffsetsIssue_isSome {offsets : List E} (located : Locates offsets.length issue) :
    (mapOffsetsIssue offsets issue : Option (CsrError N E)).isSome := by
  cases issue with
  | length expected actual => rfl
  | countOverflow count => rfl
  | valueOutOfRange index value bound => rfl
  | firstNonZero actual =>
    have inside : 0 < offsets.length := located
    simp [mapOffsetsIssue, List.getElem?_eq_getElem inside]
  | nonMonotonic index previous actual =>
    obtain ⟨positive, inside⟩ : 0 < index ∧ index < offsets.length := located
    have before : index - 1 < offsets.length := by omega
    simp [mapOffsetsIssue, subOrPanic, Nat.succ_le_of_lt positive,
      List.getElem?_eq_getElem inside, List.getElem?_eq_getElem before]
  | finalMismatch final valueLen =>
    have positive : 0 < offsets.length := located
    have inside : offsets.length - 1 < offsets.length := by omega
    simp [mapOffsetsIssue, subOrPanic, Nat.succ_le_of_lt positive,
      List.getElem?_eq_getElem inside]
  | usizeOverflow index =>
    have inside : index < offsets.length := located
    simp [mapOffsetsIssue, List.getElem?_eq_getElem inside]

omit [LayoutIndex E] in
/-- An issue with the targets that names words that are there can be reported. -/
theorem mapTargetsIssue_isSome {targets : List N} {nodeCount : N}
    (located : Locates targets.length issue) :
    (mapTargetsIssue targets nodeCount issue : Option (CsrError N E)).isSome := by
  cases issue with
  | length expected actual => rfl
  | countOverflow count => rfl
  | firstNonZero actual => rfl
  | nonMonotonic index previous actual => rfl
  | finalMismatch final valueLen => rfl
  | valueOutOfRange index value bound =>
    have inside : index < targets.length := located
    simp [mapTargetsIssue, List.getElem?_eq_getElem inside]
  | usizeOverflow index =>
    have inside : index < targets.length := located
    simp [mapTargetsIssue, List.getElem?_eq_getElem inside]

namespace CsrGraph

variable {nodeCount : N} {offsets : List E} {targets : List N} {graph : CsrGraph N E}

/-- Validation panics on no arrays at all. -/
theorem total_validate (nodeCount : N) (offsets : List E) (targets : List N) :
    (CsrGraph.validate nodeCount offsets targets : Fallible (CsrError N E) _).Total := by
  unfold CsrGraph.validate
  rw [toUsize_eq]
  dsimp only
  split
  · exact Fallible.total_throw _
  · obtain ⟨total, reports⟩ := checkOffsetSection_reports offsets (toNat nodeCount) targets.length
    refine (total.adaptOrPanic fun issue raised =>
      mapOffsetsIssue_isSome (reports issue raised)).bind fun _ _ => ?_
    refine ((Fallible.total_ofResult _).adaptOrPanic fun issue raised => ?_).bind fun _ _ =>
      Fallible.total_pure _
    have failed : checkValueRange targets (toNat nodeCount) = .error issue := by
      cases outcome : checkValueRange targets (toNat nodeCount) with
      | error other =>
        rw [outcome] at raised
        cases raised
        rfl
      | ok _ =>
        rw [outcome] at raised
        cases raised
    have located := checkValuesFrom_locates failed
    rw [Nat.zero_add] at located
    exact mapTargetsIssue_isSome located

/-- An accepted view is over the arrays, which encode rows. -/
theorem encodes_of_validate
    (accepted : (CsrGraph.validate nodeCount offsets targets : Fallible (CsrError N E) _) =
      pure graph) :
    graph = ⟨nodeCount, toNat nodeCount, offsets, targets⟩ ∧
      ∃ rows, Encodes nodeCount offsets targets rows := by
  unfold CsrGraph.validate at accepted
  rw [toUsize_eq] at accepted
  dsimp only at accepted
  split at accepted
  · exact absurd accepted Fallible.throw_ne_pure
  · obtain ⟨_, checkedOffsets, accepted⟩ := Fallible.bind_eq_pure.mp accepted
    obtain ⟨_, checkedTargets, accepted⟩ := Fallible.bind_eq_pure.mp accepted
    rw [Fallible.adaptOrPanic_eq_pure] at checkedOffsets checkedTargets
    obtain ⟨_, rows, count, flat⟩ := checkOffsetSection_eq_pure.mp checkedOffsets
    have known := checkValueRange_eq_ok.mp (Fallible.ofResult_eq_pure.mp checkedTargets)
    exact ⟨(Fallible.pure_eq_pure.mp accepted).symm, rows, count, flat.forall_values.mp known, flat⟩

end CsrGraph

namespace Encodes

variable {nodeCount : N} {offsets : List E} {targets : List N} {rows : List (List Nat)}
  (encodes : Encodes nodeCount offsets targets rows)
include encodes

/-- Arrays that encode rows are accepted. -/
theorem validates (slice : offsets.length < usizeBound) :
    (CsrGraph.validate nodeCount offsets targets : Fallible (CsrError N E) _) =
      pure ⟨nodeCount, toNat nodeCount, offsets, targets⟩ := by
  have length := encodes.flat.length_offsets
  rw [List.length_map, encodes.count] at length
  exact CsrGraph.validate_eq encodes.flat encodes.count (length ▸ slice)
    (encodes.flat.forall_values.mpr encodes.known)

/-- Every position of a target is a slot of the edge width. -/
theorem targets_fit : targets.length < LayoutIndex.bound E := by
  have last := encodes.flat.last
  rw [List.length_map, List.getElem?_map, Option.map_eq_some_iff] at last
  obtain ⟨word, _, carried⟩ := last
  rw [← carried]
  exact LayoutIndex.toNat_lt word

/-- The targets are those of the rows. -/
theorem targets_eq : targets = (rows.map fun row => row.map LayoutIndex.ofNat).flatten := by
  rw [← List.map_flatten]
  exact eq_map_ofNat encodes.flat.values

section Nodes

variable {node : N} (valid : toNat node < toNat nodeCount)
include valid

/-- A node has a row. -/
theorem getElem?_row : rows[toNat node]? = some (rows.getD (toNat node) []) := by
  have inside : toNat node < rows.length := by rwa [encodes.count]
  rw [List.getElem?_eq_getElem inside, List.getD_eq_getElem _ _ inside]

/-- The row of a node ends inside the targets. -/
theorem row_le : (rows.take (toNat node)).flatten.length + (rows.getD (toNat node) []).length ≤
    targets.length := by
  have stop := (encodes.flat.bucket (encodes.getElem?_row valid)).2.2.1
  rwa [List.length_map] at stop

/-- The range of a node encloses its row. -/
theorem outgoingRange_eq :
    (CsrGraph.mk nodeCount (toNat nodeCount) offsets targets).outgoingRange (toNat node) =
      some ((rows.take (toNat node)).flatten.length,
        (rows.take (toNat node)).flatten.length + (rows.getD (toNat node) []).length) := by
  obtain ⟨first, last, found, follow, start, stop⟩ :=
    offset_words encodes.flat (encodes.getElem?_row valid)
  unfold CsrGraph.outgoingRange
  rw [← stop, ← start]
  simp only [found, follow]
  show (do
    let start ← indexToUsizeValidated first
    let stop ← indexToUsizeValidated last
    return (start, stop)) = _
  rw [indexToUsizeValidated_eq, indexToUsizeValidated_eq]
  rfl

omit [LayoutIndex E] encodes in
/-- The slot of a node is its index. -/
theorem checkedNodeSlot_eq :
    (CsrGraph.mk nodeCount (toNat nodeCount) offsets targets).checkedNodeSlot node =
      some (toNat node) := by
  unfold CsrGraph.checkedNodeSlot
  rw [CsrGraph.tryNodeSlot_eq rfl rfl, if_pos valid]

/-- The edges of a node are the positions of its row. -/
theorem outgoingEdges_eq :
    (CsrGraph.mk nodeCount (toNat nodeCount) offsets targets).outgoingEdges node =
      some ((List.range' (rows.take (toNat node)).flatten.length
        (rows.getD (toNat node) []).length).map LayoutIndex.ofNat) := by
  unfold CsrGraph.outgoingEdges
  rw [checkedNodeSlot_eq valid]
  show (CsrGraph.outgoingRange _ (toNat node)).bind _ = _
  rw [encodes.outgoingRange_eq valid, Option.bind_some]
  show (subOrPanic _ _).bind _ = _
  rw [subOrPanic, if_pos (Nat.le_add_right _ _), Nat.add_sub_cancel_left, Option.bind_some]
  refine mapM_some fun place member => usizeToIndexValidated_eq ?_
  have inside := (List.mem_range'_1.mp member).2
  have stop := encodes.row_le valid
  have fits := encodes.targets_fit
  omega

/-- The edges of a node carry the positions of its row. -/
theorem positions :
    ((List.range' (rows.take (toNat node)).flatten.length
      (rows.getD (toNat node) []).length).map (LayoutIndex.ofNat : Nat → E)).map toNat =
        List.range' (rows.take (toNat node)).flatten.length
          (rows.getD (toNat node) []).length := by
  refine map_toNat_map_ofNat fun place member => ?_
  have inside := (List.mem_range'_1.mp member).2
  have stop := encodes.row_le valid
  have fits := encodes.targets_fit
  omega

/-- The targets between the ends of a node's range are its row. -/
theorem sliceOf_eq :
    sliceOf targets (rows.take (toNat node)).flatten.length
        ((rows.take (toNat node)).flatten.length + (rows.getD (toNat node) []).length) =
      some ((rows.getD (toNat node) []).map LayoutIndex.ofNat) :=
  sliceOf_bucket encodes.flat (by rwa [encodes.count])

/-- The successors of a node are its row. -/
theorem elementSuccessors_eq :
    (CsrGraph.mk nodeCount (toNat nodeCount) offsets targets).elementSuccessors node =
      some ((rows.getD (toNat node) []).map LayoutIndex.ofNat) := by
  unfold CsrGraph.elementSuccessors
  rw [checkedNodeSlot_eq valid]
  show (CsrGraph.outgoingRange _ (toNat node)).bind _ = _
  rw [encodes.outgoingRange_eq valid]
  exact encodes.sliceOf_eq valid

/-- Visiting the targets of a node visits its row. -/
theorem forEachOutTarget_eq {S : Type} (visit : S → N → Bool × S) (state : S) :
    (CsrGraph.mk nodeCount (toNat nodeCount) offsets targets).forEachOutTarget node visit state =
      some (CsrGraph.visitUntil visit state
        ((rows.getD (toNat node) []).map LayoutIndex.ofNat)) := by
  obtain ⟨first, last, found, follow, start, stop⟩ :=
    offset_words encodes.flat (encodes.getElem?_row valid)
  unfold CsrGraph.forEachOutTarget
  rw [CsrGraph.tryNodeSlot_eq rfl rfl, if_pos valid, toUsize_eq]
  simp only [found, follow, toUsize_eq, Option.bind_eq_bind, Option.bind_some, start, stop]
  rw [encodes.sliceOf_eq valid]
  rfl

end Nodes

section Edges

variable {edge : E} (valid : toNat edge < targets.length)
include valid

omit encodes in
/-- The slot of an edge is its position. -/
theorem checkedEdgeSlot_eq :
    (CsrGraph.mk nodeCount (toNat nodeCount) offsets targets).checkedEdgeSlot edge =
      some (toNat edge) := by
  unfold CsrGraph.checkedEdgeSlot
  rw [CsrGraph.tryEdgeSlot_eq]
  exact if_pos valid

omit encodes in
/-- The target of an edge is the one at its position. -/
theorem target_eq :
    (CsrGraph.mk nodeCount (toNat nodeCount) offsets targets).target edge =
      targets[toNat edge]? := by
  unfold CsrGraph.target
  rw [checkedEdgeSlot_eq valid]
  rfl

/-- The target of an edge is a node. -/
theorem target_known : toNat targets[toNat edge] < toNat nodeCount :=
  encodes.flat.forall_values.mpr encodes.known _ (List.mem_map_of_mem (List.getElem_mem valid))

end Edges

/-- Position by position, the successors of a node are the targets of its edges. -/
theorem successors_eq_targets {node : N} (valid : toNat node < toNat nodeCount) :
    ((rows.getD (toNat node) []).map (LayoutIndex.ofNat : Nat → N)).map some =
      ((List.range' (rows.take (toNat node)).flatten.length
        (rows.getD (toNat node) []).length).map (LayoutIndex.ofNat : Nat → E)).map
          (CsrGraph.mk nodeCount (toNat nodeCount) offsets targets).target := by
  have known : toNat node < rows.length := by rwa [encodes.count]
  have slots := slots_bucket encodes.flat known
  have row := encodes.flat.map_positions (encodes.getElem?_row valid)
  have stop := encodes.row_le valid
  -- Compared by their slots, both lists are the row.
  apply List.map_injective_iff.mpr (Option.map_injective fun _ _ => toNat_injective)
  have left : (((rows.getD (toNat node) []).map (LayoutIndex.ofNat : Nat → N)).map some).map
      (Option.map toNat) = (rows.getD (toNat node) []).map some := by
    conv_rhs => rw [← slots]
    rw [List.map_map, List.map_map, List.map_map, List.map_map]
    rfl
  rw [left, ← row, List.map_map, List.map_map]
  refine List.map_congr_left fun place member => ?_
  have inside := (List.mem_range'_1.mp member).2
  have fits := encodes.targets_fit
  have carried : toNat (LayoutIndex.ofNat place : E) = place :=
    LayoutIndex.toNat_ofNat place (by omega)
  rw [Function.comp_apply, Function.comp_apply, Encodes.target_eq (by rw [carried]; omega), carried,
    List.getElem?_map]

/-- A view over arrays that encode rows stays in bounds. -/
theorem inBounds : (CsrGraph.mk nodeCount (toNat nodeCount) offsets targets).InBounds := by
  refine
    { containsElement := fun node => ?_
      containsRelation := fun edge => ?_
      elementIndex := fun node valid => ⟨_, checkedNodeSlot_eq valid, valid⟩
      relationIndex := fun edge valid => ⟨_, checkedEdgeSlot_eq valid, valid⟩
      target := fun edge valid => ?_
      outgoing := fun node valid => ?_ }
  · show (CsrGraph.tryNodeSlot _ node).isSome = true ↔ _
    rw [CsrGraph.tryNodeSlot_eq rfl rfl]
    unfold CsrGraph.Node
    split <;> simp_all
  · show (CsrGraph.tryEdgeSlot _ edge).isSome = true ↔ _
    rw [CsrGraph.tryEdgeSlot_eq]
    unfold CsrGraph.Edge
    split <;> simp_all
  · have inside : toNat edge < targets.length := valid
    have located : (CsrGraph.mk nodeCount (toNat nodeCount) offsets targets).target edge =
        some targets[toNat edge] :=
      (Encodes.target_eq inside).trans (List.getElem?_eq_getElem inside)
    exact ⟨targets[toNat edge], encodes.target_known inside, located, located⟩
  · have known : toNat node < rows.length := by
      rw [encodes.count]
      exact valid
    have slots := slots_bucket encodes.flat known
    refine ⟨_, _, _, _, encodes.outgoingRange_eq valid, Nat.le_add_right _ _,
      encodes.row_le valid, encodes.outgoingEdges_eq valid, ?_, ?_, ?_,
      encodes.elementSuccessors_eq valid, ?_, encodes.successors_eq_targets valid,
      fun visit state => encodes.forEachOutTarget_eq valid visit state⟩
    · intro edge member
      have position := List.mem_map_of_mem (f := toNat) member
      rw [encodes.positions valid] at position
      have inside := (List.mem_range'_1.mp position).2
      have stop := encodes.row_le valid
      show toNat edge < targets.length
      omega
    · rw [encodes.positions valid, Nat.add_sub_cancel_left]
    · show CsrGraph.outDegree _ node = _
      unfold CsrGraph.outDegree
      rw [checkedNodeSlot_eq valid]
      show (CsrGraph.outgoingRange _ (toNat node)).bind _ = _
      rw [encodes.outgoingRange_eq valid, Option.bind_some, List.length_map, List.length_range']
      show subOrPanic _ _ = _
      rw [subOrPanic, if_pos (Nat.le_add_right _ _), Nat.add_sub_cancel_left]
    · intro successor member
      have slot := List.mem_map_of_mem (f := toNat) member
      rw [slots] at slot
      exact encodes.known _ (List.mem_of_getElem? (encodes.getElem?_row valid)) _ slot

/-- The successors of the nodes in order are the targets. -/
theorem mapM_elementSuccessors :
    ((List.range (toNat nodeCount)).map LayoutIndex.ofNat).mapM
        (CsrGraph.mk nodeCount (toNat nodeCount) offsets targets).elementSuccessors =
      some (rows.map fun row => row.map LayoutIndex.ofNat) := by
  have each : ∀ node ∈ (List.range (toNat nodeCount)).map (LayoutIndex.ofNat : Nat → N),
      (CsrGraph.mk nodeCount (toNat nodeCount) offsets targets).elementSuccessors node =
        some ((rows.getD (toNat node) []).map LayoutIndex.ofNat) := by
    intro node member
    obtain ⟨slot, inside, rfl⟩ := List.mem_map.mp member
    have below := List.mem_range.mp inside
    refine encodes.elementSuccessors_eq ?_
    rwa [LayoutIndex.toNat_ofNat _ (Nat.lt_trans below (LayoutIndex.toNat_lt nodeCount))]
  rw [mapM_some each, List.map_map]
  refine congrArg some (List.ext_getElem (by simp [encodes.count]) fun slot inside other => ?_)
  rw [List.length_map, List.length_range] at inside
  rw [List.length_map] at other
  rw [List.getElem_map, List.getElem_range, List.getElem_map, Function.comp_apply,
    LayoutIndex.toNat_ofNat _ (Nat.lt_trans inside (LayoutIndex.toNat_lt nodeCount)),
    List.getD_eq_getElem _ _ other]

end Encodes

/--
Validation accepts exactly the arrays that encode rows, and reports all others without a panic.

What it accepts is enough: every method of the view stays in bounds, and the successors of the nodes
in order are the target array.
-/
theorem validate_iff_encodes (N E : Type) [LayoutIndex N] [LayoutIndex E] (nodeCount : N)
    (offsets : List E) (targets : List N) (slice : offsets.length < usizeBound) :
    (CsrGraph.validate nodeCount offsets targets : Fallible (CsrError N E) _).Total ∧
      ((∃ graph, (CsrGraph.validate nodeCount offsets targets : Fallible (CsrError N E) _) =
        pure graph) ↔ ∃ rows, Encodes nodeCount offsets targets rows) ∧
      ∀ graph, (CsrGraph.validate nodeCount offsets targets : Fallible (CsrError N E) _) =
        pure graph → graph.InBounds ∧ ∃ rows,
          ((List.range (toNat nodeCount)).map LayoutIndex.ofNat).mapM
            graph.traits.elementSuccessors = some rows ∧ rows.flatten = targets := by
  refine ⟨CsrGraph.total_validate nodeCount offsets targets, ?_, ?_⟩
  · constructor
    · rintro ⟨graph, accepted⟩
      exact (CsrGraph.encodes_of_validate accepted).2
    · rintro ⟨rows, encodes⟩
      exact ⟨_, encodes.validates slice⟩
  · intro graph accepted
    obtain ⟨rfl, rows, encodes⟩ := CsrGraph.encodes_of_validate accepted
    exact ⟨encodes.inBounds, _, encodes.mapM_elementSuccessors, encodes.targets_eq.symm⟩

/-- Three nodes, the second of them without targets. -/
theorem validate_iff_encodes_three :
    ∃ graph : CsrGraph UInt16 UInt32, (CsrGraph.validate 3 [0, 2, 2, 3] [1, 2, 0] :
      Fallible (CsrError UInt16 UInt32) _) = pure graph ∧ graph.InBounds := by
  have exact_ := validate_iff_encodes UInt16 UInt32 3 [0, 2, 2, 3] [1, 2, 0] (by decide)
  have encodes : Encodes (3 : UInt16) ([0, 2, 2, 3] : List UInt32) [1, 2, 0] [[1, 2], [], [0]] :=
    ⟨by decide, by decide, by decide, by decide⟩
  obtain ⟨graph, accepted⟩ := exact_.2.1.mpr ⟨_, encodes⟩
  exact ⟨graph, accepted, (exact_.2.2 graph accepted).1⟩

end Oxgraph.Csr
