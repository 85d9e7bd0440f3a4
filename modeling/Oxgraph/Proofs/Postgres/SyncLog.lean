import Oxgraph.Proofs.Postgres.Overlay
import Oxgraph.Spec.Sync

/-! Replaying a sync log has the net effect of its actions, also over an overlay that has some. -/

namespace Oxgraph.Postgres

namespace OverlayState

/-- The indexes are those that indexing the inserted edges one after the other makes. -/
def Built (overlay : OverlayState) : Prop :=
  (overlay.bySource, overlay.byTarget) =
    overlay.addedEdges.foldl (fun (bySource, byTarget) edge => index bySource byTarget edge) (∅, ∅)

theorem built_default : OverlayState.default.Built := rfl

/-- Every change of an overlay keeps it built. -/
theorem Built.edit {overlay : OverlayState} (built : overlay.Built) (edit : OverlayEdit) :
    (edit.apply overlay).Built := by
  cases edit with
  | pushEdge edge =>
    show index overlay.bySource overlay.byTarget edge = _
    show _ = (overlay.addedEdges ++ [edge]).foldl _ _
    rw [List.foldl_append, ← built]
    rfl
  | removeEdge source target => rfl
  | tombstoneEdge edgeId => exact built
  | tombstoneNode nodeId => exact built
  | clear => rfl

/-- Any changes of a new overlay leave it built. -/
theorem built_all (edits : List OverlayEdit) : (OverlayEdit.all edits).Built := by
  unfold OverlayEdit.all
  generalize initial : OverlayState.default = overlay
  have built : overlay.Built := initial ▸ built_default
  clear initial
  induction edits generalizing overlay with
  | nil => exact built
  | cons edit rest ih => exact ih _ (built.edit edit)

/-- A built overlay is its inserted edges and its tombstones. -/
theorem Built.ext {left right : OverlayState} (builtLeft : left.Built) (builtRight : right.Built)
    (edges : left.addedEdges = right.addedEdges)
    (deletedEdges : left.tombstonedEdges = right.tombstonedEdges)
    (deletedNodes : left.tombstonedNodes = right.tombstonedNodes) : left = right := by
  have indexes : (left.bySource, left.byTarget) = (right.bySource, right.byTarget) := by
    rw [builtLeft, builtRight, edges]
  obtain ⟨bySource, byTarget⟩ := Prod.mk.inj indexes
  cases left
  cases right
  simp only at edges deletedEdges deletedNodes bySource byTarget
  subst edges deletedEdges deletedNodes bySource byTarget
  rfl

end OverlayState

/-- The change of an overlay that an action makes. -/
def SyncAction.edit : SyncAction → OverlayEdit
  | .insertEdge source target => .pushEdge ⟨source, target⟩
  | .removeOverlayEdge source target => .removeEdge source target
  | .deleteEdge edgeId => .tombstoneEdge edgeId
  | .deleteNode nodeId => .tombstoneNode nodeId
  | .truncateOverlays => .clear

theorem SyncAction.applyTo_eq (overlay : OverlayState) (action : SyncAction) :
    action.applyTo overlay = action.edit.apply overlay := by
  cases action <;> rfl

namespace SyncLog

variable (actions : List SyncAction)

/-- The overlay after actions. -/
def replayed (overlay : OverlayState) : OverlayState :=
  actions.foldl SyncAction.applyTo overlay

variable {overlay : OverlayState}

/-- Replayed actions keep an overlay built. -/
theorem built_replayed (built : overlay.Built) : (replayed actions overlay).Built := by
  induction actions generalizing overlay with
  | nil => exact built
  | cons action rest ih =>
    refine ih ?_
    rw [SyncAction.applyTo_eq]
    exact built.edit action.edit

-- Rows in sequence.

/-- A replay applies the rows before the first one that is out of sequence. -/
theorem applyFrom_overlay (last : Option UInt64) (applied : Nat) (rows : List SyncRow)
    (overlay : OverlayState) : (SyncRow.applyFrom last applied rows overlay).2 =
      replayed ((inSequence last rows).map SyncRow.action) overlay := by
  induction rows generalizing last applied overlay with
  | nil => rfl
  | cons row rest ih =>
    rw [SyncRow.applyFrom, inSequence]
    cases last with
    | none => exact ih (some row.sequence) (applied + 1) (row.action.applyTo overlay)
    | some previous =>
      by_cases out : row.sequence ≤ previous
      · rw [Option.filter_some, if_pos (decide_eq_true out), Option.any_some,
          if_pos (decide_eq_true out)]
        rfl
      · rw [Option.filter_some, if_neg (by simpa using out), Option.any_some,
          if_neg (by simpa using out)]
        exact ih (some row.sequence) (applied + 1) (row.action.applyTo overlay)

/-- A replay of rows in sequence returns how many there are. -/
theorem applyFrom_increasing {last : Option UInt64} {rows : List SyncRow}
    (increasing : Increasing rows)
    (past : ∀ previous, last = some previous → ∀ row ∈ rows, previous < row.sequence)
    (applied : Nat) (overlay : OverlayState) : SyncRow.applyFrom last applied rows overlay =
      (.ok (applied + rows.length), replayed (rows.map SyncRow.action) overlay) := by
  induction rows generalizing last applied overlay with
  | nil => rfl
  | cons row rest ih =>
    obtain ⟨below, others⟩ := List.pairwise_cons.mp increasing
    have admitted : (last.filter fun previous => decide (row.sequence ≤ previous)) = none := by
      rw [Option.filter_eq_none_iff]
      intro previous same
      have after := past previous same row List.mem_cons_self
      simpa using after
    rw [SyncRow.applyFrom, admitted, List.length_cons, Nat.add_comm rest.length, ← Nat.add_assoc]
    refine ih others ?_ (applied + 1) (row.action.applyTo overlay)
    rintro _ ⟨⟩
    exact below

variable {rows : List SyncRow}

/-- Rows in strictly increasing sequence are all replayed. -/
theorem applyInOrder_increasing (increasing : Increasing rows) (overlay : OverlayState) :
    SyncRow.applyInOrder rows overlay =
      (.ok rows.length, replayed (rows.map SyncRow.action) overlay) := by
  have ran := @applyFrom_increasing none rows increasing (fun _ never => (nomatch never)) 0
    overlay
  rw [Nat.zero_add] at ran
  exact ran

theorem mem_of_inSequence {last : Option UInt64} {row : SyncRow}
    (member : row ∈ inSequence last rows) : row ∈ rows := by
  induction rows generalizing last with
  | nil => cases member
  | cons first rest ih =>
    unfold inSequence at member
    split at member
    · cases member
    · rcases List.mem_cons.mp member with rfl | later
      · exact List.mem_cons_self
      · exact List.mem_cons_of_mem _ (ih later)

-- The net effect.

@[simp] theorem keptEdges_nil : keptEdges actions [] = [] := by
  unfold keptEdges
  split <;> rfl

theorem keptEdges_append (edges more : List OverlayEdge) :
    keptEdges actions (edges ++ more) = keptEdges actions edges ++ keptEdges actions more := by
  unfold keptEdges
  split
  · rfl
  · exact List.filter_append ..

/-- What is kept was kept by each action in turn. -/
theorem keptEdges_cons (action : SyncAction) (rest : List SyncAction) (edges : List OverlayEdge) :
    keptEdges (action :: rest) edges = keptEdges rest (keptEdges [action] edges) := by
  unfold keptEdges
  by_cases later : SyncAction.truncateOverlays ∈ rest
  · rw [if_pos later, if_pos (List.mem_cons_of_mem _ later)]
  · rw [if_neg later]
    by_cases now : SyncAction.truncateOverlays = action
    · rw [if_pos (now ▸ List.mem_cons_self), if_pos (now ▸ List.mem_cons_self)]
      rfl
    · have neither : SyncAction.truncateOverlays ∉ action :: rest := by
        simp only [List.mem_cons, not_or]
        exact ⟨now, later⟩
      rw [if_neg neither, if_neg (by simpa using now), List.filter_filter]
      refine List.filter_congr fun edge _ => ?_
      simp only [List.mem_cons, not_or, List.not_mem_nil, not_false_eq_true, and_true,
        Bool.decide_and]
      exact Bool.and_comm _ _

variable {action : SyncAction}

/-- An action that neither removes nor inserts edges leaves them. -/
theorem keptEdges_of_passive (passive : ∀ edge, removal edge ≠ action)
    (other : action ≠ .truncateOverlays) (edges : List OverlayEdge) :
    keptEdges [action] edges = edges := by
  unfold keptEdges
  rw [if_neg (by simpa using other.symm), List.filter_eq_self]
  intro edge _
  simpa using passive edge

/-- The inserted edges that a replay leaves are those that the log keeps and those it inserts. -/
theorem addedEdges_replayed (overlay : OverlayState) :
    (replayed actions overlay).addedEdges =
      keptEdges actions overlay.addedEdges ++ insertedEdges actions := by
  induction actions generalizing overlay with
  | nil => simp [replayed, keptEdges, insertedEdges]
  | cons action rest ih =>
    rw [show replayed (action :: rest) overlay = replayed rest (action.applyTo overlay) from rfl,
      ih, keptEdges_cons]
    cases action with
    | insertEdge source target =>
      show keptEdges rest (overlay.addedEdges ++ [⟨source, target⟩]) ++ insertedEdges rest =
        _ ++ (keptEdges rest [⟨source, target⟩] ++ insertedEdges rest)
      rw [keptEdges_append, keptEdges_of_passive (fun _ => by simp [removal]) (by simp),
        List.append_assoc]
    | removeOverlayEdge source target =>
      -- The source retains the edges that differ in an end.
      have removed : keptEdges [.removeOverlayEdge source target] overlay.addedEdges =
          overlay.addedEdges.filter fun edge =>
            decide (edge.source ≠ source ∨ edge.target ≠ target) := by
        unfold keptEdges
        rw [if_neg (by simp)]
        refine List.filter_congr fun edge _ => ?_
        simp only [removal, List.mem_singleton, SyncAction.removeOverlayEdge.injEq, not_and_or,
          ne_eq]
      rw [removed]
      rfl
    | deleteEdge edgeId =>
      rw [keptEdges_of_passive (fun _ => by simp [removal]) (by simp)]
      rfl
    | deleteNode nodeId =>
      rw [keptEdges_of_passive (fun _ => by simp [removal]) (by simp)]
      rfl
    | truncateOverlays =>
      have none : keptEdges [.truncateOverlays] overlay.addedEdges = [] := if_pos (by simp)
      rw [none]
      rfl

/-- A truncate starts over. -/
theorem sinceTruncate_truncate :
    sinceTruncate (actions ++ [.truncateOverlays]) = [] :=
  List.rtakeWhile_concat_neg _ _ _ (by simp)

/-- Any other action comes after the last truncate. -/
theorem sinceTruncate_concat (other : action ≠ .truncateOverlays) :
    sinceTruncate (actions ++ [action]) = sinceTruncate actions ++ [action] :=
  List.rtakeWhile_concat_pos _ _ _ (decide_eq_true other)

theorem replayed_concat (action : SyncAction) (overlay : OverlayState) :
    replayed (actions ++ [action]) overlay = action.applyTo (replayed actions overlay) := by
  unfold replayed
  rw [List.foldl_append]
  rfl

/-- The ids that a replay leaves tombstoned are those that the log leaves deleted. -/
theorem tombstones_replayed {tombstones : OverlayState → BTreeSet UInt32}
    {delete : UInt32 → SyncAction}
    (step : ∀ (overlay : OverlayState) (action : SyncAction) (id : UInt32),
      id ∈ tombstones (action.applyTo overlay) ↔
        action ≠ .truncateOverlays ∧ (id ∈ tombstones overlay ∨ delete id = action))
    (actions : List SyncAction) (overlay : OverlayState) (id : UInt32) :
    id ∈ tombstones (replayed actions overlay) ↔
      Deleted delete actions (tombstones overlay) id := by
  induction actions using List.reverseRecOn with
  | nil => simp [replayed, Deleted, sinceTruncate]
  | append_singleton actions action ih =>
    rw [replayed_concat, step, ih]
    unfold Deleted
    by_cases truncates : action = .truncateOverlays
    · rw [truncates, sinceTruncate_truncate]
      simp
    · rw [sinceTruncate_concat actions truncates]
      simp only [List.mem_append, List.mem_singleton, not_or]
      have apart := Ne.symm truncates
      tauto

theorem tombstonedEdges_replayed (overlay : OverlayState)
    (edgeId : UInt32) : edgeId ∈ (replayed actions overlay).tombstonedEdges ↔
      Deleted .deleteEdge actions overlay.tombstonedEdges edgeId := by
  refine tombstones_replayed (fun overlay action id => ?_) actions overlay edgeId
  cases action with
  | truncateOverlays => simp [SyncAction.applyTo, OverlayState.clear, OverlayState.default]
  | deleteEdge deleted =>
    show id ∈ overlay.tombstonedEdges.insert deleted ↔ _
    rw [Std.ExtTreeSet.mem_insert, Std.LawfulEqOrd.compare_eq_iff_eq, SyncAction.deleteEdge.injEq]
    simp only [ne_eq, reduceCtorEq, not_false_eq_true, true_and]
    tauto
  | insertEdge | removeOverlayEdge | deleteNode =>
    simp only [ne_eq, reduceCtorEq, not_false_eq_true, true_and, or_false]
    rfl

theorem tombstonedNodes_replayed (overlay : OverlayState)
    (nodeId : UInt32) : nodeId ∈ (replayed actions overlay).tombstonedNodes ↔
      Deleted .deleteNode actions overlay.tombstonedNodes nodeId := by
  refine tombstones_replayed (fun overlay action id => ?_) actions overlay nodeId
  cases action with
  | truncateOverlays => simp [SyncAction.applyTo, OverlayState.clear, OverlayState.default]
  | deleteNode deleted =>
    show id ∈ overlay.tombstonedNodes.insert deleted ↔ _
    rw [Std.ExtTreeSet.mem_insert, Std.LawfulEqOrd.compare_eq_iff_eq, SyncAction.deleteNode.injEq]
    simp only [ne_eq, reduceCtorEq, not_false_eq_true, true_and]
    tauto
  | insertEdge | removeOverlayEdge | deleteEdge =>
    simp only [ne_eq, reduceCtorEq, not_false_eq_true, true_and, or_false]
    rfl

/-- A replay leaves a built overlay as it is exactly when its actions have no net effect. -/
theorem replayed_eq_self_iff (built : overlay.Built) :
    replayed actions overlay = overlay ↔ NoNetEffect actions overlay := by
  constructor
  · intro same
    refine ⟨?_, fun edgeId => ?_, fun nodeId => ?_⟩
    · rw [← addedEdges_replayed, same]
    · rw [← tombstonedEdges_replayed, same]
    · rw [← tombstonedNodes_replayed, same]
  · intro unchanged
    refine (built_replayed actions built).ext built ?_ ?_ ?_
    · rw [addedEdges_replayed, unchanged.edges]
    · refine Std.ExtTreeSet.ext_mem fun edgeId => ?_
      rw [tombstonedEdges_replayed, unchanged.deletedEdges]
    · refine Std.ExtTreeSet.ext_mem fun nodeId => ?_
      rw [tombstonedNodes_replayed, unchanged.deletedNodes]

/-- A replay that fails has applied the rows before the one that is out of sequence. -/
theorem of_applyInOrder {overlay after : OverlayState} {outcome : Except SyncError Nat}
    (ran : SyncRow.applyInOrder rows overlay = (outcome, after)) :
    after = replayed (accepted rows) overlay := by
  have applied := applyFrom_overlay none 0 rows overlay
  rw [show SyncRow.applyFrom none 0 rows overlay = (outcome, after) from ran] at applied
  exact applied

/--
A rejected batch leaves an overlay as it was exactly when the rows before the rejected one have no
net effect on it.
-/
theorem rejected_batch_unchanged_iff (edits : List OverlayEdit) {rows : List SyncRow}
    {error : SyncError} {after : OverlayState}
    (rejected : SyncRow.applyInOrder rows (OverlayEdit.all edits) = (.error error, after)) :
    (after = OverlayEdit.all edits ↔ NoNetEffect (accepted rows) (OverlayEdit.all edits)) ∧
      ∀ engine : Engine, engine.overlay = OverlayEdit.all edits →
        Engine.applySyncRows rows engine =
          (.error (.error (.sync error)), { engine with overlay := after }) := by
  constructor
  · rw [of_applyInOrder rejected]
    exact replayed_eq_self_iff (accepted rows) (OverlayState.built_all edits)
  · intro engine own
    unfold Engine.applySyncRows
    rw [own, rejected]

/-- The edge that the first row of a batch inserts stays when the second row is rejected. -/
theorem rejected_batch_inserts : ∃ error after,
    SyncRow.applyInOrder [⟨2, .insertEdge 0 1⟩, ⟨1, .insertEdge 0 2⟩] (OverlayEdit.all []) =
      (.error error, after) ∧ after ≠ OverlayEdit.all [] := by
  refine ⟨.nonMonotonicSequence 1 2, _, rfl, fun same => ?_⟩
  have edges := congrArg OverlayState.addedEdges same
  exact absurd edges (by decide)

/-- Over an edge and tombstones, what removes nothing and deletes again may precede a bad row. -/
theorem rejected_batch_removes : ∃ edits error after,
    edits = [.pushEdge ⟨0, 1⟩, .tombstoneEdge 4, .tombstoneNode 7] ∧
    SyncRow.applyInOrder [⟨2, .removeOverlayEdge 1 0⟩, ⟨3, .deleteEdge 4⟩, ⟨1, .insertEdge 0 1⟩]
      (OverlayEdit.all edits) = (.error error, after) ∧ after = OverlayEdit.all edits := by
  have rejected : SyncRow.applyInOrder
      [⟨2, .removeOverlayEdge 1 0⟩, ⟨3, .deleteEdge 4⟩, ⟨1, .insertEdge 0 1⟩]
      (OverlayEdit.all [.pushEdge ⟨0, 1⟩, .tombstoneEdge 4, .tombstoneNode 7]) =
        (.error (.nonMonotonicSequence 1 3), ((OverlayEdit.all
          [.pushEdge ⟨0, 1⟩, .tombstoneEdge 4, .tombstoneNode 7]).removeEdge 1 0).tombstoneEdge 4) :=
    rfl
  refine ⟨_, _, _, rfl, rejected, (rejected_batch_unchanged_iff _ rejected).1.mpr ?_⟩
  have actions : accepted
      [⟨2, .removeOverlayEdge 1 0⟩, ⟨3, .deleteEdge 4⟩, ⟨1, .insertEdge 0 1⟩] =
      [.removeOverlayEdge 1 0, .deleteEdge 4] := by decide
  rw [actions]
  refine ⟨by decide, fun edgeId => ?_, fun nodeId => ?_⟩
  · simp [Deleted, OverlayEdit.all, OverlayEdit.apply, OverlayState.default, sinceTruncate,
      List.rtakeWhile, OverlayState.tombstoneEdge, OverlayState.tombstoneNode, eq_comm]
    rintro rfl
    exact .inl (by decide)
  · simp [Deleted, OverlayEdit.all, OverlayEdit.apply, OverlayState.default, sinceTruncate,
      List.rtakeWhile]

-- Multiplicities.

/-- A new overlay holds only what the log inserts. -/
theorem addedEdges_replayed_default :
    (replayed actions .default).addedEdges = insertedEdges actions := by
  rw [addedEdges_replayed, show OverlayState.default.addedEdges = [] from rfl, keptEdges_nil,
    List.nil_append]

/-- Later actions keep what was inserted before them, and insert their own. -/
theorem insertedEdges_concat (action : SyncAction) :
    insertedEdges (actions ++ [action]) =
      keptEdges [action] (insertedEdges actions) ++ insertedEdges [action] := by
  have last := addedEdges_replayed [action] (replayed actions .default)
  rw [addedEdges_replayed_default] at last
  rw [← last, ← addedEdges_replayed_default, replayed_concat]
  rfl

theorem tally_concat (edge : OverlayEdge) (actions : List SyncAction) (action : SyncAction) :
    tally edge (actions ++ [action]) = tallyOne edge (tally edge actions) action := by
  unfold tally
  rw [List.foldl_append]
  rfl

variable {edge : OverlayEdge}

/-- An action that is no removal of an edge keeps the condition on the last one. -/
theorem lastRemovalMeetsOne_concat {actions : List SyncAction}
    (other : action ≠ .truncateOverlays) (passive : removal edge ≠ action) :
    LastRemovalMeetsOne edge (actions ++ [action]) ↔ LastRemovalMeetsOne edge actions := by
  unfold LastRemovalMeetsOne
  rw [sinceTruncate_concat actions other]
  constructor
  · intro holds earlier later split last
    refine holds earlier (later ++ [action]) (by rw [split]; simp) ?_
    simp [last, passive]
  · intro holds earlier later split last
    rcases List.eq_nil_or_concat later with rfl | ⟨later, final, rfl⟩
    · exact absurd (List.append_inj_right' split rfl) (by simpa using passive.symm)
    · rw [List.concat_eq_append] at split last
      rw [← List.cons_append, ← List.append_assoc] at split
      obtain ⟨same, _⟩ := List.append_inj' split rfl
      exact holds earlier later same fun member => last (by simp [member])

/-- After a removal of an edge the condition is about that removal. -/
theorem lastRemovalMeetsOne_removal (edge : OverlayEdge) (actions : List SyncAction) :
    LastRemovalMeetsOne edge (actions ++ [removal edge]) ↔ counted edge actions ≤ 1 := by
  unfold LastRemovalMeetsOne
  rw [sinceTruncate_concat actions (by simp [removal])]
  constructor
  · intro holds
    exact holds _ [] rfl (by simp)
  · intro few earlier later split last
    rcases List.eq_nil_or_concat later with rfl | ⟨later, final, rfl⟩
    · obtain ⟨same, _⟩ := List.append_inj' split rfl
      rw [← same]
      exact few
    · rw [List.concat_eq_append] at split last
      rw [← List.cons_append, ← List.append_assoc] at split
      obtain ⟨_, same⟩ := List.append_inj' split rfl
      exact absurd (by simp [List.singleton_inj.mp same]) last

/-- A log leaves as many copies of an edge as counting does exactly under the condition. -/
theorem count_insertedEdges (edge : OverlayEdge) (actions : List SyncAction) :
    (insertedEdges actions).count edge ≤ counted edge actions ∧
      ((insertedEdges actions).count edge = counted edge actions ↔
        LastRemovalMeetsOne edge actions) := by
  induction actions using List.reverseRecOn with
  | nil => simp [insertedEdges, counted, sinceTruncate, tally, LastRemovalMeetsOne]
  | append_singleton actions action ih =>
    obtain ⟨below, exactly⟩ := ih
    rw [insertedEdges_concat, List.count_append]
    by_cases truncates : action = .truncateOverlays
    · subst truncates
      simp [counted, LastRemovalMeetsOne, sinceTruncate_truncate, keptEdges, insertedEdges, tally]
    have counts : counted edge (actions ++ [action]) =
        tallyOne edge (counted edge actions) action := by
      unfold counted
      rw [sinceTruncate_concat actions truncates, tally_concat]
    rw [counts]
    by_cases removes : removal edge = action
    · -- The removal takes all copies, and counting takes one.
      subst removes
      have none : (keptEdges [removal edge] (insertedEdges actions)).count edge = 0 := by
        rw [List.count_eq_zero]
        unfold keptEdges
        rw [if_neg (by simp [removal])]
        simp
      rw [lastRemovalMeetsOne_removal, none]
      simp [tallyOne, removal, insertedEdges]
      omega
    · rw [lastRemovalMeetsOne_concat truncates removes]
      have kept : (keptEdges [action] (insertedEdges actions)).count edge =
          (insertedEdges actions).count edge := by
        unfold keptEdges
        rw [if_neg (by simpa using Ne.symm truncates), List.count_filter]
        simpa using removes
      rw [kept]
      by_cases inserts : action = .insertEdge edge.source edge.target
      · subst inserts
        have own : (insertedEdges [.insertEdge edge.source edge.target]).count edge = 1 := by
          simp [insertedEdges, keptEdges]
        rw [own, tallyOne, if_pos rfl, Nat.add_right_cancel_iff]
        exact ⟨Nat.succ_le_succ below, exactly⟩
      · have own : (insertedEdges [action]).count edge = 0 := by
          cases action with
          | insertEdge source target =>
            rw [List.count_eq_zero]
            simp only [insertedEdges, keptEdges, List.not_mem_nil, if_false, List.append_nil]
            intro member
            refine inserts ?_
            rw [List.mem_singleton.mp (List.mem_of_mem_filter member)]
          | removeOverlayEdge | deleteEdge | deleteNode | truncateOverlays => rfl
        rw [own, Nat.add_zero, tallyOne, if_neg inserts, if_neg (Ne.symm removes)]
        exact ⟨below, exactly⟩

/--
A log in sequence leaves as many copies of an edge as counting does exactly when the last removal of
it since the last truncate meets at most one.
-/
theorem overlay_multiplicity_iff {rows : List SyncRow} (increasing : Increasing rows)
    (edge : OverlayEdge) : ∃ after,
      SyncRow.applyInOrder rows .default = (.ok rows.length, after) ∧
        (after.addedEdges.count edge = counted edge (rows.map SyncRow.action) ↔
          LastRemovalMeetsOne edge (rows.map SyncRow.action)) := by
  refine ⟨_, applyInOrder_increasing increasing .default, ?_⟩
  rw [addedEdges_replayed_default]
  exact (count_insertedEdges edge _).2

/-- One removal takes both of two parallel edges. -/
theorem overlay_multiplicity_parallel : ∃ after,
    SyncRow.applyInOrder
      [⟨1, .insertEdge 0 1⟩, ⟨2, .insertEdge 0 1⟩, ⟨3, .removeOverlayEdge 0 1⟩] .default =
        (.ok 3, after) ∧
      after.addedEdges.count ⟨0, 1⟩ = 0 ∧
      counted ⟨0, 1⟩ [.insertEdge 0 1, .insertEdge 0 1, .removeOverlayEdge 0 1] = 1 :=
  ⟨_, rfl, by decide, by decide⟩

/-- A removal between two insertions of one edge meets one. -/
theorem overlay_multiplicity_again : ∃ after,
    SyncRow.applyInOrder
      [⟨1, .insertEdge 0 1⟩, ⟨2, .removeOverlayEdge 0 1⟩, ⟨3, .insertEdge 0 1⟩] .default =
        (.ok 3, after) ∧
      (after.addedEdges.count ⟨0, 1⟩ =
          counted ⟨0, 1⟩ [.insertEdge 0 1, .removeOverlayEdge 0 1, .insertEdge 0 1] ↔
        LastRemovalMeetsOne ⟨0, 1⟩ [.insertEdge 0 1, .removeOverlayEdge 0 1, .insertEdge 0 1]) :=
  @overlay_multiplicity_iff
    [⟨1, .insertEdge 0 1⟩, ⟨2, .removeOverlayEdge 0 1⟩, ⟨3, .insertEdge 0 1⟩] (by simp [Increasing])
    ⟨0, 1⟩

-- Reloads.

/-- An overlay holds nothing that a log without a truncate did not put there. -/
structure Within (actions : List SyncAction) (overlay : OverlayState) : Prop where
  edges : ∀ edge ∈ overlay.addedEdges, .insertEdge edge.source edge.target ∈ actions
  deletedEdges : ∀ edgeId ∈ overlay.tombstonedEdges, .deleteEdge edgeId ∈ actions
  deletedNodes : ∀ nodeId ∈ overlay.tombstonedNodes, .deleteNode nodeId ∈ actions

theorem within_default : Within actions .default := by
  constructor <;> simp [OverlayState.default]

/-- Inserted edges were inserted by some action. -/
theorem mem_of_insertedEdges {actions : List SyncAction} (member : edge ∈ insertedEdges actions) :
    .insertEdge edge.source edge.target ∈ actions := by
  induction actions with
  | nil => cases member
  | cons action rest ih =>
    cases action with
    | insertEdge source target =>
      rcases List.mem_append.mp member with own | later
      · have same : edge ∈ [OverlayEdge.mk source target] := by
          unfold keptEdges at own
          split at own
          · cases own
          · exact List.mem_of_mem_filter own
        rw [List.mem_singleton.mp same]
        exact List.mem_cons_self
      · exact List.mem_cons_of_mem _ (ih later)
    | removeOverlayEdge | deleteEdge | deleteNode | truncateOverlays =>
      exact List.mem_cons_of_mem _ (ih member)

/-- An edge that no action removes and some action inserts is left. -/
theorem mem_insertedEdges {actions : List SyncAction} (kept : .truncateOverlays ∉ actions)
    (stays : removal edge ∉ actions) (inserted : .insertEdge edge.source edge.target ∈ actions) :
    edge ∈ insertedEdges actions := by
  induction actions with
  | nil => cases inserted
  | cons action rest ih =>
    simp only [List.mem_cons, not_or] at kept stays inserted
    rcases inserted with rfl | later
    · refine List.mem_append_left _ ?_
      unfold keptEdges
      rw [if_neg kept.2]
      simp [stays.2]
    · have left := ih kept.2 stays.2 later
      cases action with
      | insertEdge source target => exact List.mem_append_right _ left
      | removeOverlayEdge | deleteEdge | deleteNode | truncateOverlays => exact left

theorem mem_of_keptEdges {actions : List SyncAction} {edges : List OverlayEdge}
    (kept : .truncateOverlays ∉ actions) :
    edge ∈ keptEdges actions edges ↔ edge ∈ edges ∧ removal edge ∉ actions := by
  unfold keptEdges
  rw [if_neg kept, List.mem_filter, decide_eq_true_eq]

/-- Since no truncate, all actions count. -/
theorem deleted_iff {delete : UInt32 → SyncAction} {actions : List SyncAction}
    {before : BTreeSet UInt32} {id : UInt32} (kept : .truncateOverlays ∉ actions) :
    Deleted delete actions before id ↔ id ∈ before ∨ delete id ∈ actions := by
  have all : sinceTruncate actions = actions := by
    refine (List.rtakeWhile_eq_self_iff).mpr fun action member => ?_
    refine decide_eq_true fun same => kept (same ▸ member)
  unfold Deleted
  rw [all]
  simp [kept]

/-- Replaying some of a log keeps an overlay within the log. -/
theorem Within.replayed {actions part : List SyncAction} (within : Within actions overlay)
    (kept : .truncateOverlays ∉ actions) (among : part ⊆ actions) :
    Within actions (SyncLog.replayed part overlay) := by
  have partKept : SyncAction.truncateOverlays ∉ part := fun member => kept (among member)
  constructor
  · intro edge member
    rw [addedEdges_replayed, List.mem_append, mem_of_keptEdges partKept] at member
    rcases member with ⟨old, _⟩ | new
    · exact within.edges edge old
    · exact among (mem_of_insertedEdges new)
  · intro edgeId member
    rw [tombstonedEdges_replayed, deleted_iff partKept] at member
    exact member.elim (within.deletedEdges edgeId) (fun new => among new)
  · intro nodeId member
    rw [tombstonedNodes_replayed, deleted_iff partKept] at member
    exact member.elim (within.deletedNodes nodeId) (fun new => among new)

/-- Overlays that show the same edges and tombstones. -/
structure SameVisible (left right : OverlayState) : Prop where
  edges : ∀ edge, edge ∈ left.addedEdges ↔ edge ∈ right.addedEdges
  deletedEdges : left.tombstonedEdges = right.tombstonedEdges
  deletedNodes : left.tombstonedNodes = right.tombstonedNodes

/-- A truncate in a log makes the overlay before it irrelevant. -/
theorem SameVisible.of_truncate {actions : List SyncAction}
    (truncates : .truncateOverlays ∈ actions) (left right : OverlayState) :
    SameVisible (SyncLog.replayed actions left) (SyncLog.replayed actions right) := by
  constructor
  · intro edge
    rw [addedEdges_replayed, addedEdges_replayed, keptEdges, keptEdges, if_pos truncates,
      if_pos truncates]
  · refine Std.ExtTreeSet.ext_mem fun edgeId => ?_
    rw [tombstonedEdges_replayed, tombstonedEdges_replayed]
    simp [Deleted, truncates]
  · refine Std.ExtTreeSet.ext_mem fun nodeId => ?_
    rw [tombstonedNodes_replayed, tombstonedNodes_replayed]
    simp [Deleted, truncates]

/-- A log without a truncate absorbs what it put into an overlay. -/
theorem Within.absorbed {actions : List SyncAction} (within : Within actions overlay)
    (kept : .truncateOverlays ∉ actions) :
    SameVisible (SyncLog.replayed actions overlay) (SyncLog.replayed actions .default) := by
  constructor
  · intro edge
    rw [addedEdges_replayed, addedEdges_replayed_default, List.mem_append, mem_of_keptEdges kept]
    constructor
    · rintro (⟨old, stays⟩ | new)
      · exact mem_insertedEdges kept stays (within.edges edge old)
      · exact new
    · exact Or.inr
  · refine Std.ExtTreeSet.ext_mem fun edgeId => ?_
    rw [tombstonedEdges_replayed, tombstonedEdges_replayed, deleted_iff kept, deleted_iff kept]
    have put := within.deletedEdges edgeId
    simp only [OverlayState.default, Std.ExtTreeSet.not_mem_empty, false_or]
    tauto
  · refine Std.ExtTreeSet.ext_mem fun nodeId => ?_
    rw [tombstonedNodes_replayed, tombstonedNodes_replayed, deleted_iff kept, deleted_iff kept]
    have put := within.deletedNodes nodeId
    simp only [OverlayState.default, Std.ExtTreeSet.not_mem_empty, false_or]
    tauto

/-- The overlay after reloads, one after the other. -/
def reloaded (loads : List (List SyncRow)) (overlay : OverlayState) : OverlayState :=
  loads.foldl (fun overlay rows => (SyncRow.applyInOrder rows overlay).2) overlay

/-- Reloads of prefixes keep an overlay within the log. -/
theorem within_reloaded (kept : .truncateOverlays ∉ rows.map SyncRow.action)
    {loads : List (List SyncRow)} (prefixes : ∀ load ∈ loads, load <+: rows)
    (within : Within (rows.map SyncRow.action) overlay) :
    Within (rows.map SyncRow.action) (reloaded loads overlay) := by
  induction loads generalizing overlay with
  | nil => exact within
  | cons load rest ih =>
    obtain ⟨own, others⟩ := List.forall_mem_cons.mp prefixes
    refine ih others ?_
    have applied : (SyncRow.applyInOrder load overlay).2 = replayed (accepted load) overlay :=
      of_applyInOrder rfl
    show Within _ (SyncRow.applyInOrder load overlay).2
    rw [applied]
    refine within.replayed kept fun action member => ?_
    obtain ⟨row, inside, rfl⟩ := List.mem_map.mp member
    exact List.mem_map_of_mem (own.subset (mem_of_inSequence inside))

/-- The sync action that changes an overlay as an edit does. -/
def actionOf : OverlayEdit → SyncAction
  | .pushEdge edge => .insertEdge edge.source edge.target
  | .removeEdge source target => .removeOverlayEdge source target
  | .tombstoneEdge edgeId => .deleteEdge edgeId
  | .tombstoneNode nodeId => .deleteNode nodeId
  | .clear => .truncateOverlays

/-- Edits are replayed as their actions. -/
theorem all_eq_replayed (edits : List OverlayEdit) :
    OverlayEdit.all edits = replayed (edits.map actionOf) .default := by
  unfold OverlayEdit.all replayed
  rw [List.foldl_map]
  congr 1
  funext overlay edit
  cases edit <;> rfl

/--
The indexes of an overlay are its inserted edges, which are the edits' that no later one takes away.

Replaying a log over reloads of its prefixes shows what replaying it once does.
-/
theorem overlay_indexes_and_reloads :
    (∀ (edits : List OverlayEdit) (node : UInt32),
      (OverlayEdit.all edits).addedEdges = insertedEdges (edits.map actionOf) ∧
        (OverlayEdit.all edits).overlayTargets node =
          (((OverlayEdit.all edits).addedEdges.filter fun edge => edge.source = node).map
            OverlayEdge.target) ∧
        (OverlayEdit.all edits).overlaySources node =
          (((OverlayEdit.all edits).addedEdges.filter fun edge => edge.target = node).map
            OverlayEdge.source)) ∧
      ∀ rows : List SyncRow, Increasing rows → ∀ loads : List (List SyncRow),
        (∀ load ∈ loads, load <+: rows) →
        (loads.Pairwise fun earlier later => earlier.length ≤ later.length) →
        ∃ again once, SyncRow.applyInOrder rows (reloaded loads .default) = (.ok rows.length, again) ∧
          SyncRow.applyInOrder rows .default = (.ok rows.length, once) ∧ SameVisible again once := by
  constructor
  · intro edits node
    have indexed := OverlayState.indexed_default.edits edits
    refine ⟨?_, indexed.targets node, indexed.sources node⟩
    rw [all_eq_replayed, addedEdges_replayed_default]
  · intro rows increasing loads prefixes _
    refine ⟨_, _, applyInOrder_increasing increasing _, applyInOrder_increasing increasing _, ?_⟩
    by_cases truncates : SyncAction.truncateOverlays ∈ rows.map SyncRow.action
    · exact .of_truncate truncates _ _
    · exact (within_reloaded truncates prefixes (within_default _)).absorbed truncates

/-- Reloads of the first row and of three rows, before the log that leaves an edge and a tombstone. -/
theorem overlay_indexes_and_reloads_removal : ∃ rows again once,
    rows = [⟨1, .insertEdge 0 1⟩, ⟨2, .insertEdge 0 2⟩, ⟨3, .removeOverlayEdge 0 1⟩,
      ⟨4, .deleteEdge 5⟩] ∧
    SyncRow.applyInOrder rows (reloaded [rows.take 1, rows.take 3] .default) = (.ok 4, again) ∧
      SyncRow.applyInOrder rows .default = (.ok 4, once) ∧ SameVisible again once ∧
      once.addedEdges = [⟨0, 2⟩] ∧ once.tombstonedEdges.toList = [5] := by
  obtain ⟨again, once, ranAgain, ranOnce, same⟩ := overlay_indexes_and_reloads.2
    [⟨1, .insertEdge 0 1⟩, ⟨2, .insertEdge 0 2⟩, ⟨3, .removeOverlayEdge 0 1⟩, ⟨4, .deleteEdge 5⟩]
    (by simp [Increasing])
    [[⟨1, .insertEdge 0 1⟩],
      [⟨1, .insertEdge 0 1⟩, ⟨2, .insertEdge 0 2⟩, ⟨3, .removeOverlayEdge 0 1⟩]]
    (by simp) (by simp)
  refine ⟨_, again, once, rfl, ranAgain, ranOnce, same, ?_⟩
  cases ranOnce
  exact ⟨by decide, by decide⟩

end SyncLog

end Oxgraph.Postgres
