import Oxgraph.Spec.Change

/-! Replaying a recorded mutation repeats it. -/

namespace Oxgraph

open MutationLog

/-- A recorded op reads back the words it was given, zero-padded to the payload. -/
theorem word_opOf (opKind flags : UInt32) (words : List UInt64) {index : Nat} (inside : index < 9) :
    Overlay.word (opOf opKind flags words) index = words.getD index 0 := by
  simp [Overlay.word, opOf, inside]

/-- The words of an interned run, as a later reader of a longer blob sees them. -/
theorem slice_interned {blob value tail : Bytes}
    (fits : (blob ++ value ++ tail).length < usizeBound) :
    checkedAdd (UInt64.ofNat blob.length).toNat (UInt64.ofNat value.length).toNat =
        some (blob.length + value.length) ∧
      sliceOf (blob ++ value ++ tail) (UInt64.ofNat blob.length).toNat
        (blob.length + value.length) = some value := by
  simp only [List.length_append, usizeBound] at fits
  have start : (UInt64.ofNat blob.length).toNat = blob.length :=
    UInt64.toNat_ofNat_of_lt' (by simp only [UInt64.size]; omega)
  have len : (UInt64.ofNat value.length).toNat = value.length :=
    UInt64.toNat_ofNat_of_lt' (by simp only [UInt64.size]; omega)
  rw [start, len, checkedAdd_eq_some, usizeBound]
  exact ⟨⟨rfl, by omega⟩, sliceOf_middle blob value tail⟩

/-- An interned string reads back from any longer blob. -/
theorem blobStr_interned {blob tail : Bytes} {string : String} (lsn : UInt64)
    (fits : (blob ++ utf8Bytes string ++ tail).length < usizeBound) :
    blobStr (blob ++ utf8Bytes string ++ tail) (.ofNat blob.length)
      (.ofNat (utf8Bytes string).length) lsn = .ok string := by
  obtain ⟨stop, slice⟩ := slice_interned fits
  simp only [blobStr, stop, slice, fromUtf8_utf8Bytes]

/-- Interned definition words read back from any longer blob. -/
theorem decodeDefWords_interned {blob tail : Bytes} {words : List UInt64} (lsn : UInt64)
    (fits : (blob ++ arrayBytes words ++ tail).length < usizeBound) :
    decodeDefWords (blob ++ arrayBytes words ++ tail) (.ofNat blob.length)
      (.ofNat (arrayBytes words).length) lsn = .ok words := by
  obtain ⟨stop, slice⟩ := slice_interned fits
  simp only [decodeDefWords, stop, slice, refFromBytes_arrayBytes]

/-- Replaying an op against a blob does to every overlay what a mutation does. -/
def Replays (op : MutationOp) (blob : Bytes) (change : Change) : Prop :=
  ∀ (base : BaseRecords) (overlay : Overlay) (lsn : UInt64),
    overlay.applyReplayOp base op blob lsn = change.apply base overlay

/-- A recorded property set replays as the set, its value read back from the payload or the blob. -/
theorem replays_setProperty (log : MutationLog) (subject : PropertySubject) (key : PropertyKeyId)
    (value : PropertyValue) {blob : Bytes}
    (reads : ∀ string, value = .text string → ∀ lsn,
      blobStr blob (.ofNat log.blob.length) (.ofNat (utf8Bytes string).length) lsn = .ok string) :
    Replays (opOf opSetProperty
      (packFlags (encodeSubject subject).1 (propertyTypeTag value.valueType))
      [(encodeSubject subject).2, key, (WriteOverlay.internValue log value).1.1,
        (WriteOverlay.internValue log value).1.2.1, (WriteOverlay.internValue log value).1.2.2])
      blob (.setProperty subject key value) := by
  intro base overlay lsn
  have topology : opSetProperty ∉ [opCreateElement, opCreateRelation, opCreateIncidence,
      opTombstoneElement, opTombstoneRelation, opTombstoneIncidence, opAddElementLabel,
      opAddRelationLabel, opSetRelationType] := by decide
  rw [Overlay.applyReplayOp]
  simp only [opOf, topology, if_false, if_true]
  rw [← opOf, Overlay.applySetProperty]
  have flags : ∀ kind flags words, (opOf kind flags words).flags = flags := fun _ _ _ => rfl
  simp only [flags, unpackFlags_subject, word_opOf _ _ _ (show 0 < 9 by omega),
    word_opOf _ _ _ (show 1 < 9 by omega), word_opOf _ _ _ (show 2 < 9 by omega),
    word_opOf _ _ _ (show 3 < 9 by omega), word_opOf _ _ _ (show 4 < 9 by omega),
    List.getD_cons_zero, List.getD_cons_succ, decodeSubject_encodeSubject,
    propertyTypeFromTag_tag]
  cases value with
  | boolean flag => cases flag <;> rfl
  | integer number => simp [PropertyValue.valueType, WriteOverlay.internValue, Change.apply]
  | text string =>
    simp [PropertyValue.valueType, WriteOverlay.internValue, intern, reads string rfl lsn,
      Change.apply]

/-- A recorded registration replays as the registration, its name and body read from the blob. -/
theorem replays_register (entry : Registration) (words : List UInt64) {blob : Bytes}
    (name : ∀ lsn, blobStr blob (words.getD 0 0) (words.getD 1 0) lsn = .ok entry.name)
    (body : ∀ run, entry.body = some run → ∀ lsn,
      decodeDefWords blob (words.getD 2 0) (words.getD 3 0) lsn = .ok run ∧
        run.length < usizeBound) :
    Replays (opOf entry.kindFlags.1 entry.kindFlags.2 (entry.handle.2 :: words)) blob
      (.register entry) := by
  intro base overlay lsn
  have kind : ∀ kind flags words, (opOf kind flags words).opKind = kind := fun _ _ _ => rfl
  have flags : ∀ kind flags words, (opOf kind flags words).flags = flags := fun _ _ _ => rfl
  have topology : entry.kindFlags.1 ∉ [opCreateElement, opCreateRelation, opCreateIncidence,
      opTombstoneElement, opTombstoneRelation, opTombstoneIncidence, opAddElementLabel,
      opAddRelationLabel, opSetRelationType] := by
    cases entry <;> simp only [Registration.kindFlags] <;> decide
  have property : entry.kindFlags.1 ≠ opSetProperty ∧ entry.kindFlags.1 ≠ opRemoveProperty := by
    cases entry <;> simp only [Registration.kindFlags] <;> decide
  have catalog : entry.kindFlags.1 ∈ [opCatalogRegisterRole, opCatalogRegisterLabel,
      opCatalogRegisterRelationType, opCatalogRegisterPropertyKey, opCatalogRegisterProjection,
      opCatalogRegisterIndex] := by
    cases entry <;> simp only [Registration.kindFlags] <;> decide
  rw [Overlay.applyReplayOp]
  simp only [kind, topology, property, catalog, if_false, if_true]
  rw [Overlay.applyCatalogOp]
  simp only [word_opOf _ _ _ (show 1 < 9 by omega), word_opOf _ _ _ (show 2 < 9 by omega),
    List.getD_cons_succ, name]
  rw [Change.apply]
  -- What is left is the entry each kind inserts, rebuilt from the payload, flags, and blob.
  cases entry with
  | role id name => rfl
  | label id name => rfl
  | relationType id name => rfl
  | propertyKey definition =>
    simp only [Overlay.insertCatalogOp, kind, flags, Registration.kindFlags, unpackFlags_key,
      propertyFamilyFromTag_tag, propertyTypeFromTag_tag]
    rfl
  | projection id definition =>
    obtain ⟨read, fits⟩ := body _ rfl lsn
    simp only [Overlay.insertCatalogOp, kind, flags, Registration.kindFlags, Registration.name,
      word_opOf _ _ _ (show 3 < 9 by omega), word_opOf _ _ _ (show 4 < 9 by omega),
      List.getD_cons_succ, read, decodeProjectionBody_encode definition fits]
    rfl
  | index id name definition =>
    obtain ⟨read, _⟩ := body _ rfl lsn
    simp only [Overlay.insertCatalogOp, kind, flags, Registration.kindFlags, Registration.name,
      word_opOf _ _ _ (show 3 < 9 by omega), word_opOf _ _ _ (show 4 < 9 by omega),
      List.getD_cons_succ, read, decodeIndexBody_encode]
    rfl

/-- Recording a mutation appends one op, which replays as the mutation from any longer blob. -/
theorem replays_record (change : Change) (log : MutationLog) :
    ∃ op interned, change.record log = ⟨log.ops ++ [op], log.blob ++ interned⟩ ∧
      ∀ tail, (log.blob ++ interned ++ tail).length < usizeBound →
        Replays op (log.blob ++ interned ++ tail) change := by
  cases change with
  | setProperty subject key value =>
    cases value with
    | text string =>
      refine ⟨_, utf8Bytes string, rfl, ?_⟩
      intro tail fits
      refine replays_setProperty log subject key (.text string) ?_
      rintro _ ⟨⟩ lsn
      exact blobStr_interned lsn fits
    | boolean flag =>
      refine ⟨_, [], by simp only [List.append_nil]; rfl, ?_⟩
      intro tail _
      exact replays_setProperty log subject key (.boolean flag) (by rintro _ ⟨⟩)
    | integer number =>
      refine ⟨_, [], by simp only [List.append_nil]; rfl, ?_⟩
      intro tail _
      exact replays_setProperty log subject key (.integer number) (by rintro _ ⟨⟩)
  | removeProperty subject key =>
    refine ⟨_, [], by simp only [List.append_nil]; rfl, ?_⟩
    intro tail _ base overlay lsn
    simp only [Overlay.applyReplayOp, opOf, Overlay.applyRemoveProperty, unpackFlags_subject_kind]
    rw [← opOf, word_opOf _ _ _ (show 0 < 9 by omega), word_opOf _ _ _ (show 1 < 9 by omega)]
    simp only [List.getD_cons_zero, List.getD_cons_succ, decodeSubject_encodeSubject]
    rfl
  | register entry =>
    cases hasBody : entry.body with
    | none =>
      refine ⟨_, utf8Bytes entry.name, by
        simp only [Change.record, Registration.intern, hasBody]; rfl, ?_⟩
      intro tail fits
      refine replays_register entry _ (fun lsn => blobStr_interned lsn fits) ?_
      simp [hasBody]
    | some words =>
      -- The body follows the name in the blob, so each is read past a different prefix.
      refine ⟨_, utf8Bytes entry.name ++ arrayBytes words, by
        simp only [Change.record, Registration.intern, hasBody, ← List.append_assoc]; rfl, ?_⟩
      intro tail fits
      rw [← List.append_assoc] at fits ⊢
      refine replays_register entry _ ?_ ?_
      · intro lsn
        rw [List.append_assoc] at fits ⊢
        exact blobStr_interned lsn fits
      · rintro run same lsn
        rw [hasBody] at same
        cases same
        refine ⟨decodeDefWords_interned lsn fits, ?_⟩
        have width : FixedLayout.size UInt64 = 8 := rfl
        simp only [List.length_append, length_arrayBytes, width] at fits
        omega
  | createElement id | createRelation id | createIncidence record
  | tombstoneElement id | tombstoneRelation id | tombstoneIncidence id
  | addElementLabel element label | addRelationLabel relation label
  | setRelationType relation relationType =>
    refine ⟨_, [], by simp only [List.append_nil]; rfl, ?_⟩
    intro tail _ base overlay lsn
    rfl

/-- A mutation neither reads nor moves the watermark. -/
theorem apply_setNextIds (change : Change) (base : BaseRecords) (overlay : Overlay)
    (next : NextIds) :
    change.apply base (overlay.setNextIds next) =
      (change.apply base overlay).map (·.setNextIds next) := by
  cases change with
  | register entry =>
    have same : (overlay.setNextIds next).catalog = overlay.catalog := rfl
    simp only [Change.apply, Overlay.registerEntry, same]
    cases entry.insert overlay.catalog <;> rfl
  | _ => rfl

variable {base : BaseRecords}

/-- A frame's last op applies after the ones before it. -/
theorem applyOps_concat {overlay reached : Overlay} {ops : List MutationOp} {blob : Bytes}
    {lsn : UInt64} (prior : overlay.applyOps base ops blob lsn = .ok reached) (op : MutationOp) :
    overlay.applyOps base (ops ++ [op]) blob lsn = reached.applyReplayOp base op blob lsn := by
  unfold Overlay.applyOps at prior ⊢
  rw [List.foldlM_append, prior]
  change (reached.applyReplayOp base op blob lsn >>= pure) = _
  exact bind_pure _

/-- Replaying the ops recorded so far over a parent's data, in any longer blob, rebuilds the data. -/
def Journals (base : BaseRecords) (parent : Overlay) (writer : WriteOverlay) : Prop :=
  ∀ (next : NextIds) (lsn : UInt64) (tail : Bytes),
    (writer.log.blob ++ tail).length < usizeBound →
      (parent.setNextIds next).applyOps base writer.log.ops (writer.log.blob ++ tail) lsn =
        .ok (writer.toOverlay.setNextIds next)

/-- A writer that has changed nothing journals its parent. -/
theorem journals_fromOverlay (base : BaseRecords) (parent : Overlay) :
    Journals base parent (.fromOverlay parent) :=
  fun _ _ _ _ => rfl

variable {parent : Overlay}

/-- Applying and recording one more mutation keeps the journal. -/
theorem Journals.record {writer : WriteOverlay} (journals : Journals base parent writer)
    (change : Change) {before overlay : Overlay}
    (applied : change.apply base before = .ok overlay)
    (sameData : ∃ next, before = writer.toOverlay.setNextIds next) :
    Journals base parent { overlay with log := change.record writer.log } := by
  obtain ⟨moved, rfl⟩ := sameData
  obtain ⟨op, interned, recorded, replays⟩ := replays_record change writer.log
  intro next lsn tail fits
  rw [recorded] at fits ⊢
  have prior := journals next lsn (interned ++ tail) (by rwa [← List.append_assoc])
  rw [← List.append_assoc] at prior
  rw [applyOps_concat prior, replays tail fits]
  -- The last op repeats the mutation, whatever watermark it runs under.
  have repeated := apply_setNextIds change base (writer.toOverlay.setNextIds moved) next
  rw [applied] at repeated
  exact repeated

/-- Every step keeps the journal. -/
theorem Journals.step {base : BaseRecords} {allowed : Change → LayeredState → Prop}
    {parent : Overlay} {before after : WriteOverlay} (journals : Journals base parent before)
    (step : DeltaStep base allowed before after) : Journals base parent after := by
  cases step with
  | create change guard creates fits applied => exact journals.record change applied ⟨_, rfl⟩
  | mutate change guard creates applied => exact journals.record change applied ⟨_, rfl⟩
  | burn family fits interned =>
    -- Nothing is recorded, and the bytes left in the blob are part of the tail.
    intro next lsn tail fits
    have prior := journals next lsn (interned ++ tail) (by rwa [← List.append_assoc])
    rw [← List.append_assoc] at prior
    exact prior

/-- The steps of a writer keep the journal of its parent. -/
theorem Journals.steps {allowed : Change → LayeredState → Prop} {before after : WriteOverlay}
    (journals : Journals base parent before)
    (steps : Relation.ReflTransGen (DeltaStep base allowed) before after) :
    Journals base parent after := by
  induction steps with
  | refl => exact journals
  | tail _ step ih => exact ih.step step

/-- Replaying the frame a writer commits over its parent yields exactly the overlay it publishes. -/
theorem Journals.replay_takeFrame {writer : WriteOverlay} (journals : Journals base parent writer)
    (lsn : UInt64) (fits : writer.takeFrame.blob.length < usizeBound) :
    parent.applyOps base writer.takeFrame.ops writer.takeFrame.blob lsn = .ok writer.freeze := by
  have prior := journals parent.next lsn [] (by rwa [List.append_nil])
  rw [List.append_nil] at prior
  change parent.applyOps base _ writer.log.blob lsn = _ at prior
  change parent.applyOps base (writer.log.ops ++ [_]) writer.log.blob lsn = _
  rw [applyOps_concat prior]
  -- The terminal op carries the writer's nine allocators.
  rfl

end Oxgraph
